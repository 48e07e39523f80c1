import Enrolment.Proofs.Enroller.CachedIdps
import Enrolment.Proofs.Enroller.Questions

/-!
What the question for the IDPs that grant a principal leaves in the trace.

The announcement that entries are missing is made by comparing sizes (`announced_iff`).  A question
that finds an entry for every mapped IDP leaves nothing but hits (`events_standingSets_of_cached`),
and so do all questions after the first one, because that one makes the entries that are missing.
-/

namespace Enrolment

namespace Diagnostic

theorem populatingAll_of_message {d : Diagnostic}
    (h : d.message = "Populating auto-membership cache for all configured IDPs") :
    ∃ filled mapped, d = .populatingAll filled mapped := by
  cases d with
  | populatingAll filled mapped => exact ⟨filled, mapped, rfl⟩
  | _ => simp [message] at h

end Diagnostic

namespace Enroller

variable (n : Enroller)

/-! ## The announcement -/

theorem populatingAll_notMem_vetAll (s : Store) (ids : List String) (filled mapped : Nat) :
    Event.note (.populatingAll filled mapped) ∉ (s.vetAll ids).events := by
  induction ids with
  | nil => exact List.not_mem_nil
  | cons id ids ih =>
    rw [Store.events_vetAll_cons, List.mem_append, not_or]
    refine ⟨?_, ih⟩
    rw [Store.events_vet]
    cases s.judge id <;> simp [Verdict.note?]

theorem populatingAll_notMem_standingSet (s : Store) (idp : String) (c : Cache)
    (filled mapped : Nat) :
    Event.note (.populatingAll filled mapped) ∉ (n.standingSet s idp c).events := by
  rcases n.standingSet_cases s idp c with ⟨set, _, heq⟩ | ⟨_, _, heq⟩ | ⟨_, _, heq⟩
  · rw [heq]
    simp
  · rw [heq]
    simp [populatingAll_notMem_vetAll]
  · rw [heq]
    exact List.not_mem_nil

theorem populatingAll_notMem_standingSets (s : Store) (idps : List String) (c : Cache)
    (filled mapped : Nat) :
    Event.note (.populatingAll filled mapped) ∉ (n.standingSets s idps c).events := by
  induction idps generalizing c with
  | nil => exact List.not_mem_nil
  | cons idp idps ih =>
    rw [events_standingSets_cons, List.mem_append, not_or]
    exact ⟨n.populatingAll_notMem_standingSet s idp c filled mapped, ih _⟩

/-- That the entries of all mapped IDPs are being made is noted if the cache is the smaller. -/
theorem announced_iff (s : Store) (p : Principal) (c : Cache) :
    (∃ d ∈ Event.notes (n.idpsGranting s p c).events,
        d.message = "Populating auto-membership cache for all configured IDPs") ↔
      c.size < n.standing.size := by
  rw [events_idpsGranting]
  by_cases hsize : c.size < n.standing.size
  · rw [if_pos hsize]
    refine iff_of_true ⟨.populatingAll c.size n.standing.size, ?_, rfl⟩ hsize
    exact List.mem_cons_self
  · rw [if_neg hsize, List.nil_append]
    refine iff_of_false ?_ hsize
    rintro ⟨d, hd, hmessage⟩
    obtain ⟨filled, mapped, rfl⟩ := Diagnostic.populatingAll_of_message hmessage
    rw [Event.notes, List.mem_filterMap] at hd
    obtain ⟨event, hevent, hnote⟩ := hd
    cases event with
    | note d =>
      rw [Option.some.inj hnote] at hevent
      exact n.populatingAll_notMem_standingSets s _ c filled mapped hevent
    | _ => cases hnote

/-! ## Entries for every mapped IDP -/

theorem events_standingSets_of_cached (s : Store) {idps : List String} {c : Cache}
    (h : ∀ idp ∈ idps, c.contains idp = true) :
    (n.standingSets s idps c).events = idps.map fun idp => .note (.hit idp) := by
  induction idps generalizing c with
  | nil => rfl
  | cons idp idps ih =>
    obtain ⟨set, hset⟩ := Option.isSome_iff_exists.1 (h idp List.mem_cons_self)
    have hfound : n.standingSet s idp c =
        ⟨(set, { c with hits := c.hits + 1 }), [.note (.hit idp)]⟩ := by
      rcases n.standingSet_cases s idp c with ⟨other, hother, heq⟩ | ⟨hnone, _⟩ | ⟨hnone, _⟩
      · rw [hset] at hother
        rw [heq, Option.some.inj hother]
      · rw [hset] at hnone
        cases hnone
      · rw [hset] at hnone
        cases hnone
    rw [events_standingSets_cons, hfound, List.map_cons]
    -- A hit leaves the entries as they are.
    have hrest := ih (c := { c with hits := c.hits + 1 })
      fun other ho => h other (List.mem_cons_of_mem _ ho)
    rw [hrest]
    rfl

theorem reads_of_hits (idps : List String) :
    Event.lookups (idps.map fun idp => .note (.hit idp)) = [] ∧
      Event.enumerations (idps.map fun idp => .note (.hit idp)) = [] := by
  constructor
  · exact List.filterMap_eq_nil_iff.2 fun event hevent => by
      obtain ⟨idp, _, rfl⟩ := List.mem_map.1 hevent
      rfl
  · exact List.filterMap_eq_nil_iff.2 fun event hevent => by
      obtain ⟨idp, _, rfl⟩ := List.mem_map.1 hevent
      rfl

end Enroller
end Enrolment
