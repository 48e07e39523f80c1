import Enrolment.Proofs.Enroller.CachedIdps
import Enrolment.Proofs.Enroller.Questions

/-!
The counters of a cache over a run.

Every look-up is a hit or a miss, and a miss makes an entry unless the IDP is not mapped.  So two
sums stay in balance over every question: the hits and misses against the look-ups made, and the
misses against the entries and the look-ups of IDPs that are not mapped.
-/

namespace Enrolment

/-! ## What is counted -/

namespace Call

def forGroups : Call → Bool
  | .groups .. => true
  | _ => false

def forUnmapped (m : Standing) : Call → Bool
  | .groups idp _ => !m.hasIdp idp
  | _ => false

def forIdps : Call → Bool
  | .idpsGranting _ => true
  | _ => false

end Call

namespace Enroller

theorem counters_standingSet (n : Enroller) (s : Store) (idp : String) (c : Cache) :
    let d := (n.standingSet s idp c).value.2
    d.hits + d.misses = c.hits + c.misses + 1 ∧
      d.misses + c.size =
        c.misses + d.size + if c.contains idp || n.standing.hasIdp idp then 0 else 1 := by
  intro d
  have hd : d = (n.standingSet s idp c).value.2 := rfl
  have hcontains := c.contains_eq_isSome idp
  rcases n.standingSet_cases s idp c with
    ⟨set, hset, heq⟩ | ⟨hnone, hm, heq⟩ | ⟨hnone, hm, heq⟩
  · have hhit : d = { c with hits := c.hits + 1 } := by rw [hd, heq]
    have hsize : d.size = c.size := by rw [hhit]; rfl
    rw [hcontains, hset, Option.isSome_some, Bool.true_or, if_pos rfl, hsize, hhit]
    constructor
    · show c.hits + 1 + c.misses = _
      omega
    · rfl
  · have hnew : d = { c with
        sets := c.sets.insert idp (n.vetted s idp), misses := c.misses + 1 } := by
      rw [hd, heq]
    have hsize : d.size = c.size + 1 := by
      rw [hnew]
      exact Table.size_insert (Table.get?_eq_none_iff.1 hnone) _
    rw [hm, Bool.or_true, if_pos rfl, hsize, hnew]
    constructor
    · show c.hits + (c.misses + 1) = _
      omega
    · show c.misses + 1 + c.size = _
      omega
  · have hmiss : d = { c with misses := c.misses + 1 } := by rw [hd, heq]
    have hsize : d.size = c.size := by rw [hmiss]; rfl
    rw [hcontains, hnone, hm, Option.isSome_none, Bool.or_self, if_neg Bool.false_ne_true, hsize,
      hmiss]
    constructor
    · show c.hits + (c.misses + 1) = _
      omega
    · show c.misses + 1 + c.size = _
      omega

theorem counters_standingSets (n : Enroller) (s : Store) (idps : List String) (c : Cache)
    (h : ∀ idp ∈ idps, n.standing.hasIdp idp = true) :
    let d := (n.standingSets s idps c).value.2
    d.hits + d.misses = c.hits + c.misses + idps.length ∧
      d.misses + c.size = c.misses + d.size := by
  induction idps generalizing c with
  | nil => exact ⟨rfl, rfl⟩
  | cons idp idps ih =>
    intro d
    have hmapped : (c.contains idp || n.standing.hasIdp idp) = true := by
      rw [h idp List.mem_cons_self, Bool.or_true]
    obtain ⟨hlooked, hmissed⟩ := n.counters_standingSet s idp c
    obtain ⟨hlooked', hmissed'⟩ :=
      ih (n.standingSet s idp c).value.2 fun other ho => h other (List.mem_cons_of_mem _ ho)
    rw [if_pos hmapped] at hmissed
    have hd : d = (n.standingSets s idps (n.standingSet s idp c).value.2).value.2 := rfl
    rw [hd, List.length_cons]
    constructor
    · omega
    · omega

/-- What one call adds to the counters, over a cache of mapped IDPs only. -/
theorem counters_perform (n : Enroller) (w : World) (c : Cache) (call : Call)
    (h : c.sets.keys ⊆ n.standing.idps) :
    let d := (n.perform w c call).value.2
    d.hits + d.misses = c.hits + c.misses + (if call.forGroups then 1 else 0) +
        n.standing.size * (if call.forIdps then 1 else 0) ∧
      d.misses + c.size =
        c.misses + d.size + if call.forUnmapped n.standing then 1 else 0 := by
  cases call with
  | groups idp e =>
    have hcontained : (c.contains idp || n.standing.hasIdp idp) = n.standing.hasIdp idp := by
      cases hc : c.contains idp with
      | false => rw [Bool.false_or]
      | true => rw [Standing.mem_idps_iff.1 (h (Cache.contains_iff.1 hc)), Bool.or_true]
    obtain ⟨hlooked, hmissed⟩ := n.counters_standingSet w.store idp c
    rw [hcontained] at hmissed
    rw [(n.perform_groups w c idp e).1]
    refine ⟨hlooked, hmissed.trans ?_⟩
    rw [Call.forUnmapped]
    cases n.standing.hasIdp idp <;> rfl
  | isMember idp group e => exact ⟨rfl, rfl⟩
  | members group => exact ⟨rfl, rfl⟩
  | idpsGranting p =>
    obtain ⟨hlooked, hmissed⟩ := n.counters_standingSets w.store n.standing.idps c
      fun idp hidp => Standing.mem_idps_iff.1 hidp
    have hlength : n.standing.idps.length = n.standing.size := Table.length_keys _
    rw [hlength] at hlooked
    rw [(n.perform_idpsGranting w c p).1]
    constructor
    · show _ = c.hits + c.misses + 0 + n.standing.size * 1
      omega
    · exact hmissed

theorem keys_perform_subset {n : Enroller} {c : Cache} (h : c.sets.keys ⊆ n.standing.idps)
    (w : World) (call : Call) :
    (n.perform w c call).value.2.sets.keys ⊆ n.standing.idps := by
  intro idp hidp
  rw [← Cache.contains_iff, contains_perform, Bool.or_eq_true, Bool.and_eq_true] at hidp
  rcases hidp with hold | ⟨_, hm⟩
  · exact h (Cache.contains_iff.1 hold)
  · exact Standing.mem_idps_iff.2 hm

theorem counters_run (n : Enroller) (calls : List (World × Call)) (c : Cache)
    (h : c.sets.keys ⊆ n.standing.idps) :
    let d := (n.run calls c).value.2
    d.hits + d.misses = c.hits + c.misses + calls.countP (·.2.forGroups) +
        n.standing.size * calls.countP (·.2.forIdps) ∧
      d.misses + c.size = c.misses + d.size + calls.countP (·.2.forUnmapped n.standing) := by
  induction calls generalizing c with
  | nil => exact ⟨rfl, rfl⟩
  | cons x calls ih =>
    obtain ⟨w, call⟩ := x
    intro d
    have hd : d = (n.run calls (n.perform w c call).value.2).value.2 := rfl
    obtain ⟨hlooked, hmissed⟩ := n.counters_perform w c call h
    obtain ⟨hlooked', hmissed'⟩ := ih _ (keys_perform_subset h w call)
    rw [hd, List.countP_cons, List.countP_cons, List.countP_cons, Nat.mul_add]
    dsimp only
    constructor
    · omega
    · omega

end Enroller
end Enrolment
