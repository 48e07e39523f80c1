import Enrolment.Proofs.Enroller.Members
import Enrolment.Session.Script

/-!
Browsing the members of a group: what a script that only takes next items reports, and that it
leaves the session as it was.
-/

namespace Enrolment
namespace Session

/-- The answer to taking the next item. -/
def ofItem? : Option Item → Answer
  | some item => .item item
  | none => .nothing

theorem actAll_replicate_next (s : Session) (c : Cursor) (k : Nat) :
    s.actAll (some c) (List.replicate k .next) =
      ((Cursor.advances s.world k c).map fun x => report (ofItem? x.value) x.events, s) := by
  induction k generalizing c with
  | zero => rfl
  | succ k ih =>
    rw [List.replicate_succ, actAll, act]
    simp only [ih]
    rfl

/-- Browsing takes `k` items: the first of what the providers have, one contribution after the
other, and then nothing.  A provider is called when all before it has been taken and one more item
is wanted: none if `k` is zero, all if there are fewer than `k` items, and else those up to the one
that has the last item taken.  Nothing in the session changes, no cache and no counter. -/
theorem browse_members (s : Session) (cursor? : Option Cursor) {on cell : Nat} {n : Enroller}
    (hon : s.enrollers[on]? = some (n, cell)) (group : Entity) (k : Nat) :
    ∃ advances : List (Traced (Option Item)),
      let parts := n.registry.providers.map (·.2.contribution s.world group)
      let events := advances.flatMap Traced.events
      s.act cursor? (.browse on group (List.replicate k .next)) =
          (.script (advances.map fun x => report (ofItem? x.value) x.events), cursor?, s) ∧
        advances.map Traced.value =
          (parts.flatten.take k).map some ++ List.replicate (k - parts.flatten.length) none ∧
        (k = 0 → Event.calls events = []) ∧
        (0 < k → k ≤ parts.flatten.length → ∃ m < parts.length,
          (parts.take m).flatten.length < k ∧ k ≤ (parts.take (m + 1)).flatten.length ∧
            Event.calls events = (n.registry.names.take (m + 1)).map (·, .reverse)) ∧
        (parts.flatten.length < k →
          Event.calls events = n.registry.names.map (·, .reverse)) ∧
        Event.lookups events = [] := by
  refine ⟨Cursor.advances s.world k (n.members group), ?_⟩
  intro parts events
  have howed : (n.members group).owed s.world = parts.flatten := by
    show [] ++ n.registry.providers.flatMap _ = _
    rw [List.nil_append, List.flatMap_def]
    rfl
  obtain ⟨hcalls, hlookups⟩ := Cursor.flatMap_ask_events s.world group
    (n.registry.providers.take (Cursor.reach 0 k parts))
  have hevents : events = (n.registry.providers.take (Cursor.reach 0 k parts)).flatMap
      fun row => (Cursor.ask s.world group row).events :=
    Cursor.events_advances s.world k (n.members group)
  have hnames : Event.calls events =
      (n.registry.names.take (Cursor.reach 0 k parts)).map (·, .reverse) := by
    rw [hevents, hcalls, Registry.names, ← List.map_take, List.map_map]
    rfl
  have hlength : parts.length = n.registry.names.length := by
    rw [List.length_map, Registry.names, List.length_map]
  refine ⟨?_, ?_, ?_, ?_, ?_, ?_⟩
  · simp only [act, hon, actAll_replicate_next]
  · rw [Cursor.map_value_advances, howed]
  · intro hk
    rw [hnames, Cursor.reach_of_le (Nat.le_of_eq hk)]
    rfl
  · intro hpos hk
    obtain ⟨m, hm, hlo, hhi⟩ := Cursor.exists_part hpos
      (Nat.le_trans hk (Nat.le_add_left ..))
    rw [Nat.zero_add] at hlo hhi
    refine ⟨m, hm, hlo, hhi, ?_⟩
    rw [hnames, Cursor.reach_eq_succ hm (by omega) (by omega)]
  · intro hk
    rw [hnames, Cursor.reach_of_lt (by omega), hlength, List.take_length]
  · rw [hevents, hlookups]

/-- An enroller over two providers with one member each. -/
def paired : Session :=
  let single (e : Entity) : Source := ⟨fun _ => .ok Table.empty, fun _ => .ok [.ok e]⟩
  [.registry (.register "ldap" (.outside (single (Entity.user "alice")))),
    .registry (.register "saml" (.outside (single (Entity.user "bob")))),
    .enroller (.create none)].foldl (fun s x => (s.step x).value.2) (start Policy.byKind [])

/-- The end of the first contribution does not call the second provider. -/
theorem browse_members_first :
    paired.enrollers[0]? = some (⟨paired.standing, paired.registry⟩, 0) ∧
      ∃ advances : List (Traced (Option Item)),
        paired.act none (.browse 0 (Entity.group "staff") [.next]) =
            (.script (advances.map fun x => report (ofItem? x.value) x.events), none, paired) ∧
          advances.map Traced.value = [some (.ok (Entity.user "alice"))] ∧
          Event.calls (advances.flatMap Traced.events) = [("ldap", .reverse)] := by
  have hon : paired.enrollers[0]? = some (⟨paired.standing, paired.registry⟩, 0) := rfl
  refine ⟨hon, ?_⟩
  obtain ⟨advances, hact, hvalues, -, hcalls, -⟩ :=
    browse_members paired none hon (Entity.group "staff") 1
  obtain ⟨m, hm, hlo, -, hcalls⟩ := hcalls Nat.one_pos (by decide)
  have hzero : m = 0 := by
    match m, hm, hlo with
    | 0, _, _ => rfl
    | 1, _, hlo => exact absurd hlo (by decide)
  subst hzero
  exact ⟨advances, hact, hvalues, hcalls⟩

end Session
end Enrolment
