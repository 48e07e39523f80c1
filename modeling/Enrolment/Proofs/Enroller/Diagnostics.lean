import Enrolment.Proofs.Enroller.Collapse
import Enrolment.Proofs.Enroller.Questions
import Enrolment.Proofs.Registry

/-!
What a question for the groups of an entity notes.

Vetting drops an id for the first of four reasons that applies, and each reason has a notice of its
own (`Store.Examined`): a warning where an administrator can mend something, and a notice of a lower
level where a look-up failed.  The standing groups of an IDP are vetted when they are first used,
and what a provider reports at every call.
-/

namespace Enrolment

/-- A note as it is shown. -/
structure Notice where
  level : Diagnostic.Level
  message : String
  fields : List (String × String)
  deriving DecidableEq

def Diagnostic.notice (d : Diagnostic) : Notice := ⟨d.level, d.message, d.fields⟩

/-- The notices of a trace, in order. -/
def Event.notices (events : List Event) : List Notice :=
  (Event.notes events).map Diagnostic.notice

theorem Event.notices_append (xs ys : List Event) :
    Event.notices (xs ++ ys) = Event.notices xs ++ Event.notices ys := by
  unfold Event.notices
  rw [Event.notes_append, List.map_append]

theorem GroupSet.length_names (set : GroupSet) : set.names.length = set.size := by
  unfold names toList
  rw [List.length_map, List.length_map]
  rfl

namespace Store

/-- The notices of vetting one id.  There is one for an id that is dropped, and none for an id that
denotes a group. -/
inductive Examined (s : Store) (id : String) : List Notice → Prop
  | unreadable {fault : StoreFault} : s.lookup id = .error fault →
      Examined s id [⟨.debug, "Failed to retrieve auto-membership group",
        [("group_id", id), ("error", fault.message)]⟩]
  | missing : s.lookup id = .ok none →
      Examined s id [⟨.warn, "Configured auto-membership group does not exist, ignoring",
        [("group_id", id)]⟩]
  | notGroup {e : Entity} : s.lookup id = .ok (some e) → s.policy.isGroup e = false →
      Examined s id [⟨.warn, "Configured auto-membership group is not a group, ignoring",
        [("group_id", id)]⟩]
  | notGroupPrincipal {e : Entity} : s.lookup id = .ok (some e) → s.policy.isGroup e = true →
      s.policy.isGroupPrincipal e.principal = false →
      Examined s id [⟨.warn, "Principal of auto-membership group is not of group type, ignoring",
        [("group_id", id), ("principal", e.principal.name)]⟩]
  | accepted {e : Entity} : s.lookup id = .ok (some e) → s.policy.isGroup e = true →
      s.policy.isGroupPrincipal e.principal = true → Examined s id []

theorem notices_vet (s : Store) (id : String) :
    Event.notices (s.vet id).events = (((s.judge id).note? id).map Diagnostic.notice).toList := by
  rw [events_vet]
  cases (s.judge id).note? id <;> rfl

theorem examined (s : Store) (id : String) :
    s.Examined id (Event.notices (s.vet id).events) := by
  rw [notices_vet, judge_eq]
  cases hlookup : s.lookup id with
  | error fault => exact .unreadable hlookup
  | ok found =>
    cases found with
    | none => exact .missing hlookup
    | some e =>
      by_cases hgroup : s.policy.isGroup e = true
      · by_cases hprincipal : s.policy.isGroupPrincipal e.principal = true
        · simp only [Policy.verdict, hgroup, hprincipal, if_true]
          exact .accepted hlookup hgroup hprincipal
        · simp only [Policy.verdict, hgroup, hprincipal, if_true, Bool.false_eq_true, if_false]
          exact .notGroupPrincipal hlookup hgroup (Bool.eq_false_iff.2 hprincipal)
      · simp only [Policy.verdict, hgroup, Bool.false_eq_true, if_false]
        exact .notGroup hlookup (Bool.eq_false_iff.2 hgroup)

/-- The notices of vetting a list, one part for each position of it. -/
theorem notices_vetAll (s : Store) (ids : List String) :
    ∃ parts, List.Forall₂ s.Examined ids parts ∧
      Event.notices (s.vetAll ids).events = parts.flatten := by
  induction ids with
  | nil => exact ⟨[], .nil, rfl⟩
  | cons id ids ih =>
    obtain ⟨parts, hparts, hnotices⟩ := ih
    refine ⟨Event.notices (s.vet id).events :: parts, .cons (s.examined id) hparts, ?_⟩
    rw [events_vetAll_cons, Event.notices_append, hnotices, List.flatten_cons]

end Store

namespace Enroller

/-- The notices of vetting what the provider of an IDP reports for an entity, in whatever order the
ids are vetted. -/
inductive Reported (n : Enroller) (w : World) (idp : String) (e : Entity) : List Notice → Prop
  | unregistered : n.registry.has idp = false → Reported n w idp e []
  | failed {p : Provider} {fault : ProviderFault} : (idp, p) ∈ n.registry.providers →
      p.groupsOf w e = .error fault → Reported n w idp e []
  | answered {p : Provider} {ids : IdSet} {parts : List (List Notice)} {notices : List Notice} :
      (idp, p) ∈ n.registry.providers → p.groupsOf w e = .ok ids →
      List.Forall₂ w.store.Examined ids.ids parts → notices.Perm parts.flatten →
      Reported n w idp e notices

variable (n : Enroller)

theorem reported_providerEvents (w : World) (idp : String) (e : Entity) :
    n.Reported w idp e (Event.notices (n.providerEvents w idp e)) := by
  cases hp : n.registry.get? idp with
  | none =>
    rw [providerEvents_of_none hp]
    apply Reported.unregistered
    rw [← Registry.isSome_get?, hp]
    rfl
  | some p =>
    have hrow := Registry.get?_eq_some_iff.1 hp
    rw [providerEvents_of_some hp]
    cases hids : p.groupsOf w e with
    | error fault => exact .failed hrow hids
    | ok ids =>
      obtain ⟨parts, hparts, hnotices⟩ := w.store.notices_vetAll ids.ids
      exact .answered hrow hids hparts (.of_eq hnotices)

/-- At the first use of a mapped IDP, the notices tell about each of its ids, and then how many
there were and under how many names they were kept. -/
theorem notices_standingSet_first {s : Store} {idp : String} {c : Cache}
    (hm : n.standing.hasIdp idp = true) (hc : c.contains idp = false) :
    ∃ parts, List.Forall₂ s.Examined (n.standing.groupIds idp) parts ∧
      Event.notices (n.standingSet s idp c).events = parts.flatten ++
        [⟨.debug, "Populated auto-membership cache entry",
          [("idp_name", idp), ("configured", Nat.repr (n.standing.groupIds idp).length),
            ("verified", Nat.repr (n.vetted s idp).names.length)]⟩] := by
  obtain ⟨parts, hparts, hnotices⟩ := s.notices_vetAll (n.standing.groupIds idp)
  refine ⟨parts, hparts, ?_⟩
  rw [c.contains_eq_isSome] at hc
  rcases n.standingSet_cases s idp c with ⟨set, hset, _⟩ | ⟨_, _, heq⟩ | ⟨_, hunmapped, _⟩
  · rw [hset] at hc
    cases hc
  · rw [heq, Event.notices_append, hnotices, GroupSet.length_names]
    rfl
  · rw [hm] at hunmapped
    cases hunmapped

theorem notices_standingSet_cached {idp : String} {c : Cache} (hc : c.contains idp = true)
    (s : Store) : Event.notices (n.standingSet s idp c).events =
      [⟨.trace, "Auto-membership cache hit", [("idp_name", idp)]⟩] := by
  rw [c.contains_eq_isSome] at hc
  rcases n.standingSet_cases s idp c with ⟨_, _, heq⟩ | ⟨hnone, _, _⟩ | ⟨hnone, _, _⟩
  · rw [heq]
    rfl
  · rw [hnone] at hc
    cases hc
  · rw [hnone] at hc
    cases hc

theorem notices_standingSet_unmapped {idp : String} {c : Cache}
    (hm : n.standing.hasIdp idp = false) (hc : c.contains idp = false) (s : Store) :
    Event.notices (n.standingSet s idp c).events = [] := by
  rw [c.contains_eq_isSome] at hc
  rcases n.standingSet_cases s idp c with ⟨set, hset, _⟩ | ⟨_, hmapped, _⟩ | ⟨_, _, heq⟩
  · rw [hset] at hc
    cases hc
  · rw [hm] at hmapped
    cases hmapped
  · rw [heq]
    rfl

/-- The names under which the ids of an IDP are kept are those of the groups that they denote. -/
theorem mem_names_vetted {s : Store} {idp name : String} :
    name ∈ (n.vetted s idp).names ↔ ∃ id ∈ n.standing.groupIds idp, s.Denotes id name := by
  rw [GroupSet.mem_names, vetted, GroupSet.hasName_ofList, Store.exists_name_vetAll]

end Enroller
end Enrolment
