import Enrolment.Proofs.Enroller.Reference
import Enrolment.Proofs.GroupSet

/-!
Point membership against the groups of an entity.

An enroller tells whether an entity is in one group by ids alone, without vetting and without the
cache, and finds the groups of an entity by vetting ids.  The theorem of this file,
`groups_agree_isMember`, ties the two together as long as the store judges the ids as it did when
the standing groups were vetted.
-/

namespace Enrolment
namespace Enroller

theorem mem_vetAll {s : Store} {ids : List String} {p : Principal} :
    p ∈ (s.vetAll ids).value ↔ ∃ id ∈ ids, s.judge id = .accepted p := by
  rw [Store.value_vetAll, List.mem_filterMap]
  constructor
  · rintro ⟨id, hid, hp⟩
    refine ⟨id, hid, ?_⟩
    cases hj : s.judge id with
    | accepted q =>
      rw [hj] at hp
      rw [Option.some.inj hp]
    | _ =>
      rw [hj] at hp
      cases hp
  · rintro ⟨id, hid, hj⟩
    exact ⟨id, hid, by rw [hj]; rfl⟩

/-- What the provider of an IDP reports for an entity; without a provider nothing is reported. -/
def reported (n : Enroller) (w : World) (idp : String) (e : Entity) : Except ProviderFault IdSet :=
  match n.registry.get? idp with
  | none => .ok Table.empty
  | some p => p.groupsOf w e

/-- The groups of an entity are the standing groups found and those reported that pass vetting. -/
theorem groups_eq_reported (n : Enroller) (w : World) (idp : String) (e : Entity) (c : Cache) :
    (n.groups w idp e c).value.1 = (n.reported w idp e).map fun ids =>
      (n.standingOver c w.store idp).insertAll (w.store.vetAll ids.ids).value := by
  have h := Reply.groups.inj (value_groups n w idp e c)
  rw [h, reported]
  cases n.registry.get? idp <;> rfl

theorem groups_of_no_provider {n : Enroller} {idp : String} (h : n.registry.get? idp = none)
    (w : World) (e : Entity) (c : Cache) :
    (n.groups w idp e c).value.1 = .ok (n.standingOver c w.store idp) := by
  rw [groups_eq_reported, reported, h]
  rfl

theorem groups_of_answer {n : Enroller} {idp : String} {p : Provider}
    (h : n.registry.get? idp = some p) (w : World) (e : Entity) (c : Cache) :
    (n.groups w idp e c).value.1 = (p.groupsOf w e).map fun ids =>
      (n.standingOver c w.store idp).insertAll (w.store.vetAll ids.ids).value := by
  rw [groups_eq_reported, reported, h]

theorem isMember_eq_reported (n : Enroller) (w : World) (idp group : String) (e : Entity) :
    (n.isMember w idp group e).value =
      if group ∈ n.standing.groupIds idp then .ok true
      else (n.reported w idp e).map (·.contains group) := by
  have hlisted : n.standing.hasGroup idp group = true ↔ group ∈ n.standing.groupIds idp :=
    List.contains_iff_mem
  rw [isMember, reported]
  by_cases hg : group ∈ n.standing.groupIds idp
  · rw [if_pos (hlisted.2 hg), if_pos hg]
    rfl
  · rw [if_neg (fun h => hg (hlisted.1 h)), if_neg hg]
    cases n.registry.get? idp <;> rfl

theorem isMember_iff (n : Enroller) (w : World) {idp : String} {e : Entity} {ids : IdSet}
    (h : n.reported w idp e = .ok ids) (group : String) :
    (n.isMember w idp group e).value = .ok true ↔
      group ∈ n.standing.groupIds idp ∨ group ∈ ids.ids := by
  rw [isMember_eq_reported, h]
  by_cases hg : group ∈ n.standing.groupIds idp
  · rw [if_pos hg]
    exact iff_of_true rfl (.inl hg)
  · rw [if_neg hg, or_iff_right hg]
    show Except.ok (ids.contains group) = .ok true ↔ _
    rw [Except.ok.injEq]
    exact Table.contains_iff_mem_keys

/-- In a state that a run has reached while the store judged every id as it does now, the groups of
an entity and its point memberships agree: a member's group, if it passes vetting, is among the
groups by name, and each of the groups is the principal of an id of which the entity is a member.
A fault of the provider is the answer to both questions, except for configured ids. -/
theorem groups_agree_isMember (n : Enroller) (past : List (World × Call)) (w : World)
    (idp : String) (e : Entity)
    (hsteady : ∀ x ∈ past, ∀ id, x.1.store.judge id = w.store.judge id) :
    (∀ ids, n.reported w idp e = .ok ids →
      ∃ set, (n.groups w idp e (n.run past Cache.empty).value.2).value.1 = .ok set ∧
        (∀ group p, (n.isMember w idp group e).value = .ok true →
          w.store.judge group = .accepted p → set.hasName p.name = true) ∧
        (∀ p ∈ set.toList, ∃ group, w.store.judge group = .accepted p ∧
          (n.isMember w idp group e).value = .ok true)) ∧
    (∀ fault, n.reported w idp e = .error fault →
      (n.groups w idp e (n.run past Cache.empty).value.2).value.1 = .error fault ∧
        ∀ group, (n.isMember w idp group e).value =
          if group ∈ n.standing.groupIds idp then .ok true else .error fault) := by
  have hfound : n.standingOver (n.run past Cache.empty).value.2 w.store idp =
      n.vetted w.store idp := by
    rw [standingOver_run]
    cases hfirst : firstUse? past idp with
    | none => rfl
    | some first =>
      obtain ⟨call, hmem⟩ := mem_of_firstUse? hfirst
      exact vetted_congr n (hsteady _ hmem) idp
  constructor
  · intro ids hids
    refine ⟨(n.vetted w.store idp).insertAll (w.store.vetAll ids.ids).value, ?_, ?_, ?_⟩
    · rw [groups_eq_reported, hids, hfound]
      rfl
    · intro group p hmember hjudge
      rw [GroupSet.hasName_insertAll, vetted, GroupSet.hasName_ofList]
      rcases (isMember_iff n w hids group).1 hmember with hg | hg
      · exact .inl ⟨p, mem_vetAll.2 ⟨group, hg, hjudge⟩, rfl⟩
      · exact .inr ⟨p, mem_vetAll.2 ⟨group, hg, hjudge⟩, rfl⟩
    · intro p hp
      rcases GroupSet.mem_of_mem_toList_insertAll hp with hp | hp
      · obtain ⟨group, hg, hjudge⟩ := mem_vetAll.1 (GroupSet.mem_of_mem_toList_ofList hp)
        exact ⟨group, hjudge, (isMember_iff n w hids group).2 (.inl hg)⟩
      · obtain ⟨group, hg, hjudge⟩ := mem_vetAll.1 hp
        exact ⟨group, hjudge, (isMember_iff n w hids group).2 (.inr hg)⟩
  · intro fault hfault
    constructor
    · rw [groups_eq_reported, hfault]
      rfl
    · intro group
      rw [isMember_eq_reported, hfault]
      rfl

def oneProvider (idp id : String) (h : Text.isBlank idp = false) : Enroller where
  standing := Standing.empty.assign idp [id]
  registry := Registry.empty.push idp (.outside 0) h rfl

/-- A world with one group, whose outside providers report it and an id that nothing bears. -/
def reporting : World :=
  { World.oneGroup "staff" with
    sources := fun _ => ⟨fun _ => .ok (IdSet.ofList ["guests", "staff"]), fun _ => .ok []⟩ }

/-- The provider reports an id that nothing bears: it counts for point membership alone. -/
theorem groups_agree_isMember_reporting :
    let n := oneProvider "ldap" "staff" rfl
    let past : List (World × Call) := [(reporting, .idpsGranting ⟨"staff", .group⟩)]
    (∀ x ∈ past, ∀ id, x.1.store.judge id = reporting.store.judge id) ∧
      ∃ set, (n.groups reporting "ldap" (Entity.user "alice")
          (n.run past Cache.empty).value.2).value.1 = .ok set ∧
        set.hasName "staff" = true ∧
        ∀ p ∈ set.toList, ∃ group, reporting.store.judge group = .accepted p ∧
          (n.isMember reporting "ldap" group (Entity.user "alice")).value = .ok true := by
  intro n past
  have hsteady : ∀ x ∈ past, ∀ id, x.1.store.judge id = reporting.store.judge id := by
    intro x hx id
    rw [List.mem_singleton.1 hx]
  obtain ⟨set, hset, hnames, hgroups⟩ :=
    (groups_agree_isMember n past reporting "ldap" (Entity.user "alice") hsteady).1 _ rfl
  exact ⟨hsteady, set, hset, hnames "staff" ⟨"staff", .group⟩ rfl rfl, hgroups⟩

end Enroller
end Enrolment
