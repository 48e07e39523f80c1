import Enrolment.Proofs.Enroller.PointMembership

/-!
What a failed look-up leaves behind.

The standing groups of an IDP are kept as they were vetted at the first use, also if look-ups failed
then.  `groups_undisturbed_iff` says when this shows: the groups of an entity are those of a run
without failures exactly if no group's name was lost at the first use.  A name is lost if none of
the configured ids that denote a group of this name could be read.
-/

namespace Enrolment

/-- The world with its failing look-ups repaired. -/
def World.calm (w : World) : World :=
  { w with store := { w.store with
    outages := { w.store.outages with ids := Table.empty, otherIds := none } } }

namespace Store

theorem judge_of_failed {s : Store} {id : String} {fault : StoreFault}
    (h : s.outages.onLookup id = some fault) : s.judge id = .unreadable fault := by
  rw [judge_eq, lookup, h]
  rfl

theorem judge_congr {s t : Store} {id : String} (hd : s.directory = t.directory)
    (hp : s.policy = t.policy) (hs : s.outages.onLookup id = none)
    (ht : t.outages.onLookup id = none) : s.judge id = t.judge id := by
  rw [judge_eq, judge_eq, lookup, lookup, hs, ht, hd, hp]

theorem kind_of_accepted {s : Store} (hp : s.policy = Policy.byKind) {id : String} {p : Principal}
    (h : s.judge id = .accepted p) : p.kind = .group := by
  rw [judge_eq] at h
  unfold Policy.verdict at h
  split at h
  · cases h
  · cases h
  · next e _ =>
    split at h
    · split at h
      · next hkind =>
        rw [hp] at hkind
        rw [← Verdict.accepted.inj h]
        exact beq_iff_eq.1 hkind
      · cases h
    · cases h

end Store

namespace GroupSet

theorem ext_hasName {s t : GroupSet} (hs : ∀ p ∈ s.toList, p.kind = .group)
    (ht : ∀ p ∈ t.toList, p.kind = .group)
    (h : ∀ name, s.hasName name = true ↔ t.hasName name = true) : s = t := by
  have hfind : ∀ {u : GroupSet}, (∀ p ∈ u.toList, p.kind = .group) → ∀ {name p},
      u.find? name = some p → p = ⟨name, .group⟩ := by
    intro u hu name p hp
    obtain rfl := name_of_find? hp
    rw [← hu p (mem_toList.2 hp)]
  refine ext_find? fun name => ?_
  cases hp : s.find? name with
  | none =>
    cases hq : t.find? name with
    | none => rfl
    | some q =>
      obtain ⟨p, hp'⟩ := hasName_iff.1 ((h name).2 (hasName_iff.2 ⟨q, hq⟩))
      rw [hp] at hp'
      cases hp'
  | some p =>
    obtain ⟨q, hq⟩ := hasName_iff.1 ((h name).1 (hasName_iff.2 ⟨p, hp⟩))
    rw [hq, hfind hs hp, hfind ht hq]

end GroupSet

namespace Enroller

theorem hasName_vetted {n : Enroller} {s : Store} {idp name : String} :
    (n.vetted s idp).hasName name = true ↔
      ∃ id ∈ n.standing.groupIds idp, ∃ p, s.judge id = .accepted p ∧ p.name = name := by
  rw [vetted, GroupSet.hasName_ofList]
  constructor
  · rintro ⟨p, hp, hname⟩
    obtain ⟨id, hid, hjudge⟩ := mem_vetAll.1 hp
    exact ⟨id, hid, p, hjudge, hname⟩
  · rintro ⟨id, hid, p, hjudge, hname⟩
    exact ⟨p, mem_vetAll.2 ⟨id, hid, hjudge⟩, hname⟩

theorem kind_of_mem_vetted {n : Enroller} {s : Store} (hs : s.policy = Policy.byKind)
    {idp : String} {p : Principal} (h : p ∈ (n.vetted s idp).toList) : p.kind = .group := by
  obtain ⟨id, _, hjudge⟩ := mem_vetAll.1 (GroupSet.mem_of_mem_toList_ofList h)
  exact Store.kind_of_accepted hs hjudge

/-- No name of a configured group is lost to the failures of a store: whatever id cannot be read,
another id of a group of this name can. -/
def KeepsNames (n : Enroller) (idp : String) (failing calm : Store) : Prop :=
  ∀ id ∈ n.standing.groupIds idp, failing.outages.onLookup id ≠ none →
    ∀ p, calm.judge id = .accepted p →
      ∃ other ∈ n.standing.groupIds idp, failing.outages.onLookup other = none ∧
        ∃ q, calm.judge other = .accepted q ∧ q.name = p.name

theorem vetted_eq_iff {n : Enroller} {idp : String} {s t : Store}
    (hd : s.directory = t.directory) (hs : s.policy = Policy.byKind)
    (ht : t.policy = Policy.byKind) (hcalm : ∀ id, t.outages.onLookup id = none) :
    n.vetted s idp = n.vetted t idp ↔ n.KeepsNames idp s t := by
  have hread : ∀ {id}, s.outages.onLookup id = none → s.judge id = t.judge id := fun h =>
    Store.judge_congr hd (hs.trans ht.symm) h (hcalm _)
  have hreadable : ∀ {id p}, s.judge id = .accepted p → s.outages.onLookup id = none := by
    intro id p hjudge
    cases ho : s.outages.onLookup id with
    | none => rfl
    | some fault =>
      rw [Store.judge_of_failed ho] at hjudge
      cases hjudge
  constructor
  · intro heq id hid _ p hp
    have hname : (n.vetted t idp).hasName p.name = true :=
      hasName_vetted.2 ⟨id, hid, p, hp, rfl⟩
    rw [← heq] at hname
    obtain ⟨other, hother, q, hq, hqp⟩ := hasName_vetted.1 hname
    exact ⟨other, hother, hreadable hq, q, (hread (hreadable hq)).symm.trans hq, hqp⟩
  · intro hkeeps
    refine GroupSet.ext_hasName (fun _ => kind_of_mem_vetted hs) (fun _ => kind_of_mem_vetted ht)
      fun name => ?_
    rw [hasName_vetted, hasName_vetted]
    constructor
    · rintro ⟨id, hid, p, hp, hname⟩
      exact ⟨id, hid, p, (hread (hreadable hp)).symm.trans hp, hname⟩
    · rintro ⟨id, hid, p, hp, hname⟩
      -- An id that could not be read is replaced by one that could, of the same name.
      by_cases ho : s.outages.onLookup id = none
      · exact ⟨id, hid, p, (hread ho).trans hp, hname⟩
      · obtain ⟨other, hother, hcan, q, hq, hqp⟩ := hkeeps id hid ho p hp
        exact ⟨other, hother, q, (hread hcan).trans hq, hqp.trans hname⟩

theorem firstUse?_calm (past : List (World × Call)) (idp : String) :
    firstUse? (past.map fun x => (x.1.calm, x.2)) idp = (firstUse? past idp).map World.calm := by
  rw [firstUse?, firstUse?, List.find?_map, Option.map_map, Option.map_map]
  rfl

/-- While the entities stay and look-ups may fail, the groups of an entity, asked for when no
look-up fails, are those of the run without failures exactly if no name was lost to the failures at
the first use of the IDP. -/
theorem groups_undisturbed_iff (n : Enroller) (past : List (World × Call)) (w : World)
    (idp : String) (e : Entity) (hprovider : n.registry.get? idp = none)
    (hpast : ∀ x ∈ past, x.1.store.directory = w.store.directory ∧
      x.1.store.policy = Policy.byKind)
    (hpolicy : w.store.policy = Policy.byKind)
    (hcalm : ∀ id, w.store.outages.onLookup id = none) :
    (n.groups w idp e (n.run past Cache.empty).value.2).value.1 =
        (n.groups w idp e
          (n.run (past.map fun x => (x.1.calm, x.2)) Cache.empty).value.2).value.1 ↔
      ∀ first, firstUse? past idp = some first → n.KeepsNames idp first.store w.store := by
  rw [groups_of_no_provider hprovider, groups_of_no_provider hprovider, Except.ok.injEq,
    standingOver_run, standingOver_run, firstUse?_calm]
  cases hfirst : firstUse? past idp with
  | none => exact iff_of_true rfl fun _ h => by cases h
  | some first =>
    obtain ⟨call, hmem⟩ := mem_of_firstUse? hfirst
    obtain ⟨hd, hp⟩ := hpast _ hmem
    have hdirectory : first.calm.store.directory = w.store.directory := hd
    have hundisturbed : n.vetted first.calm.store idp = n.vetted w.store idp :=
      vetted_congr n
        (fun id => Store.judge_congr hdirectory (hp.trans hpolicy.symm) rfl (hcalm id)) idp
    show n.vetted first.store idp = n.vetted first.calm.store idp ↔ _
    rw [hundisturbed, vetted_eq_iff hd hp hpolicy hcalm]
    constructor
    · intro h other hother
      rw [← Option.some.inj hother]
      exact h
    · exact fun h => h first rfl

/-- The one group of the store cannot be read. -/
def outage : World :=
  let w := World.oneGroup "staff"
  { w with store := { w.store with
    outages := Outages.none.setId "staff" (some (.unavailable "down")) } }

/-- An outage after the first use does no harm. -/
theorem groups_undisturbed_by_late_outage :
    ((Enroller.oneGroup "ldap" "staff").groups (World.oneGroup "staff") "ldap" (Entity.user "alice")
        ((Enroller.oneGroup "ldap" "staff").run
          [(World.oneGroup "staff", .groups "ldap" (Entity.user "alice")),
            (outage, .idpsGranting ⟨"staff", .group⟩)] Cache.empty).value.2).value.1 =
      ((Enroller.oneGroup "ldap" "staff").groups (World.oneGroup "staff") "ldap"
        (Entity.user "alice")
        ((Enroller.oneGroup "ldap" "staff").run
          [((World.oneGroup "staff").calm, .groups "ldap" (Entity.user "alice")),
            (outage.calm, .idpsGranting ⟨"staff", .group⟩)] Cache.empty).value.2).value.1 := by
  refine (groups_undisturbed_iff _ [(World.oneGroup "staff", .groups "ldap" (Entity.user "alice")),
    (outage, .idpsGranting ⟨"staff", .group⟩)] _ _ _ rfl ?_ rfl fun _ => rfl).2 ?_
  · intro x hx
    simp only [List.mem_cons, List.not_mem_nil, or_false] at hx
    rcases hx with rfl | rfl <;> exact ⟨rfl, rfl⟩
  · intro first hfirst id _ hout
    rw [← Option.some.inj hfirst] at hout
    exact absurd rfl hout

/-- An outage at the first use stays after it is over: the groups found later are not those of the
run without failures. -/
theorem groups_disturbed_by_outage_at_first_use :
    ¬ ∀ (n : Enroller) (past : List (World × Call)) (w : World) (idp : String) (e : Entity),
      n.registry.get? idp = none →
      (∀ x ∈ past, x.1.store.directory = w.store.directory ∧
        x.1.store.policy = Policy.byKind) →
      w.store.policy = Policy.byKind → (∀ id, w.store.outages.onLookup id = none) →
      (n.groups w idp e (n.run past Cache.empty).value.2).value.1 =
        (n.groups w idp e
          (n.run (past.map fun x => (x.1.calm, x.2)) Cache.empty).value.2).value.1 := by
  intro h
  have heq := h (Enroller.oneGroup "ldap" "staff")
    [(outage, .groups "ldap" (Entity.user "alice"))] (World.oneGroup "staff") "ldap"
    (Entity.user "alice") rfl
    (fun x hx => by rw [List.mem_singleton.1 hx]; exact ⟨rfl, rfl⟩) rfl fun _ => rfl
  have hlost : (Except.ok GroupSet.empty : Except ProviderFault GroupSet) =
      .ok (GroupSet.ofList [⟨"staff", .group⟩]) := heq
  exact absurd (Except.ok.inj hlost) (by decide)

end Enroller
end Enrolment
