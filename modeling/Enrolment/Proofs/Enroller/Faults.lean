import Enrolment.Proofs.Enroller.Effects
import Enrolment.Proofs.Enroller.PointMembership

/-!
Faults of providers in a question for the groups of an entity.
-/

namespace Enrolment

/-- What a provider reports depends on the store in no case. -/
theorem Provider.groupsOf_congr {w w' : World} (h : w.sources = w'.sources) (p : Provider)
    (e : Entity) : p.groupsOf w e = p.groupsOf w' e := by
  cases p with
  | outside source =>
    show (w.sources source).groupsOf e = (w'.sources source).groupsOf e
    rw [h]
  | _ => rfl

namespace Enroller

variable {n : Enroller} {w : World} {idp : String} {e : Entity} {c : Cache}

/-- The question fails with the fault of the provider registered under exactly this name, and for no
other reason. -/
theorem groups_eq_error_iff {fault : ProviderFault} :
    (n.groups w idp e c).value.1 = .error fault ↔
      ∃ p, (idp, p) ∈ n.registry.providers ∧ p.groupsOf w e = .error fault := by
  cases hp : n.registry.get? idp with
  | none =>
    rw [groups_of_no_provider hp]
    refine iff_of_false (fun h => by cases h) ?_
    rintro ⟨p, hrow, _⟩
    rw [Registry.get?_eq_some_iff.2 hrow] at hp
    cases hp
  | some p =>
    have hrow := Registry.get?_eq_some_iff.1 hp
    rw [groups_of_answer hp]
    constructor
    · intro h
      refine ⟨p, hrow, ?_⟩
      cases hr : p.groupsOf w e with
      | error other =>
        rw [hr] at h
        rw [Except.error.inj h]
      | ok ids =>
        rw [hr] at h
        cases h
    · rintro ⟨q, hq, hfault⟩
      have hqp : q = p := Option.some.inj ((Registry.get?_eq_some_iff.2 hq).symm.trans hp)
      rw [← hqp, hfault]
      rfl

theorem groups_of_row {p : Provider} (h : (idp, p) ∈ n.registry.providers) :
    (n.groups w idp e c).value.1 = (p.groupsOf w e).map fun ids =>
      (n.standingOver c w.store idp).insertAll (w.store.vetAll ids.ids).value :=
  groups_of_answer (Registry.get?_eq_some_iff.2 h) w e c

/-- A question looks up the configured ids unless the IDP has an entry, and then the reported
ids. -/
theorem lookups_groups :
    Event.lookups (n.perform w c (.groups idp e)).events =
      (if c.contains idp then [] else n.standing.groupIds idp) ++
        n.reportedIds w (.groups idp e) := by
  rw [(n.perform_groups w c idp e).2, Event.lookups_append, lookups_standingSet,
    lookups_providerEvents]

end Enroller
end Enrolment
