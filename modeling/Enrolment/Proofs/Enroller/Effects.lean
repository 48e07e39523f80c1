import Enrolment.Proofs.Enroller.CachedIdps
import Enrolment.Proofs.Enroller.Members
import Enrolment.Proofs.Enroller.Questions
import Enrolment.Proofs.Registry

/-!
What a run looks up in the store and which providers it calls.

The configured ids of an IDP are looked up when its entry is made and not again, so the look-ups of
a run and the configured ids of the IDPs cached before it make up the configured ids of those cached
after it and the ids that providers reported (`count_lookups_run`).  The calls of providers follow
from the calls to the enroller alone, whatever the cache and the world (`calls_run`).
-/

namespace Enrolment

namespace Store

theorem calls_vetAll (s : Store) (ids : List String) : Event.calls (s.vetAll ids).events = [] := by
  induction ids with
  | nil => rfl
  | cons id ids ih =>
    have hone : Event.calls (s.vet id).events = [] := by
      rw [events_vet, Event.calls, List.filterMap_cons]
      cases s.judge id <;> rfl
    rw [events_vetAll_cons, Event.calls_append, hone, ih]
    rfl

end Store

/-- The ids that a provider reports for an entity; none if it fails. -/
def Provider.idsFor (p : Provider) (w : World) (e : Entity) : List String :=
  match p.groupsOf w e with
  | .ok ids => ids.ids
  | .error _ => []

theorem Provider.idsFor_of_ok {p : Provider} {w : World} {e : Entity} {ids : IdSet}
    (h : p.groupsOf w e = .ok ids) : p.idsFor w e = ids.ids := by
  rw [idsFor, h]

theorem Provider.idsFor_of_error {p : Provider} {w : World} {e : Entity} {fault : ProviderFault}
    (h : p.groupsOf w e = .error fault) : p.idsFor w e = [] := by
  rw [idsFor, h]

namespace Enroller

/-- The configured ids of the IDPs that a cache has entries for. -/
def settled (n : Enroller) (c : Cache) : List String := c.sets.keys.flatMap n.standing.groupIds

/-- The ids reported to a call for the groups of an entity, by the provider registered under
exactly the name that the call gives. -/
def reportedIds (n : Enroller) (w : World) : Call → List String
  | .groups idp e => (n.registry.providers.filter (·.1 == idp)).flatMap (·.2.idsFor w e)
  | _ => []

/-- The calls of providers that a call makes, each under the name that it gives. -/
def callsFor (n : Enroller) : Call → List (String × Direction)
  | .groups idp _ => if n.registry.has idp then [(idp, .forward)] else []
  | .isMember idp group _ =>
    if n.registry.has idp && !n.standing.hasGroup idp group then [(idp, .forward)] else []
  | .members _ => n.registry.names.map (·, .reverse)
  | .idpsGranting _ => []

variable (n : Enroller)

/-! ## Look-ups -/

theorem lookups_standingSet (s : Store) (idp : String) (c : Cache) :
    Event.lookups (n.standingSet s idp c).events =
      if c.contains idp then [] else n.standing.groupIds idp := by
  have hcontains := c.contains_eq_isSome idp
  rcases n.standingSet_cases s idp c with ⟨set, hset, heq⟩ | ⟨hnone, _, heq⟩ | ⟨hnone, hm, heq⟩
  · rw [heq, hcontains, hset]
    rfl
  · rw [heq, hcontains, hnone]
    show Event.lookups ((s.vetAll (n.standing.groupIds idp)).events ++ _) = _
    rw [Event.lookups_append, Store.lookups_vetAll]
    exact List.append_nil _
  · rw [heq, hcontains, hnone, Standing.groupIds_of_unmapped hm]
    rfl

theorem count_lookups_standingSet (s : Store) (idp : String) (c : Cache) (id : String) :
    (Event.lookups (n.standingSet s idp c).events).count id + (n.settled c).count id =
      (n.settled (n.standingSet s idp c).value.2).count id := by
  have hlookups := n.lookups_standingSet s idp c
  have hcontains := c.contains_eq_isSome idp
  rcases n.standingSet_cases s idp c with ⟨set, _, heq⟩ | ⟨hnone, _, heq⟩ | ⟨_, _, heq⟩
  · rw [heq]
    exact Nat.zero_add _
  · rw [hcontains, hnone] at hlookups
    have hsettled : (n.settled (n.standingSet s idp c).value.2).Perm
        (n.standing.groupIds idp ++ n.settled c) := by
      rw [heq]
      exact (Table.keys_insert_perm (Table.get?_eq_none_iff.1 hnone) _).flatMap_right _
    rw [hlookups, hsettled.count_eq, List.count_append]
    rfl
  · rw [heq]
    exact Nat.zero_add _

theorem count_lookups_standingSets (s : Store) (idps : List String) (c : Cache) (id : String) :
    (Event.lookups (n.standingSets s idps c).events).count id + (n.settled c).count id =
      (n.settled (n.standingSets s idps c).value.2).count id := by
  induction idps generalizing c with
  | nil => exact Nat.zero_add _
  | cons idp idps ih =>
    have hvalue : (n.standingSets s (idp :: idps) c).value.2 =
        (n.standingSets s idps (n.standingSet s idp c).value.2).value.2 := rfl
    have hfirst := n.count_lookups_standingSet s idp c id
    have hrest := ih (n.standingSet s idp c).value.2
    rw [events_standingSets_cons, hvalue, Event.lookups_append, List.count_append]
    omega

theorem reportedIds_groups {n : Enroller} {idp : String} {p : Provider}
    (h : (idp, p) ∈ n.registry.providers) (w : World) (e : Entity) :
    n.reportedIds w (.groups idp e) = p.idsFor w e := by
  rw [reportedIds, Registry.under_eq, Registry.get?_eq_some_iff.2 h]
  exact List.append_nil _

theorem lookups_providerEvents (w : World) (idp : String) (e : Entity) :
    Event.lookups (n.providerEvents w idp e) = n.reportedIds w (.groups idp e) := by
  cases hp : n.registry.get? idp with
  | none =>
    rw [providerEvents_of_none hp, reportedIds, Registry.under_eq, hp]
    rfl
  | some p =>
    rw [providerEvents_of_some hp, reportedIds_groups (Registry.get?_eq_some_iff.1 hp)]
    cases hr : p.groupsOf w e with
    | error fault =>
      rw [Provider.idsFor_of_error hr]
      rfl
    | ok ids =>
      rw [Provider.idsFor_of_ok hr]
      exact Store.lookups_vetAll w.store ids.ids

theorem lookups_isMember (w : World) (idp group : String) (e : Entity) :
    Event.lookups (n.isMember w idp group e).events = [] := by
  rw [events_isMember]
  split <;> rfl

theorem lookups_members (w : World) (group : Entity) :
    Event.lookups ((n.members group).rest w).events = [] := by
  rw [Cursor.events_rest]
  exact (Cursor.flatMap_ask_events w group n.registry.providers).2

theorem lookups_idpsGranting (s : Store) (p : Principal) (c : Cache) :
    Event.lookups (n.idpsGranting s p c).events =
      Event.lookups (n.standingSets s n.standing.idps c).events := by
  rw [events_idpsGranting, Event.lookups_append]
  split <;> rfl

/-- One call looks up the configured ids of the IDPs for which it makes an entry, and the ids
reported to it. -/
theorem count_lookups_perform (w : World) (c : Cache) (call : Call) (id : String) :
    (Event.lookups (n.perform w c call).events).count id + (n.settled c).count id =
      (n.settled (n.perform w c call).value.2).count id + (n.reportedIds w call).count id := by
  cases call with
  | groups idp e =>
    obtain ⟨hcache, hevents⟩ := n.perform_groups w c idp e
    have hstanding := n.count_lookups_standingSet w.store idp c id
    rw [hcache, hevents, Event.lookups_append, List.count_append, lookups_providerEvents]
    omega
  | isMember idp group e =>
    obtain ⟨hcache, hevents⟩ := n.perform_isMember w c idp group e
    rw [hcache, hevents, lookups_isMember]
    exact Nat.zero_add _
  | members group =>
    obtain ⟨hcache, hevents⟩ := n.perform_members w c group
    rw [hcache, hevents, lookups_members]
    exact Nat.zero_add _
  | idpsGranting p =>
    obtain ⟨hcache, hevents⟩ := n.perform_idpsGranting w c p
    rw [hcache, hevents, lookups_idpsGranting]
    exact n.count_lookups_standingSets w.store n.standing.idps c id

theorem count_lookups_run (calls : List (World × Call)) (c : Cache) (id : String) :
    (Event.lookups (n.run calls c).events).count id + (n.settled c).count id =
      (n.settled (n.run calls c).value.2).count id +
        (calls.flatMap fun x => n.reportedIds x.1 x.2).count id := by
  induction calls generalizing c with
  | nil => exact Nat.add_comm ..
  | cons x calls ih =>
    obtain ⟨w, call⟩ := x
    have hvalue : (n.run ((w, call) :: calls) c).value.2 =
        (n.run calls (n.perform w c call).value.2).value.2 := rfl
    have hfirst := n.count_lookups_perform w c call id
    have hrest := ih (n.perform w c call).value.2
    rw [events_run_cons, hvalue, Event.lookups_append, List.count_append, List.flatMap_cons,
      List.count_append]
    dsimp only
    omega

/-- From an empty cache a run looks up the configured ids of each mapped IDP that it uses, once for
each time that they are listed, and the ids reported to its calls. -/
theorem lookups_run_perm (calls : List (World × Call)) :
    (Event.lookups (n.run calls Cache.empty).events).Perm
      ((n.standing.idps.filter (usedIn calls)).flatMap n.standing.groupIds ++
        calls.flatMap fun x => n.reportedIds x.1 x.2) := by
  refine List.perm_iff_count.2 fun id => ?_
  have hrun := n.count_lookups_run calls Cache.empty id
  have hsettled : (n.settled (n.run calls Cache.empty).value.2).Perm
      ((n.standing.idps.filter (usedIn calls)).flatMap n.standing.groupIds) :=
    (n.keys_run_perm calls).flatMap_right _
  have hempty : (n.settled Cache.empty).count id = 0 := rfl
  rw [List.count_append, ← hsettled.count_eq]
  omega

/-! ## Calls of providers -/

theorem calls_standingSet (s : Store) (idp : String) (c : Cache) :
    Event.calls (n.standingSet s idp c).events = [] := by
  rcases n.standingSet_cases s idp c with ⟨set, _, heq⟩ | ⟨_, _, heq⟩ | ⟨_, _, heq⟩
  · rw [heq]
    rfl
  · rw [heq]
    show Event.calls ((s.vetAll (n.standing.groupIds idp)).events ++ _) = _
    rw [Event.calls_append, Store.calls_vetAll]
    rfl
  · rw [heq]
    rfl

theorem calls_standingSets (s : Store) (idps : List String) (c : Cache) :
    Event.calls (n.standingSets s idps c).events = [] := by
  induction idps generalizing c with
  | nil => rfl
  | cons idp idps ih =>
    rw [events_standingSets_cons, Event.calls_append, calls_standingSet, ih]
    rfl

theorem calls_providerEvents (w : World) (idp : String) (e : Entity) :
    Event.calls (n.providerEvents w idp e) = n.callsFor (.groups idp e) := by
  rw [callsFor, ← Registry.isSome_get?]
  cases hp : n.registry.get? idp with
  | none =>
    rw [providerEvents_of_none hp]
    rfl
  | some p =>
    rw [providerEvents_of_some hp]
    cases p.groupsOf w e with
    | error fault => rfl
    | ok ids =>
      show (idp, Direction.forward) :: Event.calls (w.store.vetAll ids.ids).events = _
      rw [Store.calls_vetAll]
      rfl

theorem calls_perform (w : World) (c : Cache) (call : Call) :
    Event.calls (n.perform w c call).events = n.callsFor call := by
  cases call with
  | groups idp e =>
    rw [(n.perform_groups w c idp e).2, Event.calls_append, calls_standingSet,
      calls_providerEvents, List.nil_append]
  | isMember idp group e =>
    rw [(n.perform_isMember w c idp group e).2, events_isMember, callsFor, ← Registry.isSome_get?]
    cases n.standing.hasGroup idp group <;> cases n.registry.get? idp <;> rfl
  | members group =>
    rw [(n.perform_members w c group).2, Cursor.events_rest]
    refine (Cursor.flatMap_ask_events w group n.registry.providers).1.trans ?_
    rw [callsFor, Registry.names, List.map_map]
    rfl
  | idpsGranting p =>
    rw [(n.perform_idpsGranting w c p).2, events_idpsGranting, Event.calls_append,
      calls_standingSets]
    split <;> rfl

theorem calls_run (calls : List (World × Call)) (c : Cache) :
    Event.calls (n.run calls c).events = calls.flatMap fun x => n.callsFor x.2 := by
  induction calls generalizing c with
  | nil => rfl
  | cons x calls ih =>
    obtain ⟨w, call⟩ := x
    rw [events_run_cons, Event.calls_append, calls_perform, ih, List.flatMap_cons]

/-! ## Which provider is asked -/

/-- Of the providers only the one registered under exactly the name of the call has a say. -/
theorem groups_congr {n : Enroller} {w w' : World} {idp : String} {e : Entity}
    (hstore : w.store = w'.store)
    (h : ∀ p, (idp, p) ∈ n.registry.providers → p.groupsOf w e = p.groupsOf w' e) (c : Cache) :
    n.groups w idp e c = n.groups w' idp e c := by
  rw [groups, groups, hstore]
  cases hp : n.registry.get? idp with
  | none => rfl
  | some p => simp only [World.askGroups, h p (Registry.get?_eq_some_iff.1 hp)]

theorem isMember_congr {n : Enroller} {w w' : World} {idp : String} {e : Entity}
    (h : ∀ p, (idp, p) ∈ n.registry.providers → p.groupsOf w e = p.groupsOf w' e)
    (group : String) : n.isMember w idp group e = n.isMember w' idp group e := by
  rw [isMember, isMember]
  cases hp : n.registry.get? idp with
  | none => rfl
  | some p => simp only [World.askGroups, h p (Registry.get?_eq_some_iff.1 hp)]

end Enroller
end Enrolment
