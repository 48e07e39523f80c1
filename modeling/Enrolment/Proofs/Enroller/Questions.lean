import Enrolment.Enroller.Call
import Enrolment.Proofs.Enroller.FirstUse

/-!
What the questions to an enroller do, each in one equation.

A question for the groups of an entity finds or vets the standing groups of the IDP first
(`standingSet_cases`) and then asks the provider (`events_groups`), which has no part in what the
cache becomes.
-/

namespace Enrolment
namespace Enroller

variable (n : Enroller)

theorem events_standingSets_cons (s : Store) (idp : String) (idps : List String) (c : Cache) :
    (n.standingSets s (idp :: idps) c).events =
      (n.standingSet s idp c).events ++
        (n.standingSets s idps (n.standingSet s idp c).value.2).events := by
  show _ ++ (_ ++ []) = _
  rw [List.append_nil]

/-- What the provider of an IDP is asked, and what is vetted of its report. -/
def providerEvents (w : World) (idp : String) (e : Entity) : List Event :=
  match n.registry.get? idp with
  | none => []
  | some p => .call idp .forward ::
    match p.groupsOf w e with
    | .error _ => []
    | .ok ids => (w.store.vetAll ids.ids).events

theorem providerEvents_of_none {n : Enroller} {idp : String} (h : n.registry.get? idp = none)
    (w : World) (e : Entity) : n.providerEvents w idp e = [] := by
  rw [providerEvents, h]

theorem providerEvents_of_some {n : Enroller} {idp : String} {p : Provider}
    (h : n.registry.get? idp = some p) (w : World) (e : Entity) :
    n.providerEvents w idp e = .call idp .forward ::
      match p.groupsOf w e with
      | .error _ => []
      | .ok ids => (w.store.vetAll ids.ids).events := by
  rw [providerEvents, h]

theorem events_groups (w : World) (idp : String) (e : Entity) (c : Cache) :
    (n.groups w idp e c).events =
      (n.standingSet w.store idp c).events ++ n.providerEvents w idp e := by
  rw [groups, Traced.events_bind]
  cases hp : n.registry.get? idp with
  | none => rw [providerEvents_of_none hp]; rfl
  | some p =>
    rw [providerEvents_of_some hp]
    simp only [Traced.events_bind, World.askGroups]
    cases p.groupsOf w e with
    | error fault => rfl
    | ok ids =>
      simp only [Traced.events_bind, Traced.events_pure, List.append_nil]
      rfl

theorem events_isMember (w : World) (idp group : String) (e : Entity) :
    (n.isMember w idp group e).events =
      if n.standing.hasGroup idp group || (n.registry.get? idp).isNone then []
      else [.call idp .forward] := by
  rw [isMember]
  cases n.standing.hasGroup idp group with
  | true => rfl
  | false =>
    cases n.registry.get? idp <;> rfl

theorem events_idpsGranting (s : Store) (p : Principal) (c : Cache) :
    (n.idpsGranting s p c).events =
      (if c.size < n.standing.size then
        [.note (.populatingAll c.size n.standing.size)] else []) ++
        (n.standingSets s n.standing.idps c).events := by
  rw [idpsGranting]
  split
  · show _ :: ((n.standingSets s n.standing.idps c).events ++ []) = _
    rw [List.append_nil]
    rfl
  · show (n.standingSets s n.standing.idps c).events ++ [] = _
    rw [List.append_nil, List.nil_append]

/-! ## Calls -/

theorem perform_groups (w : World) (c : Cache) (idp : String) (e : Entity) :
    (n.perform w c (.groups idp e)).value.2 = (n.standingSet w.store idp c).value.2 ∧
      (n.perform w c (.groups idp e)).events =
        (n.standingSet w.store idp c).events ++ n.providerEvents w idp e := by
  constructor
  · exact n.cache_groups w idp e c
  · show (n.groups w idp e c).events ++ [] = _
    rw [List.append_nil, events_groups]

theorem perform_isMember (w : World) (c : Cache) (idp group : String) (e : Entity) :
    (n.perform w c (.isMember idp group e)).value.2 = c ∧
      (n.perform w c (.isMember idp group e)).events = (n.isMember w idp group e).events := by
  constructor
  · rfl
  · show (n.isMember w idp group e).events ++ [] = _
    rw [List.append_nil]

theorem perform_members (w : World) (c : Cache) (group : Entity) :
    (n.perform w c (.members group)).value.2 = c ∧
      (n.perform w c (.members group)).events =
        (((n.members group).rest w)).events := by
  constructor
  · rfl
  · show ((n.members group).rest w).events ++ [] = _
    rw [List.append_nil]

theorem perform_idpsGranting (w : World) (c : Cache) (p : Principal) :
    (n.perform w c (.idpsGranting p)).value.2 =
        (n.standingSets w.store n.standing.idps c).value.2 ∧
      (n.perform w c (.idpsGranting p)).events =
        (n.idpsGranting w.store p c).events := by
  constructor
  · exact n.cache_idpsGranting w.store p c
  · show (n.idpsGranting w.store p c).events ++ [] = _
    rw [List.append_nil]

theorem events_run_cons (w : World) (call : Call) (calls : List (World × Call)) (c : Cache) :
    (n.run ((w, call) :: calls) c).events =
      (n.perform w c call).events ++ (n.run calls (n.perform w c call).value.2).events := by
  show _ ++ (_ ++ []) = _
  rw [List.append_nil]

end Enroller
end Enrolment
