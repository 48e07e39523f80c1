import Enrolment.Cache
import Enrolment.Registry
import Enrolment.Standing
import Enrolment.Vetting

/-!
The enroller: which groups an entity is in by itself, without anyone adding it.

An enroller joins the standing groups of an identity provider, vetted once and then cached, with
the groups that the IDP's provider reports for the entity, vetted at every call.  Each question is
a function of the world, the question and the cache; the answer comes with the cache afterwards and
with the trace of the effects.
-/

namespace Enrolment

structure Enroller where
  standing : Standing
  registry : Registry
  deriving Inhabited

namespace Enroller

/-- The vetted standing groups of an IDP.  Those of a mapped IDP are vetted at first use and kept;
an IDP that is not mapped has none, and nothing is kept for it. -/
def standingSet (n : Enroller) (s : Store) (idp : String) (c : Cache) :
    Traced (GroupSet × Cache) :=
  match c.take idp with
  | (some set, c) => do
    Traced.emit (.note (.hit idp))
    return (set, c)
  | (none, c) =>
    if n.standing.hasIdp idp then do
      let ids := n.standing.groupIds idp
      let set := GroupSet.ofList (← s.vetAll ids)
      Traced.emit (.note (.populated idp ids.length set.size))
      return (set, c.insert idp set)
    else return (GroupSet.empty, c)

/-- The groups that an entity is in for an IDP.  Only a fault of the IDP's provider is a fault
here; it leaves the cache as an answer would. -/
def groups (n : Enroller) (w : World) (idp : String) (e : Entity) (c : Cache) :
    Traced (Except ProviderFault GroupSet × Cache) := do
  let (set, c) ← n.standingSet w.store idp c
  match n.registry.get? idp with
  | none => return (.ok set, c)
  | some p =>
    match ← w.askGroups idp p e with
    | .error fault => return (.error fault, c)
    | .ok ids => return (.ok (set.insertAll (← w.store.vetAll ids.ids)), c)

/-- Whether an entity is in one group for an IDP, by the id of the group.  A standing group is
neither vetted nor asked for. -/
def isMember (n : Enroller) (w : World) (idp group : String) (e : Entity) :
    Traced (Except ProviderFault Bool) :=
  if n.standing.hasGroup idp group then return .ok true
  else match n.registry.get? idp with
    | none => return .ok false
    | some p => (fun r => r.map (·.contains group)) <$> w.askGroups idp p e

/-- The vetted standing groups of several IDPs, one after the other. -/
def standingSets (n : Enroller) (s : Store) :
    List String → Cache → Traced (List (String × GroupSet) × Cache)
  | [], c => return ([], c)
  | idp :: idps, c => do
    let (set, c) ← n.standingSet s idp c
    let (sets, c) ← n.standingSets s idps c
    return ((idp, set) :: sets, c)

/-- The mapped IDPs whose standing groups include the principal's name, in increasing order. -/
def idpsGranting (n : Enroller) (s : Store) (p : Principal) (c : Cache) :
    Traced (List String × Cache) := do
  if c.size < n.standing.size then
    Traced.emit (.note (.populatingAll c.size n.standing.size))
  let (sets, c) ← n.standingSets s n.standing.idps c
  return ((sets.filter (·.2.hasName p.name)).map Prod.fst, c)

end Enroller

end Enrolment
