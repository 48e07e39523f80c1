import Enrolment.Enroller.Cursor

/-!
Calls to an enroller as values, and runs of them.

A run is a list of calls, each with the world at its time, over one cache that is handed from call
to call.
-/

namespace Enrolment

inductive Call where
  | groups (idp : String) (e : Entity)
  | isMember (idp group : String) (e : Entity)
  | members (group : Entity)
  | idpsGranting (p : Principal)

/-- The answer to a call. -/
inductive Reply where
  | groups (r : Except ProviderFault GroupSet)
  | isMember (r : Except ProviderFault Bool)
  | members (items : List Item)
  | idps (names : List String)

namespace Enroller

def perform (n : Enroller) (w : World) (c : Cache) : Call → Traced (Reply × Cache)
  | .groups idp e => do
    let (r, c) ← n.groups w idp e c
    return (.groups r, c)
  | .isMember idp group e => do
    return (.isMember (← n.isMember w idp group e), c)
  | .members group => do
    return (.members (← (n.members group).rest w), c)
  | .idpsGranting p => do
    let (names, c) ← n.idpsGranting w.store p c
    return (.idps names, c)

def run (n : Enroller) : List (World × Call) → Cache → Traced (List Reply × Cache)
  | [], c => return ([], c)
  | (w, call) :: calls, c => do
    let (reply, c) ← n.perform w c call
    let (replies, c) ← n.run calls c
    return (reply :: replies, c)

end Enroller

end Enrolment
