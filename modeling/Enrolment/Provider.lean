import Enrolment.Provider.AllowList
import Enrolment.Provider.RuleBook

/-!
Providers of memberships, and the world that they answer from.

A provider answers two questions: which groups an entity is in, and which members a group has.  Of
an outside provider only its name is known here; what it answers at present is part of the world,
like the contents of the store.
-/

namespace Enrolment

/-- What an outside provider answers at present.  A list of members may have faults in between. -/
structure Source where
  groupsOf : Entity → Except ProviderFault IdSet
  membersOf : Entity → Except ProviderFault (List (Except ProviderFault Entity))

/-- Everything that may change between two calls. -/
structure World where
  store : Store
  sources : Nat → Source

namespace World

/-- The world in which one outside provider answers differently. -/
def setSource (w : World) (n : Nat) (source : Source) : World :=
  { w with sources := fun k => if k = n then source else w.sources k }

end World

inductive Provider where
  | allowList (l : AllowList)
  | ruleBook (b : RuleBook)
  /-- The outside provider of this number. -/
  | outside (source : Nat)

namespace Provider

def groupsOf (p : Provider) (w : World) (e : Entity) : Except ProviderFault IdSet :=
  match p with
  | .allowList l => .ok (l.groupsOf e)
  | .ruleBook b => .ok (b.groupsOf e)
  | .outside source => (w.sources source).groupsOf e

def membersOf (p : Provider) (w : World) (group : Entity) :
    Traced (Except ProviderFault (List (Except ProviderFault Entity))) :=
  match p with
  | .allowList l => pure (.ok ((l.membersOf group).map .ok))
  | .ruleBook b => (fun r => r.map (List.map .ok)) <$> b.membersOf w.store group
  | .outside source => pure ((w.sources source).membersOf group)

end Provider

end Enrolment
