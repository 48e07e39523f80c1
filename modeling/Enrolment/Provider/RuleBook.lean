import Enrolment.Provider.Rule
import Enrolment.Vetting

/-!
Rule books: rules about the attributes of the entities of one identity provider.

The groups of an entity follow from the entity alone.  The members of a group are found by
enumerating the store, which happens only if some rule grants the group; a store that cannot be
enumerated makes the provider unavailable.
-/

namespace Enrolment

structure RuleBook where
  idp : String
  rules : List Rule
  deriving DecidableEq

namespace RuleBook

/-- The groups of all rules that the entity fits. -/
def groupsOf (b : RuleBook) (e : Entity) : IdSet :=
  IdSet.ofList ((b.rules.filter (·.fits e)).map Rule.group)

/-- The rules that grant a group. -/
def granting (b : RuleBook) (group : Entity) : List Rule :=
  b.rules.filter (·.group == group.id)

/-- The fault of a provider whose store cannot be enumerated. -/
def enumerationFault (b : RuleBook) (fault : StoreFault) : ProviderFault :=
  .unavailable ("Failed to enumerate identities of " ++ b.idp ++ ": " ++ fault.message)

def membersOf (b : RuleBook) (s : Store) (group : Entity) :
    Traced (Except ProviderFault (List Entity)) := do
  let rules := b.granting group
  if rules.isEmpty then return .ok []
  else match ← s.list b.idp with
    | .error fault => return .error (b.enumerationFault fault)
    | .ok candidates => return .ok (candidates.filter fun e => rules.any (·.fits e))

end RuleBook

end Enrolment
