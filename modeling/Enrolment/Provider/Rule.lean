import Enrolment.Entity

/-!
Rules: a group is granted to every entity that has a given value for a given attribute.
-/

namespace Enrolment

structure Rule where
  /-- The name of the attribute. -/
  key : String
  value : String
  /-- The id of the group granted. -/
  group : String
  deriving DecidableEq, Repr, Inhabited

/-- The values are compared exactly. -/
def Rule.fits (r : Rule) (e : Entity) : Bool := e.attributes.get? r.key == some r.value

end Enrolment
