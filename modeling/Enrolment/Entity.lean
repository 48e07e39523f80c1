import Enrolment.Principal

/-!
Entities: the users and groups that a directory holds.

An entity has an id, a principal that stands for it, possibly the name of the identity provider it
was synchronized from, and attributes.  A fresh entity's principal repeats its id and kind, and
the builders below change one field each.
-/

namespace Enrolment

namespace Entity

inductive Kind where
  | user
  | group
  deriving DecidableEq, Repr, Inhabited

def Kind.word : Kind → String
  | .user => "user"
  | .group => "group"

def Kind.ofWord? : String → Option Kind
  | "user" => some .user
  | "group" => some .group
  | _ => none

theorem Kind.ofWord?_word (k : Kind) : Kind.ofWord? k.word = some k := by
  cases k <;> rfl

end Entity

structure Entity where
  id : String
  kind : Entity.Kind
  principal : Principal
  idp? : Option String
  attributes : Table String
  deriving DecidableEq, Inhabited

namespace Entity

def user (id : String) : Entity := ⟨id, .user, ⟨id, .user⟩, none, Table.empty⟩

def group (id : String) : Entity := ⟨id, .group, ⟨id, .group⟩, none, Table.empty⟩

def withPrincipal (e : Entity) (p : Principal) : Entity := { e with principal := p }

def withIdp (e : Entity) (idp : String) : Entity := { e with idp? := some idp }

/-- A later value for an attribute replaces an earlier one. -/
def withAttribute (e : Entity) (key value : String) : Entity :=
  { e with attributes := e.attributes.insert key value }

def isGroup (e : Entity) : Bool := e.kind == .group

end Entity

end Enrolment
