import Enrolment.Configuration
import Enrolment.Toml.Page

/-!
The domain's values as pages.  A field that has no value is left out, and a table that is empty is
written with its header alone.
-/

namespace Enrolment

open Toml (Page)

namespace Principal

/-- The fields of a principal, which also stand as a table inside an entity. -/
def fields (p : Principal) : List (String × Toml.Simple) :=
  [("name", .text p.name), ("type", .text p.kind.word)]

def page (p : Principal) : Page := ⟨p.fields, []⟩

end Principal

def Entity.page (e : Entity) : Page where
  values :=
    [("id", .text e.id), ("kind", .text e.kind.word)] ++
      e.idp?.toList.map fun idp => ("idp_name", .text idp)
  tables :=
    [("principal", e.principal.fields),
     ("attributes", e.attributes.rows.map fun row => (row.1, .text row.2))]

def Rule.page (r : Rule) : Page :=
  ⟨[("attribute", .text r.key), ("value", .text r.value), ("group_id", .text r.group)], []⟩

def Configuration.page (c : Configuration) : Page where
  values := []
  tables := [("mapping", c.mapping.rows.map fun row => (row.1, .texts row.2))]

end Enrolment
