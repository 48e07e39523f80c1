import Enrolment.Data
import Enrolment.Entity
import Enrolment.Provider.Rule

/-!
Reading the domain's values from plain data.

A record is given by its named fields in any order, or by the list of their values in the order of
declaration.  Names that mean nothing are passed over.  A field that is left out is an error unless
the field has a default.
-/

namespace Enrolment

/-- Where the notations of a document differ in what they let stand for a value. -/
structure Dialect where
  /-- Whether a list of values may be longer than the fields it stands for. -/
  allowsSpare : Bool
  /-- What may stand under the name of a kind when it is written as a record of one field. -/
  isUnit : Data → Bool

namespace Dialect

def json : Dialect where
  allowsSpare := false
  isUnit
    | .null => true
    | _ => false

def toml : Dialect where
  allowsSpare := true
  isUnit
    | .record [] => true
    | .list [] => true
    | _ => false

/-- The values of the named fields, where they are given. -/
def slots (d : Dialect) (names : List String) : Data → Option (List (Option Data))
  | .record fields => some (names.map fun name => fields.lookup name)
  | .list items =>
    if items.length ≤ names.length ∨ d.allowsSpare then
      some ((items.take names.length).map some ++
        List.replicate (names.length - items.length) none)
    else none
  | _ => none

/-- The name of a kind, as a text or as the one field of a record. -/
def kindWord? (d : Dialect) : Data → Option String
  | .text w => some w
  | .record [(w, content)] => if d.isUnit content then some w else none
  | _ => none

end Dialect

namespace Decoding

/-- A field without a default. -/
def required {α : Type} (decode : Data → Option α) (slot : Option Data) : Option α :=
  slot >>= decode

def defaulted {α : Type} (default : α) (decode : Data → Option α) : Option Data → Option α
  | none => some default
  | some d => decode d

def nullable {α : Type} (decode : Data → Option α) : Data → Option (Option α)
  | .null => some none
  | d => (decode d).map some

/-- A record whose field names are keys of the domain. -/
def table {α : Type} (decode : Data → Option α) (d : Data) : Option (Table α) := do
  let rows ← (← d.record?).mapM fun (key, d) => (decode d).map (key, ·)
  return Table.ofList rows

end Decoding

open Decoding

def Principal.decode (d : Dialect) (data : Data) : Option Principal := do
  let [name, kind] ← d.slots ["name", "type"] data | none
  return {
    name := ← required Data.text? name
    kind := ← required (fun k => d.kindWord? k >>= Principal.Kind.ofWord?) kind }

def Entity.decode (d : Dialect) (data : Data) : Option Entity := do
  let [id, kind, principal, idp, attributes] ←
    d.slots ["id", "kind", "principal", "idp_name", "attributes"] data | none
  return {
    id := ← required Data.text? id
    kind := ← required (fun k => d.kindWord? k >>= Entity.Kind.ofWord?) kind
    principal := ← required (Principal.decode d) principal
    idp? := ← defaulted none (nullable Data.text?) idp
    attributes := ← defaulted Table.empty (table Data.text?) attributes }

def Rule.decode (d : Dialect) (data : Data) : Option Rule := do
  let [key, value, group] ← d.slots ["attribute", "value", "group_id"] data | none
  return {
    key := ← required Data.text? key
    value := ← required Data.text? value
    group := ← required Data.text? group }

end Enrolment
