import Enrolment.Toml.Key
import Enrolment.Toml.Node

/-!
Putting a document together from its key-value pairs and headers.

A key is given a value at most once.  A dotted key makes the tables on its way and may return only
to tables that dotted keys or headers further down have made; a header opens a table of its own and
may return only to a table that headers further down imply.
-/

namespace Enrolment.Toml

namespace Fields

def get? (fields : Fields) (key : String) : Option Node := fields.lookup key

/-- Binds `key` in its place, or at the end if it is new. -/
def set (key : String) (node : Node) : Fields → Fields
  | [] => [(key, node)]
  | (k, n) :: fields =>
    if k = key then (k, node) :: fields else (k, n) :: set key node fields

/-- Changes the table at the end of a path.  Tables that are missing on the way are made, as a
dotted key or as a header makes them; an array of tables is entered at its last element. -/
def change (dotted : Bool) (f : Origin → Fields → Option Fields) :
    List String → Origin → Fields → Option Fields
  | [], origin, fields => f origin fields
  | key :: keys, _, fields =>
    match fields.get? key with
    | none => do
      let origin := if dotted then .dotted else .implied
      let sub ← change dotted f keys origin []
      return fields.set key (.table origin sub)
    | some (.table origin sub) => do
      guard !(dotted && origin == .header)
      let sub ← change dotted f keys origin sub
      return fields.set key (.table origin sub)
    | some (.tables elements) => do
      let sub ← change dotted f keys .header (← elements.getLast?)
      return fields.set key (.tables (elements.dropLast ++ [sub]))
    | some _ => none

/-- Gives a value to a dotted key.  A key with parts in front ends in a table made by a dotted
key, and a key without does not. -/
def assign (fields : Fields) (entry : Path × Node) : Option Fields :=
  change true (fun origin fields => do
      guard ((origin == .dotted) == !entry.1.tables.isEmpty)
      guard (fields.get? entry.1.key).isNone
      return fields.set entry.1.key entry.2)
    entry.1.tables .header fields

def assignAll (fields : Fields) (entries : List (Path × Node)) : Option Fields :=
  entries.foldlM assign fields

end Fields

/-- A header and the key-value pairs below it. -/
structure Section where
  /-- In double brackets: each such header adds a table to an array. -/
  repeated : Bool
  path : Path
  entries : List (Path × Node)

namespace Fields

/-- Adds the table of a header. -/
def addSection (fields : Fields) (part : Section) : Option Fields :=
  change false (fun _ fields =>
      if part.repeated then do
        let elements ← match fields.get? part.path.key with
          | none => some []
          | some (.tables elements) => some elements
          | some _ => none
        let sub ← assignAll [] part.entries
        return fields.set part.path.key (.tables (elements ++ [sub]))
      else do
        let known ← match fields.get? part.path.key with
          | none => some []
          | some (.table .implied sub) => some sub
          | some _ => none
        let sub ← assignAll known part.entries
        return fields.set part.path.key (.table .header sub))
    part.path.tables .header fields

/-- The top-level table of a document. -/
def assemble (entries : List (Path × Node)) (sections : List Section) : Option Fields := do
  sections.foldlM addSection (← assignAll [] entries)

end Fields

end Enrolment.Toml
