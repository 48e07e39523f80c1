import Enrolment.Toml.Moment

/-!
The tree of a TOML document while it is put together.

A table remembers how it came about, since that decides what may still be added to it: a table
with a header of its own, one that only headers below it imply, or one made by a dotted key.  An
inline table is complete where it ends.
-/

namespace Enrolment.Toml

inductive Scalar where
  | text (s : String)
  | flag (b : Bool)
  | number (n : Number)
  | moment (m : Moment)

/-- How a table came about. -/
inductive Origin where
  | header
  | implied
  | dotted
  deriving DecidableEq, Repr

inductive Node where
  | scalar (s : Scalar)
  | array (items : List Node)
  | inline (fields : List (String × Node))
  | table (origin : Origin) (fields : List (String × Node))
  /-- The tables of a header in double brackets, in order. -/
  | tables (elements : List (List (String × Node)))

abbrev Fields := List (String × Node)

/-! ## As plain data

The origin of a table does not matter to a reader of the finished document.  A moment appears as a
record of one field with a reserved name, so that it can be told from a text. -/

/-- The reserved name under which a moment is given as data. -/
def momentField : String := "$__toml_private_datetime"

def Scalar.data : Scalar → Data
  | .text s => .text s
  | .flag b => .flag b
  | .number n => .number n
  | .moment m => .record [(momentField, .text m.text)]

mutual

def Node.data : Node → Data
  | .scalar s => s.data
  | .array items => .list (itemsData items)
  | .inline fields => .record (fieldsData fields)
  | .table _ fields => .record (fieldsData fields)
  | .tables elements => .list (tablesData elements)

def itemsData : List Node → List Data
  | [] => []
  | item :: items => item.data :: itemsData items

def fieldsData : List (String × Node) → List (String × Data)
  | [] => []
  | (key, node) :: fields => (key, node.data) :: fieldsData fields

def tablesData : List (List (String × Node)) → List Data
  | [] => []
  | fields :: elements => .record (fieldsData fields) :: tablesData elements

end

end Enrolment.Toml
