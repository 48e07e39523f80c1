import Enrolment.Toml.Node
import Enrolment.Toml.Spelling

/-!
Pages: documents of the shape that this library writes, and their text.

A page has simple values first and then tables of simple values.  `Page.data` is the record that a
page stands for, to be compared with what a reader makes of its text.
-/

namespace Enrolment.Toml

/-- A text or a list of texts. -/
inductive Simple where
  | text (s : String)
  | texts (items : List String)
  deriving DecidableEq, Repr

structure Page where
  values : List (String × Simple)
  tables : List (String × List (String × Simple))
  deriving DecidableEq, Repr

/-! ## The text of a page -/

def Simple.spell : Simple → List Char
  | .text s => spellText s
  | .texts items => '[' :: [',', ' '].intercalate (items.map spellText) ++ [']']

def spellLine (field : String × Simple) : List Char :=
  spellKey field.1 ++ [' ', '=', ' '] ++ field.2.spell ++ ['\n']

def spellTable (table : String × List (String × Simple)) : List Char :=
  '[' :: spellKey table.1 ++ [']', '\n'] ++ table.2.flatMap spellLine

namespace Page

/-- The values, and then the tables; an empty line stands between what follows each other. -/
def spell (p : Page) : List Char :=
  let parts := if p.values.isEmpty then [] else [p.values.flatMap spellLine]
  ['\n'].intercalate (parts ++ p.tables.map spellTable)

def text (p : Page) : String := String.ofList p.spell

end Page

/-! ## The data of a page -/

def Simple.data : Simple → Data
  | .text s => .text s
  | .texts items => .list (items.map .text)

def simpleFields (fields : List (String × Simple)) : List (String × Data) :=
  fields.map fun field => (field.1, field.2.data)

def Page.data (p : Page) : Data :=
  .record (simpleFields p.values ++ p.tables.map fun t => (t.1, .record (simpleFields t.2)))

end Enrolment.Toml
