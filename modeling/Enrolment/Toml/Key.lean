import Enrolment.Toml.Text

/-!
Keys, bare or quoted, and dotted paths of them.
-/

namespace Enrolment.Toml

def isBareChar (c : Char) : Bool := c.isAlphanum || c == '-' || c == '_'

/-- One part of a dotted key. -/
def simpleKey : Reader String
  | [] => none
  | c :: rest =>
    if c = '"' ∨ c = '\'' then shortText (c :: rest)
    else if isBareChar c then
      some (String.ofList ((c :: rest).takeWhile isBareChar), (c :: rest).dropWhile isBareChar)
    else none

/-- A dotted key: the tables it passes through and its last part. -/
structure Path where
  tables : List String
  key : String
  deriving DecidableEq, Repr

/-- Reads a dotted key of at most so many parts, with the blanks around them. -/
def path : Nat → Reader Path
  | 0, _ => none
  | n + 1, s => do
    let (key, s) ← simpleKey (skipBlanks s)
    match skipBlanks s with
    | '.' :: s => do
      let (p, s) ← path n s
      return (⟨key :: p.tables, p.key⟩, s)
    | s => return (⟨[], key⟩, s)

/-- The greatest number of parts of a dotted key, and the greatest depth of values. -/
def depthLimit : Nat := 79

end Enrolment.Toml
