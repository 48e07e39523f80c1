import Enrolment.Toml.Value

/-!
Whole documents: lines of key-value pairs, headers, comments and nothing.

`Toml.read` takes a text to the record that it spells, and gives nothing for a text that is not a
valid document.
-/

namespace Enrolment.Toml

/-- A line that says something. -/
inductive Line where
  | entry (path : Path) (value : Node)
  | header (repeated : Bool) (path : Path)

/-- Reads a header from behind its brackets. -/
def headerLine (repeated : Bool) (s : List Char) : Option (Line × List Char) := do
  let (p, s) ← path depthLimit s
  let s ← expect ']' s
  let s ← if repeated then expect ']' s else some s
  return (.header repeated p, s)

def entryLine (s : List Char) : Option (Line × List Char) := do
  let ((p, node), s) ← entry (value depthLimit) s
  return (.entry p node, s)

/-- Reads a line that is neither empty nor only a comment, without what ends it. -/
def line : Reader Line
  | '[' :: '[' :: s => headerLine true s
  | '[' :: s => headerLine false s
  | s => entryLine s

/-- Reads all lines, at most so many. -/
def lines : Nat → List Char → Option (List Line)
  | 0, _ => none
  | n + 1, s =>
    match skipBlanks s with
    | [] => some []
    | '#' :: rest => endLine ('#' :: rest) >>= lines n
    | s =>
      match afterBreak? s with
      | some s => lines n s
      | none => do
        let (l, s) ← line s
        let ls ← endLine s >>= lines n
        return l :: ls

/-- Groups the lines under their headers; those above the first header come first. -/
def group : List Line → List (Path × Node) × List Section
  | [] => ([], [])
  | .entry path value :: ls =>
    let (entries, sections) := group ls
    ((path, value) :: entries, sections)
  | .header repeated path :: ls =>
    let (entries, sections) := group ls
    ([], ⟨repeated, path, entries⟩ :: sections)

/-- A byte order mark at the very start does not belong to the document. -/
def skipMark : List Char → List Char
  | '\ufeff' :: s => s
  | s => s

def fields (text : String) : Option Fields := do
  let s := skipMark text.toList
  let (entries, sections) := group (← lines (s.length + 1) s)
  Fields.assemble entries sections

/-- The record that a document spells. -/
def read (text : String) : Option Data :=
  (fields text).map fun fs => .record (fieldsData fs)

end Enrolment.Toml
