import Enrolment.Toml.Assembly

/-!
Values: texts, numbers, truth values and moments, and the arrays and inline tables of them.

The depth to which arrays and inline tables may be nested is the argument on which reading a value
recurses.
-/

namespace Enrolment.Toml

/-- Reads a given word. -/
def word (expected : List Char) (node : Node) (s : List Char) : Option (Node × List Char) :=
  if expected.isPrefixOf s then some (node, s.drop expected.length) else none

def startsNumber (c : Char) : Bool := isDecimalDigit c || c == '+' || c == '-'

/-- A number or a moment.  A moment is tried first, because its year or hour reads as a number. -/
def numeric (s : List Char) : Option (Node × List Char) :=
  ((moment s).map fun (m, rest) => (.scalar (.moment m), rest)) <|>
    (number s).map fun (n, rest) => (.scalar (.number n), rest)

/-- Reads a value that holds no other. -/
def scalar : Reader Node
  | [] => none
  | c :: rest =>
    let s := c :: rest
    if c = '"' ∨ c = '\'' then (anyText s).map fun (t, rest) => (.scalar (.text t), rest)
    else if startsNumber c then numeric s
    else
      word ['t', 'r', 'u', 'e'] (.scalar (.flag true)) s <|>
        word ['f', 'a', 'l', 's', 'e'] (.scalar (.flag false)) s <|>
        (special s).map fun (n, rest) => (.scalar (.number n), rest)

/-- Reads the elements of an array from behind its bracket or a comma, at most so many.  The last
element may have a comma behind it. -/
def arrayItems (read : Reader Node) : Nat → Reader (List Node)
  | 0, _ => none
  | n + 1, s =>
    match skipFiller false s with
    | ']' :: rest => some ([], rest)
    | s => do
      let (item, s) ← read s
      match skipFiller false s with
      | ']' :: rest => return ([item], rest)
      | ',' :: s => do
        let (items, rest) ← arrayItems read n s
        return (item :: items, rest)
      | _ => none

/-- Reads a dotted key and its value. -/
def entry (read : Reader Node) (s : List Char) : Option ((Path × Node) × List Char) := do
  let (p, s) ← path depthLimit s
  let s ← expect '=' s
  let (node, s) ← read (skipBlanks s)
  return ((p, node), s)

/-- Reads the key-value pairs of an inline table, at least one and at most so many. -/
def inlineEntries (read : Reader Node) : Nat → Reader (List (Path × Node))
  | 0, _ => none
  | n + 1, s => do
    let (e, s) ← entry read s
    match skipBlanks s with
    | '}' :: rest => return ([e], rest)
    | ',' :: s => do
      let (es, rest) ← inlineEntries read n s
      return (e :: es, rest)
    | _ => none

/-- Reads an inline table from behind its brace. -/
def inlineTable (read : Reader Node) (s : List Char) : Option (Node × List Char) :=
  match skipBlanks s with
  | '}' :: rest => some (.inline [], rest)
  | s => do
    let (entries, rest) ← inlineEntries read s.length s
    let fields ← Fields.assignAll [] entries
    return (.inline fields, rest)

/-- Reads a value in which arrays and inline tables are nested at most so deep.  An array has no
more elements than it has characters. -/
def value : Nat → Reader Node
  | 0, s => scalar s
  | depth + 1, s =>
    match s with
    | '[' :: rest =>
      (arrayItems (value depth) (rest.length + 1) rest).map fun (items, rest) =>
        (.array items, rest)
    | '{' :: rest => inlineTable (value depth) rest
    | _ => scalar s

end Enrolment.Toml
