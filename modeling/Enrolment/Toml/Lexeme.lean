/-!
The characters between the words of a TOML document: blanks, line breaks and comments.

A reader here takes the remaining characters and leaves what follows the part it stands for.
-/

namespace Enrolment.Toml

/-- What is read from the front of a text, with the rest, or nothing if the text does not fit. -/
abbrev Reader (α : Type) := List Char → Option (α × List Char)

def isBlank (c : Char) : Bool := c == ' ' || c == '\t'

/-- Neither a control character nor the end of a line; the tab counts as text. -/
def isPlain (c : Char) : Bool := c == '\t' || (0x20 ≤ c.toNat && c.toNat != 0x7F)

def skipBlanks (s : List Char) : List Char := s.dropWhile isBlank

/-- What follows a line break, if the text starts with one. -/
def afterBreak? : List Char → Option (List Char)
  | '\n' :: rest => some rest
  | '\r' :: '\n' :: rest => some rest
  | _ => none

/-- What follows the rest of a line that holds nothing more but blanks and a comment. -/
def endLine (s : List Char) : Option (List Char) :=
  let s := match skipBlanks s with
    | '#' :: rest => rest.dropWhile isPlain
    | s => s
  if s.isEmpty then some [] else afterBreak? s

/-- Skips blanks, line breaks and comments, as between the elements of an array.  The flag tells
whether the text starts inside a comment. -/
def skipFiller (comment : Bool) : List Char → List Char
  | [] => []
  | c :: rest =>
    if c = '\n' ∨ (c = '\r' ∧ rest.head? = some '\n') then skipFiller false rest
    else if comment then if isPlain c then skipFiller true rest else c :: rest
    else if isBlank c then skipFiller false rest
    else if c = '#' then skipFiller true rest
    else c :: rest

/-- Reads one given character. -/
def expect (c : Char) : List Char → Option (List Char)
  | [] => none
  | x :: rest => if x = c then some rest else none

end Enrolment.Toml
