import Enrolment.Toml.Key

/-!
How texts and keys are written: which of the four forms a text takes, and what is escaped in it.

The form is the first that needs no escapes, one line before several and double quotes before
single ones; a text that no form can hold as it is goes in double quotes with escapes.
-/

namespace Enrolment.Toml

def isControl (c : Char) : Bool := c.toNat < 0x20 || c.toNat == 0x7F

/-- The form of a written text. -/
inductive Form where
  | basic
  | literal
  | longBasic
  | longLiteral
  deriving DecidableEq, Repr

/-- Whether a text has three of a character in a row. -/
def hasTriple (quote : Char) : List Char → Bool
  | a :: b :: c :: rest =>
    (a == quote && b == quote && c == quote) || hasTriple quote (b :: c :: rest)
  | _ => false

/-- The form in which a text is written as a value. -/
def formOf (s : List Char) : Form :=
  let free := !s.any fun c => isControl c && c != '\t' && c != '\n'
  let oneLine := !s.contains '\n'
  if free && oneLine && !s.contains '\\' && !s.contains '"' then .basic
  else if free && oneLine && !s.contains '\'' then .literal
  else if free && !s.contains '\\' && !hasTriple '"' s then .longBasic
  else if free && !hasTriple '\'' s then .longLiteral
  else if oneLine then .basic
  else .longBasic

/-! ## Escapes -/

def hexDigit (n : Nat) : Char := Nat.digitChar n |>.toUpper

/-- A character other than the quote, as it stands in double quotes. -/
def spellChar (long : Bool) (c : Char) : List Char :=
  if c = '\x08' then ['\\', 'b']
  else if c = '\t' then ['\\', 't']
  else if c = '\x0c' then ['\\', 'f']
  else if c = '\r' then ['\\', 'r']
  else if c = '\\' then ['\\', '\\']
  else if c = '\n' then if long then ['\n'] else ['\\', 'n']
  else if isControl c then
    ['\\', 'u', '0', '0', hexDigit (c.toNat / 16), hexDigit (c.toNat % 16)]
  else [c]

/-- A text as it stands in double quotes.  On one line every quote is escaped, and on several lines
every third of a row, so that three quotes never stand together; `run` counts the quotes that stand
unescaped right before. -/
def spellBasic (long : Bool) (run : Nat) : List Char → List Char
  | [] => []
  | c :: rest =>
    if c = '"' then
      if long ∧ run < 2 then '"' :: spellBasic long (run + 1) rest
      else '\\' :: '"' :: spellBasic long 0 rest
    else spellChar long c ++ spellBasic long 0 rest

/-! ## Texts and keys -/

/-- A text in a given form.  On several lines, a text with a line feed starts on a line of its
own. -/
def spellAs (form : Form) (s : List Char) : List Char :=
  let first := if s.contains '\n' then ['\n'] else []
  match form with
  | .basic => '"' :: spellBasic false 0 s ++ ['"']
  | .literal => '\'' :: s ++ ['\'']
  | .longBasic => ['"', '"', '"'] ++ first ++ spellBasic true 0 s ++ ['"', '"', '"']
  | .longLiteral => ['\'', '\'', '\''] ++ first ++ s ++ ['\'', '\'', '\'']

def spellText (s : String) : List Char := spellAs (formOf s.toList) s.toList

def spellKey (key : String) : List Char :=
  let s := key.toList
  let free := !s.any fun c => isControl c && c != '\t'
  if !s.isEmpty && s.all isBareChar then s
  else if free && !s.contains '\\' && !s.contains '"' then spellAs .basic s
  else if free && !s.contains '\'' then spellAs .literal s
  else spellAs .basic s

end Enrolment.Toml
