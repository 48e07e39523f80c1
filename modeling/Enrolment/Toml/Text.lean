import Enrolment.Toml.Lexeme

/-!
The four forms of a text in a TOML document.

Basic texts stand in double quotes and know escapes, literal texts stand in single quotes and know
none, and either form has a variant between triple quotes that may run over several lines.  Every
reader below takes one character at a time, so that what it has seen so far is a small state and
what it still has to read is a shorter list.
-/

namespace Enrolment.Toml

/-! ## Escapes -/

def escapeLetter? : Char → Option Char
  | 'b' => some '\x08'
  | 't' => some '\t'
  | 'n' => some '\n'
  | 'f' => some '\x0c'
  | 'r' => some '\r'
  | '"' => some '"'
  | '\\' => some '\\'
  | _ => none

/-- The number of hexadecimal digits after the letter that announces a code point. -/
def codeLength? : Char → Option Nat
  | 'u' => some 4
  | 'U' => some 8
  | _ => none

def hexValue? (c : Char) : Option Nat :=
  if '0' ≤ c ∧ c ≤ '9' then some (c.toNat - '0'.toNat)
  else if 'a' ≤ c ∧ c ≤ 'f' then some (c.toNat - 'a'.toNat + 10)
  else if 'A' ≤ c ∧ c ≤ 'F' then some (c.toNat - 'A'.toNat + 10)
  else none

/-- The character of a code point; surrogates and what lies beyond Unicode have none. -/
def character? (code : Nat) : Option Char :=
  if code.isValidChar then some (Char.ofNat code) else none

/-- Where a reader stands inside a basic text. -/
inductive BasicState where
  | plain
  /-- Behind a backslash. -/
  | escape
  /-- Inside a code point: how many digits are to come, and the value of those read. -/
  | code (left value : Nat)
  deriving DecidableEq

/-- What one more digit makes of a code point that is being read. -/
def nextDigit (left value : Nat) (c : Char) : Option (Nat ⊕ Char) := do
  let digit ← hexValue? c
  if left ≤ 1 then return .inr (← character? (16 * value + digit))
  else return .inl (16 * value + digit)

/-! ## Texts on one line -/

/-- What may stand unescaped in a basic text. -/
def isBasicChar (c : Char) : Bool := isPlain c && c != '"' && c != '\\'

/-- What may stand in a literal text. -/
def isLiteralChar (c : Char) : Bool := isPlain c && c != '\''

/-- Puts a character in front of what a reader found. -/
def push (c : Char) : Option (List Char × List Char) → Option (List Char × List Char) :=
  Option.map fun (text, rest) => (c :: text, rest)

/-- Reads a basic text from behind its opening quote. -/
def basicBody : BasicState → Reader (List Char)
  | _, [] => none
  | .plain, c :: rest =>
    if c = '"' then some ([], rest)
    else if c = '\\' then basicBody .escape rest
    else if isBasicChar c then push c (basicBody .plain rest)
    else none
  | .escape, c :: rest =>
    match escapeLetter? c, codeLength? c with
    | some x, _ => push x (basicBody .plain rest)
    | none, some length => basicBody (.code length 0) rest
    | none, none => none
  | .code left value, c :: rest =>
    match nextDigit left value c with
    | some (.inl value) => basicBody (.code (left - 1) value) rest
    | some (.inr x) => push x (basicBody .plain rest)
    | none => none

/-- Reads a literal text from behind its opening quote. -/
def literalBody : Reader (List Char)
  | [] => none
  | c :: rest =>
    if c = '\'' then some ([], rest)
    else if isLiteralChar c then push c (literalBody rest)
    else none

/-! ## Texts on several lines -/

/-- Behind three quotes that close a text, up to two more of them belong to the text. -/
def closingQuotes (quote : Char) : List Char → List Char × List Char
  | a :: b :: rest =>
    if a = quote then if b = quote then ([a, b], rest) else ([a], b :: rest)
    else ([], a :: b :: rest)
  | [a] => if a = quote then ([a], []) else ([], [a])
  | [] => ([], [])

/-- What follows two characters `quote`, if the text starts with them. -/
def afterTwo? (quote : Char) : List Char → Option (List Char)
  | a :: b :: rest => if a = quote ∧ b = quote then some rest else none
  | _ => none

/-- Where a reader stands inside a basic text of several lines. -/
inductive LongState where
  | text (state : BasicState)
  /-- Behind a backslash and blanks, which a line break has to follow. -/
  | lineEnd
  /-- Behind such a line break, where blanks and line breaks count for nothing. -/
  | gap
  deriving DecidableEq

/-- Reads a basic text of several lines from behind its opening quotes and first line break.  A
carriage return stands only before a line feed and adds nothing to it. -/
def longBasicBody : LongState → Reader (List Char)
  | _, [] => none
  | state, c :: rest =>
    if c = '\r' then if rest.head? = some '\n' then longBasicBody state rest else none
    else if state = .gap ∧ (c = '\n' ∨ isBlank c) then longBasicBody .gap rest
    else match state with
      | .text .escape =>
        if c = '\n' then longBasicBody .gap rest
        else if isBlank c then longBasicBody .lineEnd rest
        else match escapeLetter? c, codeLength? c with
          | some x, _ => push x (longBasicBody (.text .plain) rest)
          | none, some length => longBasicBody (.text (.code length 0)) rest
          | none, none => none
      | .text (.code left value) =>
        match nextDigit left value c with
        | some (.inl value) => longBasicBody (.text (.code (left - 1) value)) rest
        | some (.inr x) => push x (longBasicBody (.text .plain) rest)
        | none => none
      | .lineEnd =>
        if c = '\n' then longBasicBody .gap rest
        else if isBlank c then longBasicBody .lineEnd rest
        else none
      | .text .plain | .gap =>
        if c = '"' then
          match afterTwo? '"' rest with
          | some rest => some (closingQuotes '"' rest)
          | none => push '"' (longBasicBody (.text .plain) rest)
        else if c = '\\' then longBasicBody (.text .escape) rest
        else if c = '\n' ∨ isBasicChar c then push c (longBasicBody (.text .plain) rest)
        else none

/-- Reads a literal text of several lines from behind its opening quotes and first line break. -/
def longLiteralBody : Reader (List Char)
  | [] => none
  | c :: rest =>
    if c = '\r' then if rest.head? = some '\n' then longLiteralBody rest else none
    else if c = '\'' then
      match afterTwo? '\'' rest with
      | some rest => some (closingQuotes '\'' rest)
      | none => push '\'' (longLiteralBody rest)
    else if c = '\n' ∨ isLiteralChar c then push c (longLiteralBody rest)
    else none

/-- A line break right behind the opening quotes does not belong to the text. -/
def skipFirstBreak (s : List Char) : List Char := (afterBreak? s).getD s

/-! ## Any text -/

/-- Reads a text on one line, in either kind of quotes. -/
def shortText : Reader String
  | '"' :: rest => (basicBody .plain rest).map fun (t, rest) => (String.ofList t, rest)
  | '\'' :: rest => (literalBody rest).map fun (t, rest) => (String.ofList t, rest)
  | _ => none

def anyText : Reader String
  | '"' :: '"' :: '"' :: rest =>
    (longBasicBody (.text .plain) (skipFirstBreak rest)).map fun (t, rest) =>
      (String.ofList t, rest)
  | '\'' :: '\'' :: '\'' :: rest =>
    (longLiteralBody (skipFirstBreak rest)).map fun (t, rest) => (String.ofList t, rest)
  | s => shortText s

end Enrolment.Toml
