import Enrolment.Text.Extender
import Enrolment.Text.Unprintable

/-!
Quoted names, as messages show them.

A quoted name stands in double quotes.  What a reader could not see or could misread is escaped:
the quote and the backslash, the common controls by letter, and extenders and unprintable
characters by their code point.
-/

namespace Enrolment.Text

/-- The code point of `c` in lower case hexadecimal, without leading zeros. -/
def hexDigits (c : Char) : List Char := Nat.toDigits 16 c.toNat

def escaped (c : Char) : List Char :=
  match c with
  | '\x00' => ['\\', '0']
  | '\t' => ['\\', 't']
  | '\n' => ['\\', 'n']
  | '\r' => ['\\', 'r']
  | '"' => ['\\', '"']
  | '\\' => ['\\', '\\']
  | c =>
    if isExtender c || isUnprintable c then
      ['\\', 'u', '\x7b'] ++ hexDigits c ++ ['\x7d']
    else [c]

def quoted (s : String) : String :=
  String.ofList ('"' :: s.toList.flatMap escaped ++ ['"'])

end Enrolment.Text
