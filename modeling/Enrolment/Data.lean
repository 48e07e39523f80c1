/-!
Plain data: what a document of either notation comes down to once it is read.

A record lists its fields in some order; each name occurs at most once in what the readers of this
library produce.
-/

namespace Enrolment

inductive Number where
  /-- The number `mantissa * 10 ^ exponent`. -/
  | decimal (mantissa exponent : Int)
  | infinite (negative : Bool)
  | notANumber
  deriving DecidableEq, Repr

inductive Data where
  | null
  | flag (b : Bool)
  | number (n : Number)
  | text (s : String)
  | list (items : List Data)
  | record (fields : List (String × Data))
  deriving Inhabited

namespace Data

def text? : Data → Option String
  | .text s => some s
  | _ => none

def list? : Data → Option (List Data)
  | .list items => some items
  | _ => none

def record? : Data → Option (List (String × Data))
  | .record fields => some fields
  | _ => none

/-- A list of texts and of nothing else. -/
def texts? (d : Data) : Option (List String) := d.list? >>= List.mapM text?

end Data

end Enrolment
