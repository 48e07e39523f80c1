import Enrolment.Decoding
import Enrolment.Fault
import Enrolment.Standing
import Enrolment.Text.Blank
import Enrolment.Toml.Document

/-!
Configurations: the standing groups as an administrator writes them down.

A configuration is read from a document and then checked: the form of the document comes first,
and only a well-formed one is searched for blank IDP names.
-/

namespace Enrolment

structure Configuration where
  mapping : Table (List String)
  deriving DecidableEq, Inhabited

namespace Configuration

/-- A configuration without a mapping maps nothing. -/
def decode (d : Dialect) (data : Data) : Option Configuration := do
  let [mapping] ← d.slots ["mapping"] data | none
  return ⟨← Decoding.defaulted Table.empty (Decoding.table Data.texts?) mapping⟩

/-- The first of the blank IDP names. -/
def blankName? (c : Configuration) : Option String := c.mapping.keys.find? Text.isBlank

def validate (c : Configuration) : Except ConfigFault Unit :=
  match c.blankName? with
  | some name => .error (.blankIdpName name)
  | none => .ok ()

/-- Reads and checks the text of a configuration. -/
def ofText (text : String) : Except ConfigFault Configuration := do
  let data ← match Toml.read text with
    | some data => .ok data
    | none => .error (.illFormed "the text is not a TOML document")
  let c ← match decode .toml data with
    | some c => .ok c
    | none => .error (.illFormed "the mapping is not a table of lists of texts")
  c.validate
  return c

/-- Reads and checks the bytes of a file with a configuration. -/
def ofBytes (bytes : ByteArray) : Except ConfigFault Configuration :=
  match String.fromUTF8? bytes with
  | some text => ofText text
  | none => .error (.unreadable "the bytes are not valid UTF-8")

/-- The file itself was not there to be read. -/
def missingFile : ConfigFault := .unreadable "the file cannot be read"

end Configuration

/-- The standing groups of a configuration. -/
def Standing.ofConfiguration (c : Configuration) : Standing := ⟨c.mapping⟩

end Enrolment
