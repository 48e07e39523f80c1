import Enrolment.Fault

/-!
Diagnostics: what the library notes while it works, and the line in which each note is shown.

A line is the level, the message and then every field as `name=value`, values as they are.
-/

namespace Enrolment

inductive Diagnostic where
  /-- A group id that no entity has. -/
  | missing (id : String)
  /-- A group id whose entity is not a group. -/
  | notGroup (id : String)
  /-- A group id whose entity has a principal that is not of group type. -/
  | notGroupPrincipal (id principal : String)
  /-- A group id whose look-up failed. -/
  | lookupFailed (id : String) (fault : StoreFault)
  /-- The standing groups of an IDP were vetted and kept. -/
  | populated (idp : String) (configured verified : Nat)
  /-- The standing groups of an IDP were found vetted. -/
  | hit (idp : String)
  /-- So many of the mapped IDPs are vetted, and not all of them. -/
  | populatingAll (filled mapped : Nat)
  /-- The provider of an IDP is about to be asked for the members of a group. -/
  | enumerating (idp group : String)
  deriving DecidableEq, Repr

namespace Diagnostic

inductive Level where
  | warn
  | debug
  | trace
  deriving DecidableEq, Repr

def Level.word : Level → String
  | .warn => "WARN"
  | .debug => "DEBUG"
  | .trace => "TRACE"

/-- What an administrator can mend is a warning; a failed look-up is expected to pass. -/
def level : Diagnostic → Level
  | .missing _ | .notGroup _ | .notGroupPrincipal .. => .warn
  | .lookupFailed .. | .populated .. | .populatingAll .. => .debug
  | .hit _ | .enumerating .. => .trace

def message : Diagnostic → String
  | .missing _ => "Configured auto-membership group does not exist, ignoring"
  | .notGroup _ => "Configured auto-membership group is not a group, ignoring"
  | .notGroupPrincipal .. => "Principal of auto-membership group is not of group type, ignoring"
  | .lookupFailed .. => "Failed to retrieve auto-membership group"
  | .populated .. => "Populated auto-membership cache entry"
  | .hit _ => "Auto-membership cache hit"
  | .populatingAll .. => "Populating auto-membership cache for all configured IDPs"
  | .enumerating .. => "Enumerating automatic members"

def fields : Diagnostic → List (String × String)
  | .missing id => [("group_id", id)]
  | .notGroup id => [("group_id", id)]
  | .notGroupPrincipal id principal => [("group_id", id), ("principal", principal)]
  | .lookupFailed id fault => [("group_id", id), ("error", fault.message)]
  | .populated idp configured verified =>
    [("idp_name", idp), ("configured", Nat.repr configured), ("verified", Nat.repr verified)]
  | .hit idp => [("idp_name", idp)]
  | .populatingAll filled mapped =>
    [("populated", Nat.repr filled), ("configured", Nat.repr mapped)]
  | .enumerating idp group => [("idp_name", idp), ("group_id", group)]

def line (d : Diagnostic) : String :=
  d.fields.foldl (fun text field => text ++ " | " ++ field.1 ++ "=" ++ field.2)
    (d.level.word ++ " " ++ d.message)

end Diagnostic

end Enrolment
