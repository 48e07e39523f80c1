import Enrolment.Text.Quoted

/-!
What can go wrong, by where it goes wrong: in the identity store, in a provider of memberships, or
in the configuration.  Each fault is a cause with its details, and `message` is its wording.
-/

namespace Enrolment

inductive StoreFault where
  | unavailable (detail : String)
  | io (detail : String)
  | unsupported (detail : String)
  | internal (detail : String)
  deriving DecidableEq, Repr

def StoreFault.message : StoreFault → String
  | .unavailable d => "Identity store unavailable: " ++ d
  | .io d => "I/O error: " ++ d
  | .unsupported d => "Unsupported store operation: " ++ d
  | .internal d => "Internal store error: " ++ d

inductive ProviderFault where
  | unavailable (detail : String)
  | evaluation (detail : String)
  /-- A fault of the provider's own, worded by it. -/
  | other (text : String)
  deriving DecidableEq, Repr

def ProviderFault.message : ProviderFault → String
  | .unavailable d => "Membership provider unavailable: " ++ d
  | .evaluation d => "Membership evaluation failed: " ++ d
  | .other t => t

inductive ConfigFault where
  | unreadable (detail : String)
  | illFormed (detail : String)
  | blankIdpName (name : String)
  | duplicateProvider (idp : String)
  deriving DecidableEq, Repr

def ConfigFault.message : ConfigFault → String
  | .unreadable d => "Failed to read configuration: " ++ d
  | .illFormed d => "Failed to parse configuration: " ++ d
  | .blankIdpName name => "Invalid IDP name: " ++ Text.quoted name
  | .duplicateProvider idp => "Provider already registered for IDP: " ++ idp

end Enrolment
