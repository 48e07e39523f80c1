import Enrolment.Session.Basic

/-!
The steps of a session and the answers to them.
-/

namespace Enrolment

/-- Steps on the store.  Changing the directory never fails, whatever the outages. -/
inductive StoreStep where
  | add (e : Entity)
  | remove (id : String)
  | size
  | get (id : String)
  | list (idp : String)
  | isGroup (e : Entity)
  | isGroupPrincipal (p : Principal)
  | failId (id : String) (fault? : Option StoreFault)
  | failOthers (fault? : Option StoreFault)
  | failEnumeration (fault? : Option StoreFault)
  | vet (id : String)
  /-- Whether two ids denote the same group, and how many groups they denote. -/
  | compare (a b : String)

/-- Questions to standing groups. -/
inductive StandingQuery where
  | groupIds (idp : String)
  | hasIdp (idp : String)
  | hasGroup (idp id : String)
  | idps
  | size

inductive StandingStep where
  | assign (idp : String) (ids : List String)
  | replace (rows : List (String × List String))
  /-- Replaces the standing groups by those of a configuration. -/
  | configure (text : String)
  /-- Asks an enroller for its standing groups, or the session. -/
  | query (on : Option Nat) (q : StandingQuery)

/-- A provider to be registered. -/
inductive NewProvider where
  | allowList (l : AllowList)
  | ruleBook (b : RuleBook)
  | outside (source : Source)

inductive RegistryStep where
  | register (idp : String) (p : NewProvider)
  | names
  | size
  | has (idp : String)
  | describe
  | groupsOf (idp : String) (e : Entity)
  | membersOf (idp : String) (group : Entity)
  | setGroups (idp : String) (groups : Except ProviderFault IdSet)
  | setMembers (idp : String) (members : Except ProviderFault (List Item))

inductive EnrollerStep where
  /-- A new enroller, from the text of a configuration or with the standing groups at present. -/
  | create (config? : Option String)
  | copy (on : Nat)
  | call (on : Nat) (c : Call)
  | stats (on : Nat)

inductive CacheStep where
  | create
  | copy (on : Nat)
  /-- Stores those of the ids that denote groups. -/
  | insert (on : Nat) (idp : String) (ids : List String)
  | take (on : Nat) (idp : String)
  | contains (on : Nat) (idp : String)
  | size (on : Nat)
  | stats (on : Nat)

inductive Step where
  | store (s : StoreStep)
  | standing (s : StandingStep)
  | registry (s : RegistryStep)
  | enroller (s : EnrollerStep)
  | cache (s : CacheStep)

inductive Answer where
  | nothing
  | flag (b : Bool)
  | count (n : Nat)
  /-- The size of something, which is also asked whether it is empty. -/
  | size (n : Nat)
  | text (t : String)
  | texts (ts : List String)
  | entity (e : Entity)
  | entities (es : List Entity)
  /-- A group that passed vetting. -/
  | group (p : Principal)
  | comparison (equal : Bool) (distinct : Nat)
  | principals (ps : List Principal)
  | item (i : Item)
  | items (is : List Item)
  | stats (s : CacheStats)
  | rules (rs : List Rule)
  /-- A provider was registered of which there is nothing to tell. -/
  | registered
  | storeFault (f : StoreFault)
  | providerFault (f : ProviderFault)
  | configFault (f : ConfigFault)

end Enrolment
