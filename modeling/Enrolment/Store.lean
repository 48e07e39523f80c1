import Enrolment.Directory
import Enrolment.Fault

/-!
The identity store: a directory together with the rules by which it is read.

A store decides for itself which entities count as groups and which principals as group principals
(`Policy`), and it may fail to answer (`Outages`).  Failures never change what is stored.
-/

namespace Enrolment

/-- A store's own notions. -/
structure Policy where
  isGroup : Entity → Bool
  isGroupPrincipal : Principal → Bool
  /-- Whether the entities of an identity provider can be enumerated at all. -/
  enumerates : Bool

namespace Policy

/-- Groups and group principals are those of kind group. -/
def byKind : Policy where
  isGroup := Entity.isGroup
  isGroupPrincipal p := p.kind == .group
  enumerates := true

/-- A store that answers look-ups only. -/
def lookupOnly : Policy := { byKind with enumerates := false }

/-- Groups are told by their id, group principals by the word for their kind. -/
def listed (groupIds kinds : List String) : Policy where
  isGroup e := groupIds.contains e.id
  isGroupPrincipal p := kinds.contains p.kind.word
  enumerates := true

end Policy

/-- Which reads fail at present, and how. -/
structure Outages where
  /-- The ids whose look-up fails. -/
  ids : Table StoreFault
  /-- What happens to the look-up of any other id. -/
  otherIds : Option StoreFault
  enumeration : Option StoreFault

namespace Outages

def none : Outages := ⟨Table.empty, .none, .none⟩

def onLookup (o : Outages) (id : String) : Option StoreFault := (o.ids.get? id).or o.otherIds

/-- Sets or lifts the failure of one id. -/
def setId (o : Outages) (id : String) (fault? : Option StoreFault) : Outages :=
  { o with ids := match fault? with
      | some fault => o.ids.insert id fault
      | .none => o.ids.erase id }

end Outages

structure Store where
  directory : Directory
  policy : Policy
  outages : Outages

namespace Store

/-- What the store answers when asked for an id. -/
def lookup (s : Store) (id : String) : Except StoreFault (Option Entity) :=
  match s.outages.onLookup id with
  | some fault => .error fault
  | none => .ok (s.directory.find? id)

/-- What the store answers when asked for all entities of an identity provider. -/
def enumerate (s : Store) (idp : String) : Except StoreFault (List Entity) :=
  if s.policy.enumerates then
    match s.outages.enumeration with
    | some fault => .error fault
    | none => .ok (s.directory.ofIdp idp)
  else .error (.unsupported ("Enumerating authorizables of IDP " ++ idp))

end Store

end Enrolment
