import Enrolment.Table

/-!
Standing groups: for each identity provider, the groups that an administrator gives to every
identity of it.

The lists are kept as they were configured, with order and repetitions; ids are not checked here.
-/

namespace Enrolment

structure Standing where
  groups : Table (List String)
  deriving DecidableEq, Inhabited

namespace Standing

def empty : Standing := ⟨Table.empty⟩

/-- Sets the groups of an IDP, whatever they were before. -/
def assign (m : Standing) (idp : String) (ids : List String) : Standing :=
  ⟨m.groups.insert idp ids⟩

def ofList (rows : List (String × List String)) : Standing :=
  rows.foldl (fun m row => m.assign row.1 row.2) empty

/-- The groups of an IDP; none if it is not mapped. -/
def groupIds (m : Standing) (idp : String) : List String := (m.groups.get? idp).getD []

def hasIdp (m : Standing) (idp : String) : Bool := m.groups.contains idp

def hasGroup (m : Standing) (idp id : String) : Bool := (m.groupIds idp).contains id

/-- The mapped IDPs, in increasing order. -/
def idps (m : Standing) : List String := m.groups.keys

def size (m : Standing) : Nat := m.groups.size

theorem groupIds_assign (m : Standing) (idp : String) (ids : List String) (other : String) :
    (m.assign idp ids).groupIds other = if other = idp then ids else m.groupIds other := by
  rw [groupIds, assign, Table.get?_insert]
  split
  · rfl
  · rfl

theorem hasIdp_assign (m : Standing) (idp : String) (ids : List String) (other : String) :
    (m.assign idp ids).hasIdp other = (other == idp || m.hasIdp other) := by
  rw [hasIdp, hasIdp, assign, Table.contains, Table.get?_insert, Table.contains]
  by_cases h : other = idp
  · simp [h]
  · simp [h]

end Standing

end Enrolment
