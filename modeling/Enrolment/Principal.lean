import Enrolment.Table

/-!
Principals, and sets of group principals.

A principal is a name and a kind.  Groups are told apart by name alone, so a `GroupSet` holds at
most one kind for a name, and the first principal inserted under a name stays.
-/

namespace Enrolment

namespace Principal

inductive Kind where
  | user
  | group
  | other
  deriving DecidableEq, Repr, Inhabited

/-- The word for a kind in documents and answers. -/
def Kind.word : Kind → String
  | .user => "user"
  | .group => "group"
  | .other => "other"

def Kind.ofWord? : String → Option Kind
  | "user" => some .user
  | "group" => some .group
  | "other" => some .other
  | _ => none

theorem Kind.ofWord?_word (k : Kind) : Kind.ofWord? k.word = some k := by
  cases k <;> rfl

end Principal

structure Principal where
  name : String
  kind : Principal.Kind
  deriving DecidableEq, Repr, Inhabited

/-- Group principals, at most one for a name. -/
structure GroupSet where
  kinds : Table Principal.Kind
  deriving DecidableEq, Inhabited

namespace GroupSet

def empty : GroupSet := ⟨Table.empty⟩

/-- Adds a principal unless its name is taken. -/
def insert (s : GroupSet) (p : Principal) : GroupSet := ⟨s.kinds.insertNew p.name p.kind⟩

def insertAll (s : GroupSet) (ps : List Principal) : GroupSet := ps.foldl insert s

def ofList (ps : List Principal) : GroupSet := empty.insertAll ps

/-- The principals in increasing order of their names. -/
def toList (s : GroupSet) : List Principal := s.kinds.rows.map fun row => ⟨row.1, row.2⟩

def size (s : GroupSet) : Nat := s.kinds.size

/-- Whether the set has a principal of this name. -/
def hasName (s : GroupSet) (name : String) : Bool := s.kinds.contains name

/-- The principal of this name. -/
def find? (s : GroupSet) (name : String) : Option Principal :=
  (s.kinds.get? name).map (⟨name, ·⟩)

/-- A name that is taken keeps its principal. -/
theorem find?_insert (s : GroupSet) (p : Principal) (name : String) :
    (s.insert p).find? name =
      (s.find? name).or (if name = p.name then some p else none) := by
  simp only [insert, find?, Table.insertNew]
  by_cases hn : name = p.name
  · subst hn
    rw [if_pos rfl]
    by_cases h : s.kinds.contains p.name = true
    · rw [if_pos h]
      obtain ⟨k, hk⟩ := Option.isSome_iff_exists.1 h
      rw [hk]
      rfl
    · rw [if_neg h, Table.get?_insert, if_pos rfl]
      have hk : s.kinds.get? p.name = none := by simpa [Table.contains] using h
      rw [hk]
      rfl
  · rw [if_neg hn, Option.or_none]
    split
    · rfl
    · rw [Table.get?_insert, if_neg hn]

end GroupSet

end Enrolment
