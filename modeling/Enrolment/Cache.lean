import Enrolment.Principal

/-!
The cache of vetted standing groups, with its counters.

Every look-up through `take` counts as a hit or as a miss; other questions to the cache count as
nothing.
-/

namespace Enrolment

/-- What a cache reports of itself. -/
structure CacheStats where
  hits : Nat
  misses : Nat
  entries : Nat
  deriving DecidableEq, Repr

/-- The share of hits among all look-ups, and zero before the first.  The numerator and the sum are
rounded to doubles on their own, and then their quotient is. -/
def CacheStats.hitRate (s : CacheStats) : Float :=
  let total := s.hits + s.misses
  if total = 0 then 0
  else Float.ofScientific s.hits false 0 / Float.ofScientific total false 0

structure Cache where
  sets : Table GroupSet
  hits : Nat
  misses : Nat
  deriving Inhabited

namespace Cache

def empty : Cache := ⟨Table.empty, 0, 0⟩

/-- Looks up an IDP and counts the attempt. -/
def take (c : Cache) (idp : String) : Option GroupSet × Cache :=
  match c.sets.get? idp with
  | some set => (some set, { c with hits := c.hits + 1 })
  | none => (none, { c with misses := c.misses + 1 })

theorem take_of_some {c : Cache} {idp : String} {set : GroupSet} (h : c.sets.get? idp = some set) :
    c.take idp = (some set, { c with hits := c.hits + 1 }) := by
  rw [take, h]

theorem take_of_none {c : Cache} {idp : String} (h : c.sets.get? idp = none) :
    c.take idp = (none, { c with misses := c.misses + 1 }) := by
  rw [take, h]

def insert (c : Cache) (idp : String) (set : GroupSet) : Cache :=
  { c with sets := c.sets.insert idp set }

def contains (c : Cache) (idp : String) : Bool := c.sets.contains idp

def size (c : Cache) : Nat := c.sets.size

def stats (c : Cache) : CacheStats := ⟨c.hits, c.misses, c.size⟩

end Cache

end Enrolment
