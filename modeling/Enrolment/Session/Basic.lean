import Enrolment.Configuration
import Enrolment.Enroller.Call

/-!
Sessions: a store, standing groups and a registry that change step by step, and the enrollers and
caches that are made along the way.

An enroller keeps the standing groups and the registry of the moment at which it was made.  Caches
live in numbered cells; a copy of an enroller, or of a cache, refers to the same cell.
-/

namespace Enrolment

/-- An outside provider that has no groups for anyone and no members for any group. -/
def Source.silent : Source := ⟨fun _ => .ok Table.empty, fun _ => .ok []⟩

structure Session where
  world : World
  /-- The number of outside providers so far. -/
  sources : Nat
  standing : Standing
  registry : Registry
  /-- The enrollers, each with the cell of its cache. -/
  enrollers : List (Enroller × Nat)
  /-- The cells of the caches that stand alone. -/
  caches : List Nat
  cells : List Cache

namespace Session

/-- A session over a store that holds the given entities, added in order. -/
def start (policy : Policy) (entities : List Entity) : Session where
  world := ⟨⟨Directory.ofList entities, policy, Outages.none⟩, fun _ => Source.silent⟩
  sources := 0
  standing := Standing.empty
  registry := Registry.empty
  enrollers := []
  caches := []
  cells := []

def store (s : Session) : Store := s.world.store

def setStore (s : Session) (store : Store) : Session :=
  { s with world := { s.world with store } }

def setDirectory (s : Session) (d : Directory) : Session :=
  s.setStore { s.store with directory := d }

def setOutages (s : Session) (o : Outages) : Session := s.setStore { s.store with outages := o }

/-- A new empty cache, and the number of its cell. -/
def newCell (s : Session) : Session × Nat :=
  ({ s with cells := s.cells ++ [Cache.empty] }, s.cells.length)

def cell (s : Session) (k : Nat) : Cache := (s.cells[k]?).getD Cache.empty

def setCell (s : Session) (k : Nat) (c : Cache) : Session := { s with cells := s.cells.set k c }

/-- A new enroller over a cell. -/
def addEnroller (s : Session) (n : Enroller) (cell : Nat) : Session :=
  { s with enrollers := s.enrollers ++ [(n, cell)] }

def addCache (s : Session) (cell : Nat) : Session := { s with caches := s.caches ++ [cell] }

/-- The standing groups of an enroller, or those that the session has at present. -/
def standingOf (s : Session) : Option Nat → Standing
  | some on => ((s.enrollers[on]?).map (·.1.standing)).getD Standing.empty
  | none => s.standing

end Session

end Enrolment
