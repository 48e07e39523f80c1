import Enrolment.Diagnostic

/-!
Computations that leave a trace: which reads of the store they make, which providers they call and
what they note.

A `Traced` value is a result with the events that led to it, oldest first.  Binding runs the
second computation on the first result and puts its events behind, so the trace of a sequence is
the concatenation of the traces (`events_bind`).
-/

namespace Enrolment

/-- The two questions to a provider: the groups of an entity, and the members of a group. -/
inductive Direction where
  | forward
  | reverse
  deriving DecidableEq, Repr

def Direction.word : Direction → String
  | .forward => "forward"
  | .reverse => "reverse"

inductive Event where
  | lookup (id : String)
  | enumeration (idp : String)
  /-- A call of the provider that is registered for an IDP. -/
  | call (idp : String) (direction : Direction)
  | note (d : Diagnostic)
  deriving DecidableEq, Repr

structure Traced (α : Type) where
  value : α
  events : List Event

namespace Traced

variable {α β : Type}

instance : Monad Traced where
  pure a := ⟨a, []⟩
  bind x f := ⟨(f x.value).value, x.events ++ (f x.value).events⟩

@[simp] theorem value_pure (a : α) : (pure a : Traced α).value = a := rfl

@[simp] theorem events_pure (a : α) : (pure a : Traced α).events = [] := rfl

@[simp] theorem value_bind (x : Traced α) (f : α → Traced β) :
    (x >>= f).value = (f x.value).value := rfl

@[simp] theorem events_bind (x : Traced α) (f : α → Traced β) :
    (x >>= f).events = x.events ++ (f x.value).events := rfl

instance : LawfulMonad Traced := LawfulMonad.mk' Traced
  (fun x => by
    show (⟨x.value, x.events ++ []⟩ : Traced _) = x
    rw [List.append_nil])
  (fun _ _ => rfl)
  (fun x f g => by
    show (⟨_, (x.events ++ (f x.value).events) ++ _⟩ : Traced _) = ⟨_, x.events ++ (_ ++ _)⟩
    rw [List.append_assoc]
    rfl)

/-- Leaves one event. -/
def emit (e : Event) : Traced Unit := ⟨(), [e]⟩

end Traced

/-! ## Views of a trace -/

namespace Event

/-- The ids looked up, in order. -/
def lookups (events : List Event) : List String :=
  events.filterMap fun | .lookup id => some id | _ => none

/-- The IDPs enumerated, in order. -/
def enumerations (events : List Event) : List String :=
  events.filterMap fun | .enumeration idp => some idp | _ => none

def calls (events : List Event) : List (String × Direction) :=
  events.filterMap fun | .call idp direction => some (idp, direction) | _ => none

def notes (events : List Event) : List Diagnostic :=
  events.filterMap fun | .note d => some d | _ => none

@[simp] theorem lookups_append (xs ys : List Event) :
    lookups (xs ++ ys) = lookups xs ++ lookups ys := List.filterMap_append

@[simp] theorem calls_append (xs ys : List Event) : calls (xs ++ ys) = calls xs ++ calls ys :=
  List.filterMap_append

@[simp] theorem notes_append (xs ys : List Event) : notes (xs ++ ys) = notes xs ++ notes ys :=
  List.filterMap_append

end Event

end Enrolment
