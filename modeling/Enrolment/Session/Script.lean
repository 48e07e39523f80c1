import Enrolment.Session.Run

/-!
Scripts: steps in a row, some of them taken while a cursor over members is open.

What is reported of a step is its answer and its footprint.  While a cursor is open, taking its
next item is a step like any other and has its own footprint, because that is when providers are
asked.
-/

namespace Enrolment

inductive Action where
  | step (s : Step)
  /-- Takes the next item of the innermost open cursor. -/
  | next
  /-- Opens a cursor over the members of a group and acts while it is open. -/
  | browse (on : Nat) (group : Entity) (script : List Action)

/-- What one step did outside: reads in sorted order, calls in the order in which they were made,
and the lines noted, sorted. -/
structure Footprint where
  lookups : List String
  enumerations : List String
  calls : List (String × Direction)
  lines : List String

def sorted (texts : List String) : List String := texts.mergeSort fun a b => decide (a ≤ b)

def Footprint.ofEvents (events : List Event) : Footprint where
  lookups := sorted (Event.lookups events)
  enumerations := sorted (Event.enumerations events)
  calls := Event.calls events
  lines := sorted ((Event.notes events).map Diagnostic.line)

inductive Report where
  | single (answer : Answer) (footprint : Footprint)
  | script (reports : List Report)

namespace Session

def report (answer : Answer) (events : List Event) : Report :=
  .single answer (Footprint.ofEvents events)

mutual

/-- Performs one action, with the cursor that is open around it if there is one. -/
def act (s : Session) (cursor? : Option Cursor) : Action → Report × Option Cursor × Session
  | .step x =>
    let r := s.step x
    (report r.value.1 r.events, cursor?, r.value.2)
  | .next =>
    match cursor? with
    | some cursor =>
      let r := cursor.next s.world
      let answer := match r.value.1 with
        | some item => .item item
        | none => .nothing
      (report answer r.events, some r.value.2, s)
    | none => (report .nothing [], none, s)
  | .browse on group script =>
    match s.enrollers[on]? with
    | some (n, _) =>
      let (reports, s) := actAll s (some (n.members group)) script
      (.script reports, cursor?, s)
    | none => (report .nothing [], cursor?, s)

def actAll (s : Session) (cursor? : Option Cursor) : List Action → List Report × Session
  | [] => ([], s)
  | action :: actions =>
    let (r, cursor?, s) := act s cursor? action
    let (rs, s) := actAll s cursor? actions
    (r :: rs, s)

end

/-- What is reported of a whole session. -/
def run (s : Session) (actions : List Action) : List Report := (actAll s none actions).1

end Session

end Enrolment
