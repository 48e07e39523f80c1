import Enrolment.Store
import Enrolment.Traced

/-!
Reads of the store that leave a trace, and the vetting of group ids that is made of them.

A look-up counts whether it fails or not.  A store that cannot enumerate at all says so without
being read, so nothing is left in the trace then.

Vetting tells whether a group id, configured or reported by a provider, denotes a group in the
store.  Each id is looked up once and gets one `Verdict`.  An id that fails is dropped with a note
and never fails its caller.
-/

namespace Enrolment

inductive Verdict where
  | accepted (principal : Principal)
  | missing
  | notGroup
  /-- The entity is a group, but the principal of this name that stands for it is not one. -/
  | notGroupPrincipal (name : String)
  | unreadable (fault : StoreFault)
  deriving DecidableEq, Repr

namespace Verdict

def principal? : Verdict → Option Principal
  | .accepted p => some p
  | _ => none

/-- What is noted about an id with this verdict. -/
def note? (id : String) : Verdict → Option Diagnostic
  | .accepted _ => none
  | .missing => some (.missing id)
  | .notGroup => some (.notGroup id)
  | .notGroupPrincipal name => some (.notGroupPrincipal id name)
  | .unreadable fault => some (.lookupFailed id fault)

def report (id : String) (v : Verdict) : Traced Unit :=
  match v.note? id with
  | some d => Traced.emit (.note d)
  | none => return ()

theorem events_report (id : String) (v : Verdict) :
    (v.report id).events = (v.note? id).toList.map .note := by
  rw [report]
  cases v.note? id <;> rfl

end Verdict

/-- The verdict on an id for which a store has given this answer. -/
def Policy.verdict (p : Policy) : Except StoreFault (Option Entity) → Verdict
  | .error fault => .unreadable fault
  | .ok none => .missing
  | .ok (some e) =>
    if p.isGroup e then
      if p.isGroupPrincipal e.principal then .accepted e.principal
      else .notGroupPrincipal e.principal.name
    else .notGroup

namespace Store

/-! ## Reads -/

def get (s : Store) (id : String) : Traced (Except StoreFault (Option Entity)) :=
  ⟨s.lookup id, [.lookup id]⟩

def list (s : Store) (idp : String) : Traced (Except StoreFault (List Entity)) :=
  ⟨s.enumerate idp, if s.policy.enumerates then [.enumeration idp] else []⟩

/-! ## Vetting -/

/-- The verdict that vetting an id comes to. -/
def judge (s : Store) (id : String) : Verdict := s.policy.verdict (s.get id).value

def vet (s : Store) (id : String) : Traced (Option Principal) := do
  let verdict := s.policy.verdict (← s.get id)
  verdict.report id
  return verdict.principal?

/-- Vets the ids one by one and keeps the principals of those that pass. -/
def vetAll (s : Store) : List String → Traced (List Principal)
  | [] => return []
  | id :: ids => do
    let p? ← s.vet id
    let ps ← s.vetAll ids
    return p?.toList ++ ps

theorem judge_eq (s : Store) (id : String) : s.judge id = s.policy.verdict (s.lookup id) := rfl

theorem value_vet (s : Store) (id : String) : (s.vet id).value = (s.judge id).principal? := rfl

theorem events_vet (s : Store) (id : String) :
    (s.vet id).events = .lookup id :: ((s.judge id).note? id).toList.map .note := by
  show .lookup id :: (((s.judge id).report id).events ++ []) = _
  rw [List.append_nil, Verdict.events_report]

theorem value_vetAll (s : Store) (ids : List String) :
    (s.vetAll ids).value = ids.filterMap fun id => (s.judge id).principal? := by
  induction ids with
  | nil => rfl
  | cons id ids ih =>
    show (s.vet id).value.toList ++ (s.vetAll ids).value = _
    rw [value_vet, ih, List.filterMap_cons]
    cases (s.judge id).principal? <;> rfl

theorem events_vetAll_cons (s : Store) (id : String) (ids : List String) :
    (s.vetAll (id :: ids)).events = (s.vet id).events ++ (s.vetAll ids).events := by
  show _ ++ (_ ++ []) = _
  rw [List.append_nil]

/-- Vetting looks every id up once, in order, whatever comes of it. -/
theorem lookups_vetAll (s : Store) (ids : List String) :
    Event.lookups (s.vetAll ids).events = ids := by
  induction ids with
  | nil => rfl
  | cons id ids ih =>
    have hone : Event.lookups (s.vet id).events = [id] := by
      rw [events_vet, Event.lookups, List.filterMap_cons]
      cases s.judge id <;> rfl
    rw [events_vetAll_cons, Event.lookups_append, hone, ih]
    rfl

end Store

end Enrolment
