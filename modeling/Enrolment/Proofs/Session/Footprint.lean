import Enrolment.Proofs.Enroller.Effects
import Enrolment.Proofs.Session.History

/-!
What an enroller of a session has looked up and asked for, read off the calls that were made on it
and its copies (`effects_of_history`).
-/

namespace Enrolment
namespace Session

/-- A trace is what an enroller does in answer to some calls, each with the world at its time. -/
structure Explained (n : Enroller) (past : List (World × Call)) (events : List Event) : Prop where
  /-- The configured ids of each mapped IDP that was used, once over the whole past and with
  repetitions, and the ids reported to each call for groups. -/
  lookups : (Event.lookups events).Perm
    ((n.standing.idps.filter (usedIn past)).flatMap n.standing.groupIds ++
      past.flatMap fun x => n.reportedIds x.1 x.2)
  /-- The providers called, call by call and in order. -/
  calls : Event.calls events = past.flatMap fun x => n.callsFor x.2
  /-- Point membership looks up nothing, whatever the world and the cache. -/
  isMember : ∀ w c idp group e,
    Event.lookups (n.perform w c (.isMember idp group e)).events = []
  /-- Nor does the search for members, taken as a whole or item by item in changing worlds; it does
  not ask for anyone's groups either. -/
  members : ∀ w c group, Event.lookups (n.perform w c (.members group)).events = [] ∧
    ∀ x ∈ Event.calls (n.perform w c (.members group)).events, x.2 = .reverse
  items : ∀ w (cursor : Cursor), Event.lookups (cursor.next w).events = [] ∧
    ∀ x ∈ Event.calls (cursor.next w).events, x.2 = .reverse
  /-- The provider asked is the one registered under exactly the name of the call: in a world where
  others answer differently, the calls do and answer the same. -/
  provider : ∀ (w w' : World) idp e, w.store = w'.store →
    (∀ p, (idp, p) ∈ n.registry.providers → p.groupsOf w e = p.groupsOf w' e) →
    (∀ c, n.perform w c (.groups idp e) = n.perform w' c (.groups idp e)) ∧
      ∀ c group, n.perform w c (.isMember idp group e) = n.perform w' c (.isMember idp group e)

theorem effects_of_history (w : World) (sources : Nat) (m : Standing) (r : Registry)
    (moves : List Move) {on cell : Nat} {n : Enroller}
    (hon : ((fresh w sources m r).play moves).enrollers[on]? = some (n, cell)) :
    Explained n (callsOn cell (fresh w sources m r) moves)
      (eventsOn cell (fresh w sources m r) moves) := by
  have hevents : eventsOn cell (fresh w sources m r) moves =
      (n.run (callsOn cell (fresh w sources m r) moves) Cache.empty).events :=
    (Sharing.fresh w sources m r).eventsOn_eq moves (List.mem_of_getElem? hon)
  rw [hevents]
  constructor
  · exact n.lookups_run_perm _
  · exact n.calls_run _ _
  · intro w c idp group e
    rw [(n.perform_isMember w c idp group e).2, Enroller.lookups_isMember]
  · intro w c group
    rw [n.calls_perform, (n.perform_members w c group).2, Enroller.lookups_members]
    refine ⟨rfl, fun x hx => ?_⟩
    obtain ⟨name, _, rfl⟩ := List.mem_map.1 hx
    rfl
  · intro w cursor
    exact cursor.events_next w
  · intro w w' idp e hstore h
    constructor
    · intro c
      rw [Enroller.perform, Enroller.perform, Enroller.groups_congr hstore h]
    · intro c group
      rw [Enroller.perform, Enroller.perform, Enroller.isMember_congr h]

/-- A provider that reports an id that nothing bears beside the one configured group. -/
def reportingSession : Session := oneProvider Enroller.reporting

def reportedCalls : List Move :=
  [.step (.enroller (.create none)), .step (.enroller (.copy 0)),
    .step (.enroller (.call 0 (.groups "ldap" (Entity.user "alice")))),
    .step (.enroller (.call 1 (.isMember "ldap" "guests" (Entity.user "alice")))),
    .step (.enroller (.call 1 (.isMember "ldap" "staff" (Entity.user "alice")))),
    .step (.enroller (.call 1 (.idpsGranting ⟨"staff", .group⟩))),
    .step (.enroller (.call 1 (.groups "ldap" (Entity.user "bob"))))]

/-- The configured group is looked up once for itself, and again whenever it is reported. -/
theorem effects_of_reportedCalls :
    let n := Enroller.oneProvider "ldap" "staff" rfl
    (reportingSession.play reportedCalls).enrollers[1]? = some (n, 0) ∧
      Explained n (callsOn 0 reportingSession reportedCalls)
        (eventsOn 0 reportingSession reportedCalls) ∧
      (Event.lookups (eventsOn 0 reportingSession reportedCalls)).Perm
        ["staff", "guests", "staff", "guests", "staff"] ∧
      Event.calls (eventsOn 0 reportingSession reportedCalls) =
        List.replicate 3 ("ldap", .forward) := by
  intro n
  have hon : (reportingSession.play reportedCalls).enrollers[1]? = some (n, 0) := rfl
  have hexplained := effects_of_history _ _ _ _ reportedCalls hon
  exact ⟨hon, hexplained, hexplained.lookups, hexplained.calls⟩

end Session
end Enrolment
