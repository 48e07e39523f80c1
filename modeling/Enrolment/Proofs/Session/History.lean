import Enrolment.Proofs.Enroller.CachedIdps
import Enrolment.Proofs.Enroller.PointMembership
import Enrolment.Proofs.Enroller.Questions
import Enrolment.Proofs.Session.Sharing

/-!
What a session keeps of its enrollers as it goes on.

Enrollers are never lost or replaced, so whatever a session does later, the enrollers over a cell
are the one enroller that was made with it, and the cell goes on from what it held
(`Sharing.cell_play`).  The trace of a cell over some moves, which is everything done in answer to
calls on the enrollers over it, is the trace of the run of its history (`Sharing.eventsOn_eq`).
-/

namespace Enrolment
namespace Session

/-! ## Enrollers stay -/

theorem enrollers_withCache (s : Session) (on : Nat) {f : Nat → Cache → Traced (Answer × Session)}
    (hf : ∀ k c, (f k c).value.2.enrollers = s.enrollers) :
    (s.withCache on f).value.2.enrollers = s.enrollers := by
  rw [withCache]
  split
  · exact hf _ _
  · rfl

theorem enrollers_cacheStep (s : Session) (x : CacheStep) :
    (s.cacheStep x).value.2.enrollers = s.enrollers := by
  cases x with
  | create => rfl
  | _ => exact s.enrollers_withCache _ fun _ _ => rfl

theorem enrollers_enrollerStep (s : Session) (x : EnrollerStep) :
    s.enrollers <+: (s.enrollerStep x).value.2.enrollers := by
  have hcreate : ∀ m, s.enrollers <+: (s.create m).2.enrollers := fun m =>
    List.prefix_append _ _
  cases x with
  | create config? =>
    cases config? with
    | none => exact hcreate s.standing
    | some text =>
      simp only [enrollerStep]
      split
      · exact hcreate _
      · exact List.prefix_refl _
  | copy on =>
    simp only [enrollerStep]
    split
    · exact List.prefix_append _ _
    · exact List.prefix_refl _
  | call on c =>
    simp only [enrollerStep]
    split <;> exact List.prefix_refl _
  | stats on =>
    simp only [enrollerStep]
    split <;> exact List.prefix_refl _

theorem enrollers_move (s : Session) (m : Move) : s.enrollers <+: (s.move m).enrollers := by
  cases m with
  | world w => exact List.prefix_refl _
  | step x =>
    cases x with
    | store x => exact (untouched_storeStep s x).1 ▸ List.prefix_refl _
    | standing x => exact (untouched_standingStep s x).1 ▸ List.prefix_refl _
    | registry x => exact (untouched_registryStep s x).1 ▸ List.prefix_refl _
    | enroller x => exact s.enrollers_enrollerStep x
    | cache x => exact enrollers_cacheStep s x ▸ List.prefix_refl _

theorem enrollers_play (s : Session) (moves : List Move) :
    s.enrollers <+: (s.play moves).enrollers := by
  induction moves generalizing s with
  | nil => exact List.prefix_refl _
  | cons m moves ih => exact (s.enrollers_move m).trans (ih (s.move m))

theorem getElem?_enrollers_play {s : Session} {on : Nat} {row : Enroller × Nat}
    (h : s.enrollers[on]? = some row) (moves : List Move) :
    (s.play moves).enrollers[on]? = some row := by
  obtain ⟨more, hmore⟩ := s.enrollers_play moves
  obtain ⟨hlt, _⟩ := List.getElem?_eq_some_iff.1 h
  rw [← hmore, List.getElem?_append_left hlt, h]

/-! ## A cell and its enroller -/

variable {past : Nat → List (World × Call)} {s : Session} {n : Enroller} {k : Nat}

theorem Sharing.cell_eq (h : Sharing past s) (hn : (n, k) ∈ s.enrollers) :
    s.cell k = (n.run (past k) Cache.empty).value.2 := by
  rw [cell, h.kept hn, Option.getD_some]

theorem Sharing.alike_play (h : Sharing past s) (hn : (n, k) ∈ s.enrollers) (moves : List Move)
    {m : Enroller} (hm : (m, k) ∈ (s.play moves).enrollers) : m = n :=
  (h.play moves).alike hm ((s.enrollers_play moves).subset hn)

/-- Whatever the session does, a cell goes on from what it holds by the calls made on it. -/
theorem Sharing.cell_play (h : Sharing past s) (hn : (n, k) ∈ s.enrollers) (moves : List Move) :
    (s.play moves).cell k = (n.run (callsOn k s moves) (s.cell k)).value.2 := by
  rw [(h.play moves).cell_eq ((s.enrollers_play moves).subset hn), Enroller.run_append,
    h.cell_eq hn]

/-! ## One call -/

/-- Asks an enroller for the groups of an entity. -/
def findGroups (on : Nat) (idp : String) (e : Entity) : Step := .enroller (.call on (.groups idp e))

/-- Asks an enroller for the IDPs that grant a principal. -/
def findIdps (on : Nat) (p : Principal) : Step := .enroller (.call on (.idpsGranting p))

theorem step_call {on : Nat} (hon : s.enrollers[on]? = some (n, k)) (c : Call) :
    (s.step (.enroller (.call on c))).value =
        (ofReply (n.perform s.world (s.cell k) c).value.1,
          s.setCell k (n.perform s.world (s.cell k) c).value.2) ∧
      (s.step (.enroller (.call on c))).events = (n.perform s.world (s.cell k) c).events := by
  simp only [step, enrollerStep, hon]
  constructor
  · rfl
  · show (n.perform s.world (s.cell k) c).events ++ [] = _
    rw [List.append_nil]

theorem answer_findGroups (hon : s.enrollers[on]? = some (n, k)) (idp : String) (e : Entity) :
    (s.step (findGroups on idp e)).value.1 =
      ofReply (.groups (n.groups s.world idp e (s.cell k)).value.1) := by
  rw [findGroups, (step_call hon _).1]
  rfl

theorem callOn_call {on : Nat} (hon : s.enrollers[on]? = some (n, k)) (c : Call) :
    s.callOn k (.step (.enroller (.call on c))) = [(s.world, c)] := by
  simp only [callOn, hon, if_true]

theorem move_call {on : Nat} (hon : s.enrollers[on]? = some (n, k)) (c : Call) :
    s.move (.step (.enroller (.call on c))) =
      s.setCell k (n.perform s.world (s.cell k) c).value.2 :=
  congrArg Prod.snd (step_call hon c).1

theorem Sharing.cell_move_call (h : Sharing past s) {on : Nat}
    (hon : s.enrollers[on]? = some (n, k)) (c : Call) :
    (s.move (.step (.enroller (.call on c)))).cell k =
      (n.perform s.world (s.cell k) c).value.2 := by
  have hplay := h.cell_play (List.mem_of_getElem? hon) [.step (.enroller (.call on c))]
  rw [callsOn, callOn_call hon] at hplay
  exact hplay

theorem getElem?_enrollers_call {on : Nat} (hon : s.enrollers[on]? = some (n, k)) (c : Call)
    (moves : List Move) :
    ((s.move (.step (.enroller (.call on c)))).play moves).enrollers[on]? = some (n, k) :=
  getElem?_enrollers_play hon (.step (.enroller (.call on c)) :: moves)

theorem Sharing.cell_play_call (h : Sharing past s) {on : Nat}
    (hon : s.enrollers[on]? = some (n, k)) (c : Call) (moves : List Move) :
    ((s.move (.step (.enroller (.call on c)))).play moves).cell k =
      (n.run (callsOn k (s.move (.step (.enroller (.call on c)))) moves)
        (n.perform s.world (s.cell k) c).value.2).value.2 := by
  have hn : (n, k) ∈ (s.move (.step (.enroller (.call on c)))).enrollers :=
    List.mem_of_getElem? (getElem?_enrollers_call hon c [])
  rw [(h.move _).cell_play hn, h.cell_move_call hon]

/-- The standing groups that a call finds for an IDP are found by every call later in the session,
in whatever store. -/
theorem Sharing.standingOver_later (h : Sharing past s) {on : Nat}
    (hon : s.enrollers[on]? = some (n, k)) {c : Call} {idp : String} (hu : c.uses idp = true)
    (moves : List Move) (store : Store) :
    n.standingOver (((s.move (.step (.enroller (.call on c)))).play moves).cell k) store idp =
      n.standingOver (s.cell k) s.world.store idp := by
  rw [h.cell_play_call hon, Enroller.standingOver_later n s.world (s.cell k) hu]

theorem Sharing.contains_later (h : Sharing past s) {on : Nat}
    (hon : s.enrollers[on]? = some (n, k)) {c : Call} {idp : String} (hu : c.uses idp = true)
    (hm : n.standing.hasIdp idp = true) (moves : List Move) :
    (((s.move (.step (.enroller (.call on c)))).play moves).cell k).contains idp = true := by
  rw [h.cell_play_call hon]
  exact n.contains_after_use s.world (s.cell k) hu hm _

theorem Sharing.alike_later (h : Sharing past s) {on on' : Nat}
    (hon : s.enrollers[on]? = some (n, k)) (c : Call) (moves : List Move) {m : Enroller}
    (hm : ((s.move (.step (.enroller (.call on c)))).play moves).enrollers[on']? = some (m, k)) :
    m = n :=
  h.alike_play (List.mem_of_getElem? hon) (.step (.enroller (.call on c)) :: moves)
    (List.mem_of_getElem? hm)

/-! ## The trace of a cell -/

/-- What is done in answer to the call that a move makes on an enroller over a cell. -/
def eventsOf (s : Session) (cell : Nat) : Move → List Event
  | .step (.enroller (.call on c)) =>
    match s.enrollers[on]? with
    | some (_, k) => if k = cell then (s.step (.enroller (.call on c))).events else []
    | none => []
  | _ => []

/-- The trace of a cell over some moves. -/
def eventsOn (cell : Nat) (s : Session) : List Move → List Event
  | [] => []
  | m :: moves => s.eventsOf cell m ++ eventsOn cell (s.move m) moves

theorem callOn_cases (s : Session) (cell : Nat) (m : Move) :
    (s.callOn cell m = [] ∧ s.eventsOf cell m = []) ∨
      ∃ on n c, m = .step (.enroller (.call on c)) ∧ s.enrollers[on]? = some (n, cell) ∧
        s.callOn cell m = [(s.world, c)] ∧
        s.eventsOf cell m = (n.perform s.world (s.cell cell) c).events := by
  cases m with
  | world w => exact .inl ⟨rfl, rfl⟩
  | step x =>
    cases x with
    | enroller x =>
      cases x with
      | call on c =>
        cases hon : s.enrollers[on]? with
        | none => exact .inl ⟨by simp only [callOn, hon], by simp only [eventsOf, hon]⟩
        | some row =>
          obtain ⟨n, k⟩ := row
          by_cases hk : k = cell
          · subst hk
            refine .inr ⟨on, n, c, rfl, hon, callOn_call hon c, ?_⟩
            simp only [eventsOf, hon, if_true]
            exact (step_call hon c).2
          · refine .inl ⟨?_, ?_⟩
            · simp only [callOn, hon, if_neg hk]
            · simp only [eventsOf, hon, if_neg hk]
      | _ => exact .inl ⟨rfl, rfl⟩
    | _ => exact .inl ⟨rfl, rfl⟩

/-- The trace of a cell is that of the run of its history, for the enroller over it in the end. -/
theorem Sharing.eventsOn_eq (h : Sharing past s) (moves : List Move)
    (hn : (n, k) ∈ (s.play moves).enrollers) :
    eventsOn k s moves =
      (n.run (callsOn k s moves) (n.run (past k) Cache.empty).value.2).events := by
  induction moves generalizing past s with
  | nil => rfl
  | cons m moves ih =>
    have hrest := ih (h.move m) hn
    rw [eventsOn, callsOn, hrest]
    rcases s.callOn_cases k m with ⟨hcall, hevents⟩ | ⟨on, n', c, rfl, hon, hcall, hevents⟩
    · rw [hcall, hevents, List.append_nil, List.nil_append, List.nil_append]
    · -- The enroller that is called is still there in the end, so it is `n`.
      have hn' : (n', k) ∈ s.enrollers := List.mem_of_getElem? hon
      have hsame : n = n' := h.alike_play hn' (.step (.enroller (.call on c)) :: moves) hn
      subst hsame
      rw [hcall, hevents, h.cell_eq hn', Enroller.run_append, List.singleton_append,
        Enroller.events_run_cons]
      rfl

/-! ## A small session -/

/-- A session over a world in which an IDP has one standing group and an outside provider. -/
def oneProvider (w : World) : Session :=
  let n := Enroller.oneProvider "ldap" "staff" rfl
  fresh w 1 n.standing n.registry

end Session
end Enrolment
