import Enrolment.Proofs.Session.Ambient

/-!
An enroller among others, and the same enroller alone.

Enrollers over different cells have nothing in common but the store and the outside providers.  To
take an enroller out of a session, keep what changes the store or a provider's answers, keep what
leads up to its making, put the questions to its copies to itself, and drop all else (`alone`).
Here the two sessions are followed up to the making of the enroller (`follows_before`).
-/

namespace Enrolment

namespace Step

/-- The enroller that a step asks something. -/
def asked? : Step → Option Nat
  | .enroller (.call on _) => some on
  | .enroller (.stats on) => some on
  | .standing (.query on _) => on
  | _ => none

/-- The same question to another enroller. -/
def askedOf (on : Nat) : Step → Step
  | .enroller (.call _ c) => .enroller (.call on c)
  | .enroller (.stats _) => .enroller (.stats on)
  | .standing (.query (some _) q) => .standing (.query (some on) q)
  | x => x

end Step

namespace Session

/-- Whether an enroller is over a cell. -/
def isOver (s : Session) (cell on : Nat) : Bool := (s.enrollers[on]?).any (·.2 == cell)

/-- What is left of a step where the enroller over a cell is to be the only one. -/
def keep (s : Session) (cell : Nat) (x : Step) : Option Step :=
  match x.asked? with
  | some on => if s.isOver cell on then some (x.askedOf 0) else none
  | none =>
    match x with
    | .store _ | .registry (.setGroups ..) | .registry (.setMembers ..) => some x
    | .standing _ | .registry _ =>
      -- What comes later is not for this enroller, which has been made.
      if s.cells.length ≤ cell then some x else none
    | .enroller (.create _) => if s.cells.length = cell then some x else none
    | .enroller _ | .cache _ => none

def keepMove (s : Session) (cell : Nat) : Move → List Move
  | .step x => (s.keep cell x).toList.map .step
  | .world w => [.world w]

/-- The moves of a session in which the enroller over a cell is the only one. -/
def alone (cell : Nat) (s : Session) : List Move → List Move
  | [] => []
  | m :: moves => s.keepMove cell m ++ alone cell (s.move m) moves

/-- The answer that a move gets from an enroller over a cell, if it asks one. -/
def answerOf (s : Session) (cell : Nat) : Move → List Answer
  | .step x =>
    match x.asked? with
    | some on => if s.isOver cell on then [(s.step x).value.1] else []
    | none => []
  | .world _ => []

/-- The answers that the enrollers over a cell give in the course of some moves. -/
def answersOn (cell : Nat) (s : Session) : List Move → List Answer
  | [] => []
  | m :: moves => s.answerOf cell m ++ answersOn cell (s.move m) moves

variable {past : Nat → List (World × Call)} {s t : Session} {n : Enroller} {cell : Nat}

theorem answersOn_append (cell : Nat) (s : Session) (xs ys : List Move) :
    answersOn cell s (xs ++ ys) = answersOn cell s xs ++ answersOn cell (s.play xs) ys := by
  induction xs generalizing s with
  | nil => rfl
  | cons x xs ih =>
    rw [List.cons_append, answersOn, ih, answersOn, List.append_assoc]
    rfl

theorem play_append (s : Session) (xs ys : List Move) :
    s.play (xs ++ ys) = (s.play xs).play ys := List.foldl_append

theorem isOver_iff {on : Nat} :
    s.isOver cell on = true ↔ ∃ n, s.enrollers[on]? = some (n, cell) := by
  rw [isOver]
  cases s.enrollers[on]? with
  | none => simp
  | some row =>
    obtain ⟨n, k⟩ := row
    simp

/-! ## How the two sessions stand to each other

`s` is the session with everything in it, and `t` the one that has only the enroller over the cell.
Until the enroller is made, `t` lacks the other enrollers and nothing else. -/

/-- The enroller over a cell of `s`, and the same enroller alone in `t`. -/
structure Mirrored (n : Enroller) (cell : Nat) (s t : Session) : Prop where
  present : (n, cell) ∈ s.enrollers
  rows : n.registry.providers ⊆ s.registry.providers
  alike : World.Alike n.registry s.world t.world
  registry : t.registry = n.registry
  enrollers : t.enrollers = [(n, 0)]
  cells : t.cells = [s.cell cell]

inductive Reduced (cell : Nat) : Session → Session → Prop
  | before {s : Session} : s.cells.length ≤ cell → Reduced cell s s.ambient
  | since {s t : Session} {n : Enroller} : Mirrored n cell s t → Reduced cell s t
  /-- The cell belongs to a cache that stands alone. -/
  | never {s t : Session} : cell ∈ s.caches → t.enrollers = [] → Reduced cell s t

theorem Sharing.cell_move (h : Sharing past s) (hn : (n, cell) ∈ s.enrollers) {m : Move}
    (hm : s.callOn cell m = []) : (s.move m).cell cell = s.cell cell := by
  have hplay := h.cell_play hn [m]
  rw [callsOn, hm] at hplay
  exact hplay

/-! ## Moves before the enroller is made -/

theorem isOver_of_length_le (h : Sharing past s) (hlen : s.cells.length ≤ cell) (on : Nat) :
    s.isOver cell on = false := by
  refine Bool.eq_false_iff.2 fun hover => ?_
  obtain ⟨n, hn⟩ := isOver_iff.1 hover
  have hlt := h.lt_length (List.mem_of_getElem? hn)
  omega

theorem Reduced.of_ambient (hlen : s.cells.length ≤ cell) (ht : t = s.ambient) :
    Reduced cell s t := ht ▸ .before hlen

/-- The two sides of a move: how the sessions stand to each other after it, and its answer. -/
def Follows (cell : Nat) (s t : Session) (m : Move) : Prop :=
  Reduced cell (s.move m) (t.play (s.keepMove cell m)) ∧
    answersOn 0 t (s.keepMove cell m) = s.answerOf cell m

/-- A step that is kept before the enroller is made. -/
theorem follows_kept {x : Step} (hkeep : s.keep cell x = some x) (hasked : x.asked? = none)
    (hreduced : Reduced cell (s.step x).value.2 (t.step x).value.2) :
    Follows cell s t (.step x) := by
  rw [Follows, keepMove, hkeep]
  refine ⟨hreduced, ?_⟩
  simp only [Option.toList_some, List.map_cons, List.map_nil, answersOn, answerOf, hasked,
    List.append_nil]

/-- A step that is dropped. -/
theorem follows_dropped {x : Step} (hkeep : s.keep cell x = none)
    (hanswer : s.answerOf cell (.step x) = [])
    (hreduced : Reduced cell (s.step x).value.2 t) : Follows cell s t (.step x) := by
  rw [Follows, keepMove, hkeep, hanswer]
  exact ⟨hreduced, rfl⟩

/-- A question to an enroller over another cell. -/
theorem follows_unasked {x : Step} {on : Nat} (hasked : x.asked? = some on)
    (hover : s.isOver cell on = false) (hreduced : Reduced cell (s.step x).value.2 t) :
    Follows cell s t (.step x) := by
  refine follows_dropped ?_ ?_ hreduced
  · simp only [keep, hasked, hover, Bool.false_eq_true, if_false]
  · simp only [answerOf, hasked, hover, Bool.false_eq_true, if_false]

/-- A step that only matters until the cell is there. -/
theorem follows_late {x : Step} (hlt : cell < s.cells.length)
    (hkeep : s.keep cell x = if s.cells.length ≤ cell then some x else none)
    (hanswer : s.answerOf cell (.step x) = [])
    (hreduced : Reduced cell (s.step x).value.2 t) : Follows cell s t (.step x) := by
  rw [if_neg (Nat.not_le_of_lt hlt)] at hkeep
  exact follows_dropped hkeep hanswer hreduced

/-- An enroller that is made over another cell. -/
theorem follows_create_elsewhere {config? : Option String} (hne : s.cells.length ≠ cell)
    (hreduced : Reduced cell (s.step (.enroller (.create config?))).value.2 t) :
    Follows cell s t (.step (.enroller (.create config?))) := by
  refine follows_dropped ?_ rfl hreduced
  simp only [keep, Step.asked?, if_neg hne]

/-- The enroller that is made from the text of a configuration, or from the standing groups at
present. -/
def making? (s : Session) : Option String → Option Enroller
  | none => some ⟨s.standing, s.registry⟩
  | some text =>
    match Configuration.ofText text with
    | .ok c => some ⟨Standing.ofConfiguration c, s.registry⟩
    | .error _ => none

theorem create_eq (s : Session) (config? : Option String) :
    (s.step (.enroller (.create config?))).value.2 =
      match s.making? config? with
      | some n => s.newCell.1.addEnroller n s.cells.length
      | none => s := by
  cases config? with
  | none => rfl
  | some text =>
    simp only [step, enrollerStep, making?]
    cases Configuration.ofText text <;> rfl

theorem length_enrollerStep (s : Session) {x : EnrollerStep} (hx : ∀ config?, x ≠ .create config?) :
    (s.enrollerStep x).value.2.cells.length = s.cells.length := by
  cases x with
  | create config? => exact absurd rfl (hx config?)
  | copy on =>
    simp only [enrollerStep]
    split <;> rfl
  | call on c =>
    simp only [enrollerStep]
    split
    · exact s.length_setCell _ _
    · rfl
  | stats on =>
    simp only [enrollerStep]
    split <;> rfl

theorem cell_newCell (s : Session) : s.newCell.1.cell s.cells.length = Cache.empty := by
  show ((s.cells ++ [Cache.empty])[s.cells.length]?).getD Cache.empty = _
  rw [List.getElem?_concat_length]
  rfl

theorem registry_making {config? : Option String} (h : s.making? config? = some n) :
    n.registry = s.registry := by
  cases config? with
  | none => rw [← Option.some.inj h]
  | some text =>
    rw [making?] at h
    split at h
    · rw [← Option.some.inj h]
    · cases h

/-- An enroller that has just been made, and the same enroller made alone. -/
theorem mirrored_making {config? : Option String} (h : s.making? config? = some n) :
    Mirrored n s.cells.length (s.newCell.1.addEnroller n s.cells.length)
      (s.ambient.newCell.1.addEnroller n 0) where
  present := List.mem_append_right _ (List.mem_singleton.2 rfl)
  rows := registry_making h ▸ List.Subset.refl _
  alike := World.Alike.refl _ _
  registry := (registry_making h).symm
  enrollers := rfl
  cells := congrArg (fun c => [c]) s.cell_newCell.symm

theorem follows_before_enroller (h : Sharing past s) (hlen : s.cells.length ≤ cell)
    (x : EnrollerStep) : Follows cell s s.ambient (.step (.enroller x)) := by
  have hsame := (s.ambient_enrollerStep x).symm
  cases x with
  | create config? =>
    by_cases hcell : s.cells.length = cell
    · have hkeep : s.keep cell (.enroller (.create config?)) =
          some (.enroller (.create config?)) := by
        simp only [keep, Step.asked?, hcell, if_true]
      refine follows_kept hkeep rfl ?_
      have hmaking : s.ambient.making? config? = s.making? config? := by cases config? <;> rfl
      rw [create_eq, create_eq, hmaking]
      cases hmade : s.making? config? with
      | none => exact .before hlen
      | some n => exact hcell ▸ .since (mirrored_making hmade)
    · refine follows_create_elsewhere hcell (.of_ambient ?_ hsame)
      rw [create_eq]
      split
      · show (s.cells ++ [Cache.empty]).length ≤ cell
        rw [List.length_append, List.length_singleton]
        omega
      · exact hlen
  | copy on =>
    have hlength := s.length_enrollerStep (x := .copy on) fun _ hx => nomatch hx
    exact follows_dropped rfl rfl (.of_ambient (Nat.le_trans (Nat.le_of_eq hlength) hlen) hsame)
  | call on c =>
    have hlength := s.length_enrollerStep (x := .call on c) fun _ hx => nomatch hx
    exact follows_unasked rfl (isOver_of_length_le h hlen on)
      (.of_ambient (Nat.le_trans (Nat.le_of_eq hlength) hlen) hsame)
  | stats on =>
    have hlength := s.length_enrollerStep (x := .stats on) fun _ hx => nomatch hx
    exact follows_unasked rfl (isOver_of_length_le h hlen on)
      (.of_ambient (Nat.le_trans (Nat.le_of_eq hlength) hlen) hsame)

theorem length_cacheStep (s : Session) {x : CacheStep} (hx : x ≠ .create) :
    (s.cacheStep x).value.2.cells.length = s.cells.length := by
  cases x with
  | create => exact absurd rfl hx
  | insert on idp ids =>
    simp only [cacheStep, withCache]
    split
    · exact s.length_setCell _ _
    · rfl
  | take on idp =>
    simp only [cacheStep, withCache]
    split
    · exact s.length_setCell _ _
    · rfl
  | _ =>
    simp only [cacheStep, withCache]
    split <;> rfl

theorem follows_before_cache (hlen : s.cells.length ≤ cell) (x : CacheStep) :
    Follows cell s s.ambient (.step (.cache x)) := by
  refine follows_dropped rfl rfl ?_
  by_cases hx : x = .create
  · subst hx
    by_cases hcell : s.cells.length = cell
    · exact .never (List.mem_append_right _ (List.mem_singleton.2 hcell.symm)) rfl
    · refine .of_ambient ?_ (s.ambient_cacheStep _).symm
      show (s.cells ++ [Cache.empty]).length ≤ cell
      rw [List.length_append, List.length_singleton]
      omega
  · exact .of_ambient (by rw [step, length_cacheStep s hx]; exact hlen) (s.ambient_cacheStep x).symm

theorem follows_before (h : Sharing past s) (hlen : s.cells.length ≤ cell) (m : Move) :
    Follows cell s s.ambient m := by
  cases m with
  | world w => exact ⟨.before hlen, rfl⟩
  | step x =>
    cases x with
    | store x =>
      refine follows_kept rfl rfl (.of_ambient ?_ ?_)
      · exact (untouched_storeStep s x).2.2.symm ▸ hlen
      · show (s.ambient.storeStep x).value.2 = (s.storeStep x).value.2.ambient
        rw [storeStep_eq, storeStep_eq]
        rfl
    | standing x =>
      have hreduced : Reduced cell (s.step (.standing x)).value.2
          (s.ambient.step (.standing x)).value.2 :=
        .of_ambient ((untouched_standingStep s x).2.2.symm ▸ hlen) (s.ambient_standingStep x)
      cases hasked : (Step.standing x).asked? with
      | none =>
        have hkeep : s.keep cell (.standing x) = some (.standing x) := by
          simp only [keep, hasked, hlen, if_true]
        exact follows_kept hkeep hasked hreduced
      | some on =>
        cases x with
        | query on? q => exact follows_unasked hasked (isOver_of_length_le h hlen on) (.before hlen)
        | _ => cases hasked
    | registry x =>
      have hkeep : s.keep cell (.registry x) = some (.registry x) := by
        cases x <;> simp only [keep, Step.asked?, hlen, if_true]
      refine follows_kept hkeep rfl (.of_ambient ?_ (s.ambient_registryStep x))
      exact (untouched_registryStep s x).2.2.symm ▸ hlen
    | enroller x => exact follows_before_enroller h hlen x
    | cache x => exact follows_before_cache hlen x

end Session
end Enrolment
