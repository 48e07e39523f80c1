import Enrolment.Proofs.Session.Isolation

/-!
Enrollers of a session are isolated from each other, and an enroller and its copies are one
(`enrollers_isolated`).

Which enrollers are copies of each other shows in the cell: a new enroller gets a cell that no
other has, and a copy the cell of the enroller that it is a copy of.
-/

namespace Enrolment
namespace Session

variable {past : Nat → List (World × Call)} {s : Session} {n : Enroller} {cell : Nat}

/-! ## What enrollers are made with stays -/

/-- Whatever comes later, a new enroller has the standing groups and the registry that it was made
with, and so does everyone over its cell, which is new as well. -/
theorem Sharing.made (h : Sharing past s) {config? : Option String}
    (hmade : s.making? config? = some n) (after : List Move) :
    ((s.move (.step (.enroller (.create config?)))).play after).enrollers[s.enrollers.length]? =
        some (n, s.cells.length) ∧
      (∀ m, (m, s.cells.length) ∉ s.enrollers) ∧
      ∀ m, (m, s.cells.length) ∈
        ((s.move (.step (.enroller (.create config?)))).play after).enrollers → m = n := by
  have hmove : s.move (.step (.enroller (.create config?))) =
      s.newCell.1.addEnroller n s.cells.length := by
    rw [Session.move, create_eq, hmade]
  have hnew : (s.move (.step (.enroller (.create config?)))).enrollers[s.enrollers.length]? =
      some (n, s.cells.length) := by
    rw [hmove]
    exact List.getElem?_concat_length
  refine ⟨getElem?_enrollers_play hnew after, ?_, ?_⟩
  · exact fun m hm => Nat.lt_irrefl _ (h.lt_length hm)
  · exact fun m => (h.move _).alike_play (List.mem_of_getElem? hnew) after

theorem copied {on : Nat} (hon : s.enrollers[on]? = some (n, cell)) (after : List Move) :
    ((s.move (.step (.enroller (.copy on)))).play after).enrollers[s.enrollers.length]? =
      some (n, cell) := by
  refine getElem?_enrollers_play ?_ after
  simp only [move, step, enrollerStep, hon]
  exact List.getElem?_concat_length

/-! ## Copies stand in for each other -/

/-- The same move, or the same question to another enroller over the same cell. -/
inductive Redirected (s : Session) : Move → Move → Prop
  | same (m : Move) : Redirected s m m
  | other {x : Step} {on on' cell : Nat} : x.asked? = some on → s.isOver cell on = true →
      s.isOver cell on' = true → Redirected s (.step x) (.step (x.askedOf on'))

/-- Moves whose questions are distributed in another way over the enrollers over each cell. -/
inductive Redistributed : Session → List Move → List Move → Prop
  | nil {s : Session} : Redistributed s [] []
  | cons {s : Session} {m m' : Move} {ms ms' : List Move} : Redirected s m m' →
      Redistributed (s.move m) ms ms' → Redistributed s (m :: ms) (m' :: ms')

/-- What the steps of a session answer, each with its trace. -/
def results (s : Session) : List Move → List (Traced Answer)
  | [] => []
  | .step x :: moves => (Prod.fst <$> s.step x) :: results (s.move (.step x)) moves
  | .world w :: moves => results (s.move (.world w)) moves

/-- No step tells an enroller from another over the same cell. -/
theorem Sharing.step_askedOf (h : Sharing past s) {x : Step} {on on' : Nat}
    (hasked : x.asked? = some on) (hover : s.isOver cell on = true)
    (hover' : s.isOver cell on' = true) : s.step (x.askedOf on') = s.step x := by
  obtain ⟨n, hn⟩ := isOver_iff.1 hover
  obtain ⟨n', hn'⟩ := isOver_iff.1 hover'
  obtain rfl : n' = n := h.alike (List.mem_of_getElem? hn') (List.mem_of_getElem? hn)
  have hrow : s.enrollers[on']? = s.enrollers[on]? := hn'.trans hn.symm
  cases x with
  | enroller x =>
    cases x with
    | call i c =>
      obtain rfl : i = on := Option.some.inj hasked
      simp only [Step.askedOf, step, Session.enrollerStep, hrow]
    | stats i =>
      obtain rfl : i = on := Option.some.inj hasked
      simp only [Step.askedOf, step, Session.enrollerStep, hrow]
    | _ => cases hasked
  | standing x =>
    cases x with
    | query i q =>
      obtain rfl : i = some on := hasked
      simp only [Step.askedOf, step, standingStep, standingOf, hrow]
    | _ => cases hasked
  | _ => cases hasked

theorem results_redistributed (h : Sharing past s) {moves moves' : List Move}
    (hmoves : Redistributed s moves moves') :
    results s moves' = results s moves ∧ s.play moves' = s.play moves := by
  induction hmoves generalizing past with
  | nil => exact ⟨rfl, rfl⟩
  | @cons s m m' ms ms' hredirected _ ih =>
    obtain ⟨hresults, hplay⟩ := ih (h.move m)
    cases hredirected with
    | same =>
      refine ⟨?_, hplay⟩
      cases m with
      | step x => exact congrArg ((Prod.fst <$> s.step x) :: ·) hresults
      | world w => exact hresults
    | @other x on on' cell hasked hover hover' =>
      have hstep := h.step_askedOf hasked hover hover'
      have hmove : s.move (.step (x.askedOf on')) = s.move (.step x) := by
        rw [move, hstep]
        rfl
      constructor
      · rw [results, results, hstep, hmove, hresults]
      · show (s.move (.step (x.askedOf on'))).play ms' = (s.move (.step x)).play ms
        rw [hmove, hplay]

/-! ## Isolation -/

/-- Enrollers have nothing to do with each other in the course of some moves, unless they are over
one cell, and then they are one. -/
structure Isolated (s : Session) (moves : List Move) : Prop where
  /-- The answers of an enroller and its copies, their statistics among them, are those that it
  gives where it is the only one. -/
  answers : ∀ cell, answersOn cell s moves = answersOn 0 s (alone cell s moves)
  /-- So are the items that its cursors give, one by one. -/
  cursors : ∀ {n cell}, (n, cell) ∈ (s.play moves).enrollers → ∀ {cursor : Cursor},
    cursor.waiting ⊆ n.registry.providers →
      cursor.next (s.play moves).world = cursor.next (s.play (alone cell s moves)).world ∧
        (cursor.next (s.play moves).world).value.2.waiting ⊆ n.registry.providers
  /-- An enroller stays what it was made as, and no one else gets its cell but its copies. -/
  made : ∀ {before config? after n},
    moves = before ++ .step (.enroller (.create config?)) :: after →
      (s.play before).making? config? = some n →
        (s.play moves).enrollers[(s.play before).enrollers.length]? =
            some (n, (s.play before).cells.length) ∧
          (∀ m, (m, (s.play before).cells.length) ∉ (s.play before).enrollers) ∧
          ∀ m, (m, (s.play before).cells.length) ∈ (s.play moves).enrollers → m = n
  copied : ∀ {before on after n cell}, moves = before ++ .step (.enroller (.copy on)) :: after →
    (s.play before).enrollers[on]? = some (n, cell) →
      (s.play moves).enrollers[(s.play before).enrollers.length]? = some (n, cell)
  /-- Which copy a question is put to makes no difference to anything. -/
  redistributed : ∀ {moves'}, Redistributed s moves moves' →
    results s moves' = results s moves ∧ s.play moves' = s.play moves
  statistics : ∀ {on on' cell}, (s.play moves).isOver cell on = true →
    (s.play moves).isOver cell on' = true →
      (s.play moves).step (.enroller (.stats on')) = (s.play moves).step (.enroller (.stats on))

theorem enrollers_isolated (policy : Policy) (entities : List Entity) (moves : List Move) :
    Isolated (start policy entities) moves := by
  have hs : Sharing (fun _ => []) (start policy entities) := Sharing.fresh _ _ _ _
  have hnumbered : Numbered (start policy entities) :=
    ⟨fun h => absurd h List.not_mem_nil, fun h => absurd h List.not_mem_nil⟩
  have hreduced (cell : Nat) : Reduced cell (start policy entities) (start policy entities) :=
    .before (Nat.zero_le cell)
  generalize start policy entities = s at hs hnumbered hreduced ⊢
  have hlater := hs.play moves
  constructor
  · exact fun cell => (answers_alone hs hnumbered (hreduced cell) moves).2.symm
  · intro n cell hn cursor hwaiting
    have halike : World.Alike n.registry (s.play moves).world
        (s.play (alone cell s moves)).world := by
      have hend := (answers_alone hs hnumbered (hreduced cell) moves).1
      generalize s.play moves = u, s.play (alone cell s moves) = v at hn hlater hend
      cases hend with
      | before hlen => exact World.Alike.refl _ _
      | since hmirrored =>
        obtain rfl := hlater.alike hn hmirrored.present
        exact hmirrored.alike
      | never hcache => exact absurd hcache (hlater.apart hn)
    exact halike.next hwaiting
  · rintro before config? after n rfl hmade
    have hbefore := hs.play before
    rw [play_append]
    exact hbefore.made hmade after
  · rintro before on after n cell rfl hon
    rw [play_append]
    exact copied hon after
  · exact results_redistributed hs
  · intro on on' cell hover hover'
    exact hlater.step_askedOf (x := .enroller (.stats on)) rfl hover hover'

/-- Of two enrollers the second, which is asked through a copy. -/
example :
    alone 1 (start Policy.byKind [])
        [.step (.enroller (.create none)), .step (.standing (.assign "ldap" ["staff"])),
          .step (.enroller (.create none)), .step (.enroller (.copy 1)),
          .step (.store (.add (Entity.group "staff"))),
          .step (.standing (.assign "ldap" [])), .step (.enroller (.stats 0)),
          .step (.enroller (.call 2 (.groups "ldap" (Entity.user "alice"))))] =
      [.step (.standing (.assign "ldap" ["staff"])), .step (.enroller (.create none)),
        .step (.store (.add (Entity.group "staff"))),
        .step (.enroller (.call 0 (.groups "ldap" (Entity.user "alice"))))] := rfl

end Session
end Enrolment
