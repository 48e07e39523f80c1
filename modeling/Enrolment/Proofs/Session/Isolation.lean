import Enrolment.Proofs.Session.Reduction

/-!
An enroller alone gives the answers that it gave among others (`answers_alone`).

From its making on, the two sessions agree on the enroller, its cell and what it sees of the world
(`Mirrored`).  A provider that is registered later may answer differently in the two, but it is none
of the enroller's.
-/

namespace Enrolment
namespace Session

variable {past : Nat → List (World × Call)} {s t : Session} {n : Enroller} {cell : Nat}

/-! ## Moves after the enroller is made -/

/-- Both sessions may come into alike worlds. -/
theorem Mirrored.withWorld (h : Mirrored n cell s t) {w w' : World}
    (halike : World.Alike n.registry w w') :
    Mirrored n cell { s with world := w } { t with world := w' } :=
  ⟨h.present, h.rows, halike, h.registry, h.enrollers, h.cells⟩

/-- The session with everything in it may go on in a way that the enroller does not notice. -/
theorem Mirrored.of_unnoticed (h : Mirrored n cell s t) (hs : Sharing past s) {m : Move}
    (hcall : s.callOn cell m = [])
    (hrows : s.registry.providers ⊆ (s.move m).registry.providers)
    (halike : World.Alike n.registry s.world (s.move m).world) : Mirrored n cell (s.move m) t where
  present := (s.enrollers_move m).subset h.present
  rows := List.Subset.trans h.rows hrows
  alike := halike.symm.trans h.alike
  registry := h.registry
  enrollers := h.enrollers
  cells := h.cells.trans (congrArg (fun c => [c]) (hs.cell_move h.present hcall).symm)

/-- So it may if world and registry stay what they are. -/
theorem Mirrored.of_ambient (h : Mirrored n cell s t) (hs : Sharing past s) {m : Move}
    (hcall : s.callOn cell m = []) (hworld : (s.move m).world = s.world)
    (hregistry : (s.move m).registry = s.registry) : Mirrored n cell (s.move m) t := by
  refine h.of_unnoticed hs hcall ?_ ?_
  · rw [hregistry]
    exact List.Subset.refl _
  · rw [hworld]
    exact World.Alike.refl _ _

theorem Mirrored.storeStep (h : Mirrored n cell s t) (x : StoreStep) :
    Mirrored n cell (s.storeStep x).value.2 (t.storeStep x).value.2 := by
  have hstore : t.store = s.store := h.alike.store.symm
  rw [storeStep_eq, storeStep_eq, hstore]
  exact h.withWorld (h.alike.withStore _)

theorem Mirrored.get? (h : Mirrored n cell s t) {idp : String} {p : Provider}
    (hp : n.registry.get? idp = some p) : s.registry.get? idp = some p :=
  Registry.get?_eq_some_iff.2 (h.rows (Registry.get?_eq_some_iff.1 hp))

/-- A change of what a provider answers reaches the enroller alone, if it is one of its own. -/
theorem Mirrored.changeSource (h : Mirrored n cell s t) (hnumbered : Numbered s) (idp : String)
    (f : Source → Source) : Mirrored n cell (s.changeSource idp f) (t.changeSource idp f) := by
  have hregistry : t.registry.get? idp = n.registry.get? idp := by rw [h.registry]
  rw [Session.changeSource, Session.changeSource, hregistry]
  cases hrow : n.registry.get? idp with
  | some p =>
    rw [h.get? hrow]
    cases p with
    | outside k =>
      have hsource : t.world.sources k = s.world.sources k :=
        (h.alike.source (Registry.get?_eq_some_iff.1 hrow)).symm
      simp only [hsource]
      exact h.withWorld (h.alike.setSource k _)
    | allowList l => exact h
    | ruleBook b => exact h
  | none =>
    cases hlater : s.registry.get? idp with
    | none => exact h
    | some p =>
      cases p with
      | outside k =>
        -- Another provider of this number would be registered for the same name.
        refine h.withWorld ((World.Alike.setSource_of_new _ _ _ ?_).symm.trans h.alike)
        rintro name j hj rfl
        have hname : idp = name :=
          hnumbered.single (Registry.get?_eq_some_iff.1 hlater) (h.rows hj)
        rw [hname, Registry.get?_eq_some_iff.2 hj] at hrow
        exact absurd hrow (Option.some_ne_none _)
      | allowList l => exact h
      | ruleBook b => exact h

/-- A provider that is registered now is none of the enroller's. -/
theorem Mirrored.register (h : Mirrored n cell s t) (hs : Sharing past s)
    (hnumbered : Numbered s) (idp : String) (p : NewProvider) :
    Mirrored n cell (s.move (.step (.registry (.register idp p)))) t := by
  rcases s.register_cases idp p with hsame | ⟨hrows, hworld, _⟩
  · exact h.of_ambient hs rfl (congrArg world hsame) (congrArg Session.registry hsame)
  · refine h.of_unnoticed hs rfl ?_ ?_
    · exact hrows.symm ▸ List.subset_append_left _ _
    · refine hworld.symm ▸ ?_
      cases p with
      | allowList l => exact World.Alike.refl _ _
      | ruleBook b => exact World.Alike.refl _ _
      | outside source =>
        exact World.Alike.setSource_of_new _ _ _ fun hrow =>
          Nat.ne_of_lt (hnumbered.given (h.rows hrow))

/-! ## Questions to the enroller -/

/-- An enroller over the cell, whichever copy it is, is the one that stands alone. -/
theorem Mirrored.eq_of_isOver (h : Mirrored n cell s t) (hs : Sharing past s) {on : Nat}
    (hover : s.isOver cell on = true) : s.enrollers[on]? = some (n, cell) := by
  obtain ⟨m, hm⟩ := isOver_iff.1 hover
  rw [hm, hs.alike (List.mem_of_getElem? hm) h.present]

theorem Mirrored.first (h : Mirrored n cell s t) : t.enrollers[0]? = some (n, 0) := by
  rw [h.enrollers]
  rfl

theorem Mirrored.cell_eq (h : Mirrored n cell s t) : t.cell 0 = s.cell cell := by
  rw [Session.cell, h.cells]
  rfl

theorem Mirrored.call (h : Mirrored n cell s t) (hs : Sharing past s) {on : Nat}
    (hon : s.enrollers[on]? = some (n, cell)) (c : Call) :
    Mirrored n cell (s.move (.step (.enroller (.call on c))))
        (t.move (.step (.enroller (.call 0 c)))) ∧
      (t.step (.enroller (.call 0 c))).value.1 = (s.step (.enroller (.call on c))).value.1 := by
  have hperform : n.perform t.world (t.cell 0) c = n.perform s.world (s.cell cell) c := by
    rw [h.cell_eq, Enroller.perform_congr h.alike]
  have hcell := hs.cell_move_call hon c
  rw [move_call h.first, (step_call h.first c).1, (step_call hon c).1, hperform]
  refine ⟨⟨?_, ?_, ?_, h.registry, h.enrollers, ?_⟩, rfl⟩
  · exact (s.enrollers_move _).subset h.present
  · exact (move_call hon c).symm ▸ h.rows
  · exact (move_call hon c).symm ▸ h.alike
  · show t.cells.set 0 _ = _
    rw [hcell, h.cells]
    rfl

/-- A question that is kept is put to the enroller that stands alone. -/
theorem follows_asked {x : Step} {on : Nat} (hasked : x.asked? = some on)
    (hover : s.isOver cell on = true) (hover' : t.isOver 0 0 = true)
    (hasked' : (x.askedOf 0).asked? = some 0)
    (hreduced : Reduced cell (s.move (.step x)) (t.move (.step (x.askedOf 0))))
    (hanswer : (t.step (x.askedOf 0)).value.1 = (s.step x).value.1) :
    Follows cell s t (.step x) := by
  have hkeep : s.keep cell x = some (x.askedOf 0) := by
    simp only [keep, hasked, hover, if_true]
  rw [Follows, keepMove, hkeep]
  refine ⟨hreduced, ?_⟩
  simp only [Option.toList_some, List.map_cons, List.map_nil, answersOn, answerOf, hasked, hasked',
    hover, hover', if_true, hanswer, List.append_nil]

theorem callOn_of_not_isOver {on : Nat} (hover : s.isOver cell on = false) (c : Call) :
    s.callOn cell (.step (.enroller (.call on c))) = [] := by
  cases hon : s.enrollers[on]? with
  | none => simp only [callOn, hon]
  | some row =>
    obtain ⟨m, k⟩ := row
    have hne : k ≠ cell := fun hk => by
      rw [isOver_iff.2 ⟨m, hk ▸ hon⟩] at hover
      exact Bool.false_ne_true hover.symm
    simp only [callOn, hon, if_neg hne]

theorem Mirrored.isOver (h : Mirrored n cell s t) : t.isOver 0 0 = true :=
  isOver_iff.2 ⟨n, h.first⟩

theorem Mirrored.lt_length (h : Mirrored n cell s t) (hs : Sharing past s) :
    cell < s.cells.length := hs.lt_length h.present

theorem follows_since_enroller (h : Mirrored n cell s t) (hs : Sharing past s)
    (x : EnrollerStep) : Follows cell s t (.step (.enroller x)) := by
  have hsame := ambient_eq_iff.1 (s.ambient_enrollerStep x)
  have hunnoticed (hcall : s.callOn cell (.step (.enroller x)) = []) :
      Reduced cell (s.step (.enroller x)).value.2 t :=
    .since (h.of_ambient (m := .step (.enroller x)) hs hcall hsame.1 hsame.2.2.2)
  cases x with
  | create config? =>
    exact follows_create_elsewhere (Nat.ne_of_gt (h.lt_length hs)) (hunnoticed rfl)
  | copy on => exact follows_dropped rfl rfl (hunnoticed rfl)
  | call on c =>
    cases hover : s.isOver cell on with
    | true =>
      obtain ⟨hmirrored, hanswer⟩ := h.call hs (h.eq_of_isOver hs hover) c
      exact follows_asked rfl hover h.isOver rfl (.since hmirrored) hanswer
    | false => exact follows_unasked rfl hover (hunnoticed (callOn_of_not_isOver hover c))
  | stats on =>
    cases hover : s.isOver cell on with
    | true =>
      have hon := h.eq_of_isOver hs hover
      refine follows_asked rfl hover h.isOver rfl ?_ ?_
      · simp only [Session.move, step, enrollerStep, Step.askedOf, hon, h.first]
        exact .since h
      · simp only [step, enrollerStep, Step.askedOf, hon, h.first]
        exact congrArg (fun c => Answer.stats (Cache.stats c)) h.cell_eq
    | false => exact follows_unasked rfl hover (hunnoticed rfl)

theorem follows_since_standing (h : Mirrored n cell s t) (hs : Sharing past s)
    (x : StandingStep) : Follows cell s t (.step (.standing x)) := by
  have hreduced : Reduced cell (s.step (.standing x)).value.2 t := by
    have hsame : s.move (.step (.standing x)) = { s with standing := x.after s.standing } :=
      s.standingStep_eq x
    refine .since (h.of_ambient (m := .step (.standing x)) hs rfl ?_ ?_)
    · rw [hsame]
    · rw [hsame]
  cases hasked : (Step.standing x).asked? with
  | none =>
    refine follows_late (h.lt_length hs) ?_ ?_ hreduced
    · simp only [keep, hasked]
    · simp only [answerOf, hasked]
  | some on =>
    cases x with
    | query on? q =>
      obtain rfl : on? = some on := hasked
      cases hover : s.isOver cell on with
      | true =>
        have hstanding : t.standingOf (some 0) = s.standingOf (some on) := by
          rw [standingOf, standingOf, h.eq_of_isOver hs hover, h.first]
          rfl
        exact follows_asked rfl hover h.isOver rfl (.since h) (congrArg (ask · q) hstanding)
      | false => exact follows_unasked rfl hover hreduced
    | _ => cases hasked

theorem follows_since_registry (h : Mirrored n cell s t) (hs : Sharing past s)
    (hnumbered : Numbered s) (x : RegistryStep) : Follows cell s t (.step (.registry x)) := by
  have hlt := h.lt_length hs
  cases x with
  | setGroups idp groups =>
    refine follows_kept rfl rfl (.since (n := n) ?_)
    exact h.changeSource hnumbered idp ({ · with groupsOf := fun _ => groups })
  | setMembers idp members =>
    refine follows_kept rfl rfl (.since (n := n) ?_)
    exact h.changeSource hnumbered idp ({ · with membersOf := fun _ => members })
  | register idp p => exact follows_late hlt rfl rfl (.since (h.register hs hnumbered idp p))
  | groupsOf idp e =>
    have hsame : (s.registryStep (.groupsOf idp e)).value.2 = s := s.registryStep_groupsOf idp e
    exact follows_late hlt rfl rfl (.since (n := n) (hsame.symm ▸ h))
  | membersOf idp group =>
    have hsame : (s.registryStep (.membersOf idp group)).value.2 = s :=
      s.registryStep_membersOf idp group
    exact follows_late hlt rfl rfl (.since (n := n) (hsame.symm ▸ h))
  | _ => exact follows_late hlt rfl rfl (.since h)

theorem follows_since (h : Mirrored n cell s t) (hs : Sharing past s) (hnumbered : Numbered s)
    (m : Move) : Follows cell s t m := by
  cases m with
  | world w => exact ⟨.since (h.withWorld (World.Alike.refl _ w)), rfl⟩
  | step x =>
    cases x with
    | store x => exact follows_kept rfl rfl (.since (h.storeStep x))
    | standing x => exact follows_since_standing h hs x
    | registry x => exact follows_since_registry h hs hnumbered x
    | enroller x => exact follows_since_enroller h hs x
    | cache x =>
      have hsame := ambient_eq_iff.1 (s.ambient_cacheStep x)
      exact follows_dropped rfl rfl
        (.since (h.of_ambient (m := .step (.cache x)) hs rfl hsame.1 hsame.2.2.2))

/-! ## Moves where the cell is that of a cache -/

theorem caches_enrollerStep (s : Session) (x : EnrollerStep) :
    (s.enrollerStep x).value.2.caches = s.caches := by
  cases x with
  | create config? =>
    cases config? with
    | none => rfl
    | some text =>
      simp only [enrollerStep]
      split <;> rfl
  | _ =>
    simp only [enrollerStep]
    split <;> rfl

theorem caches_cacheStep (s : Session) (x : CacheStep) :
    s.caches ⊆ (s.cacheStep x).value.2.caches := by
  cases x with
  | create => exact List.subset_append_left _ _
  | copy on =>
    simp only [cacheStep, withCache]
    split
    · exact List.subset_append_left _ _
    · exact List.Subset.refl _
  | _ =>
    simp only [cacheStep, withCache]
    split <;> exact List.Subset.refl _

theorem caches_move (s : Session) (m : Move) : s.caches ⊆ (s.move m).caches := by
  cases m with
  | world w => exact List.Subset.refl _
  | step x =>
    cases x with
    | store x => exact (untouched_storeStep s x).2.1 ▸ List.Subset.refl _
    | standing x => exact (untouched_standingStep s x).2.1 ▸ List.Subset.refl _
    | registry x => exact (untouched_registryStep s x).2.1 ▸ List.Subset.refl _
    | enroller x => exact caches_enrollerStep s x ▸ List.Subset.refl _
    | cache x => exact s.caches_cacheStep x

theorem Sharing.isOver_of_cache (h : Sharing past s) (hcache : cell ∈ s.caches) (on : Nat) :
    s.isOver cell on = false := by
  refine Bool.eq_false_iff.2 fun hover => ?_
  obtain ⟨n, hn⟩ := isOver_iff.1 hover
  exact h.apart (List.mem_of_getElem? hn) hcache

theorem follows_never (hs : Sharing past s) (hcache : cell ∈ s.caches) (ht : t.enrollers = [])
    (m : Move) : Follows cell s t m := by
  have hlt : cell < s.cells.length := hs.within hcache
  have hlater : cell ∈ (s.move m).caches := s.caches_move m hcache
  have hdropped : Reduced cell (s.move m) t := .never hlater ht
  cases m with
  | world w => exact ⟨.never hlater ht, rfl⟩
  | step x =>
    have hkept (h' : (t.step x).value.2.enrollers = t.enrollers) :
        Reduced cell (s.step x).value.2 (t.step x).value.2 := .never hlater (h'.trans ht)
    have hunasked {on : Nat} (hasked : x.asked? = some on) : Follows cell s t (.step x) :=
      follows_unasked hasked (hs.isOver_of_cache hcache on) hdropped
    cases x with
    | store x => exact follows_kept rfl rfl (hkept (untouched_storeStep t x).1)
    | standing x =>
      cases x with
      | query on? q =>
        cases on? with
        | none => exact follows_late hlt rfl rfl hdropped
        | some on => exact hunasked rfl
      | _ => exact follows_late hlt rfl rfl hdropped
    | registry x =>
      cases x with
      | setGroups idp groups =>
        exact follows_kept rfl rfl (hkept (untouched_registryStep t (.setGroups idp groups)).1)
      | setMembers idp members =>
        exact follows_kept rfl rfl (hkept (untouched_registryStep t (.setMembers idp members)).1)
      | _ => exact follows_late hlt rfl rfl hdropped
    | enroller x =>
      cases x with
      | create config? => exact follows_create_elsewhere (Nat.ne_of_gt hlt) hdropped
      | copy on => exact follows_dropped rfl rfl hdropped
      | call on c => exact hunasked rfl
      | stats on => exact hunasked rfl
    | cache x => exact follows_dropped rfl rfl hdropped

/-! ## Whole sessions -/

theorem follows (hs : Sharing past s) (hnumbered : Numbered s) (h : Reduced cell s t) (m : Move) :
    Follows cell s t m := by
  cases h with
  | before hlen => exact follows_before hs hlen m
  | since h => exact follows_since h hs hnumbered m
  | never hcache ht => exact follows_never hs hcache ht m

/-- Taken alone, the enroller over a cell gives the answers that it gave among others. -/
theorem answers_alone (hs : Sharing past s) (hnumbered : Numbered s) (h : Reduced cell s t)
    (moves : List Move) :
    Reduced cell (s.play moves) (t.play (alone cell s moves)) ∧
      answersOn 0 t (alone cell s moves) = answersOn cell s moves := by
  induction moves generalizing past s t with
  | nil => exact ⟨h, rfl⟩
  | cons m moves ih =>
    obtain ⟨hreduced, hanswer⟩ := follows hs hnumbered h m
    obtain ⟨hrest, hanswers⟩ := ih (hs.move m) (hnumbered.move m) hreduced
    constructor
    · rw [alone, play_append]
      exact hrest
    · rw [alone, answersOn_append, answersOn, hanswer, hanswers]

end Session
end Enrolment
