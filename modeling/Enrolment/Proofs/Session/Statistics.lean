import Enrolment.Proofs.Enroller.Counters
import Enrolment.Proofs.Enroller.Reference
import Enrolment.Proofs.Session.History

/-!
The statistics of an enroller in a session, read off the calls that were made on it and its copies.

`statistics_of_history` says which IDPs have an entry, that entries stay, and how the counters add
up, whatever else the session did, which calls failed, and through which copies they were made.
-/

namespace Enrolment

theorem usedIn_iff {calls : List (World × Call)} {idp : String} :
    usedIn calls idp = true ↔
      (∃ x ∈ calls, ∃ e, x.2 = .groups idp e) ∨ ∃ x ∈ calls, ∃ p, x.2 = .idpsGranting p := by
  rw [usedIn, List.any_eq_true]
  constructor
  · rintro ⟨⟨w, call⟩, hmem, huses⟩
    cases call with
    | groups other e =>
      rw [← beq_iff_eq.1 huses]
      exact .inl ⟨_, hmem, e, rfl⟩
    | isMember other group e => exact absurd huses Bool.false_ne_true
    | members group => exact absurd huses Bool.false_ne_true
    | idpsGranting p => exact .inr ⟨_, hmem, p, rfl⟩
  · rintro (⟨⟨w, call⟩, hmem, e, rfl⟩ | ⟨⟨w, call⟩, hmem, p, rfl⟩)
    · exact ⟨_, hmem, beq_self_eq_true idp⟩
    · exact ⟨_, hmem, rfl⟩

namespace Session

/-- The statistics of an enroller agree with the calls made so far on it and its copies. -/
structure Accounted (s : Session) (cell : Nat) (n : Enroller) (past : List (World × Call))
    (stats : CacheStats) : Prop where
  /-- An entry is there for the mapped IDPs that a call for groups named, and once a call has asked
  for the IDPs that grant a principal, for all mapped IDPs. -/
  cached : ∀ idp, (s.cell cell).contains idp = true ↔ n.standing.hasIdp idp = true ∧
    ((∃ x ∈ past, ∃ e, x.2 = .groups idp e) ∨ ∃ x ∈ past, ∃ p, x.2 = .idpsGranting p)
  kept : ∀ moves idp set, (s.cell cell).sets.get? idp = some set →
    ((s.play moves).cell cell).sets.get? idp = some set
  entries : stats.entries = (n.standing.idps.filter (usedIn past)).length
  bounded : stats.entries ≤ n.standing.size
  misses : stats.misses = stats.entries + past.countP (·.2.forUnmapped n.standing)
  lookups : stats.hits + stats.misses =
    past.countP (·.2.forGroups) + n.standing.size * past.countP (·.2.forIdps)
  isMember : ∀ {on : Nat}, s.enrollers[on]? = some (n, cell) → ∀ idp group e,
    (s.move (.step (.enroller (.call on (.isMember idp group e))))).cell cell = s.cell cell
  members : ∀ {on : Nat}, s.enrollers[on]? = some (n, cell) → ∀ group,
    (s.move (.step (.enroller (.call on (.members group))))).cell cell = s.cell cell

theorem statistics_of_history (w : World) (sources : Nat) (m : Standing) (r : Registry)
    (moves : List Move) {on cell : Nat} {n : Enroller}
    (hon : ((fresh w sources m r).play moves).enrollers[on]? = some (n, cell)) :
    ∃ stats,
      (((fresh w sources m r).play moves).step (.enroller (.stats on))).value.1 = .stats stats ∧
        Accounted ((fresh w sources m r).play moves) cell n
          (callsOn cell (fresh w sources m r) moves) stats := by
  have hsharing := sharing_play w sources m r moves
  generalize (fresh w sources m r).play moves = s at hon hsharing ⊢
  have hn : (n, cell) ∈ s.enrollers := List.mem_of_getElem? hon
  have hcell : s.cell cell =
      (n.run (callsOn cell (fresh w sources m r) moves) Cache.empty).value.2 := hsharing.cell_eq hn
  obtain ⟨hlooked, hmissed⟩ := n.counters_run (callsOn cell (fresh w sources m r) moves)
    Cache.empty (List.nil_subset _)
  rw [← hcell] at hlooked hmissed
  refine ⟨(s.cell cell).stats, ?_, ?_⟩
  · simp only [step, enrollerStep, hon]
    rfl
  constructor
  · intro idp
    have hempty : Cache.empty.contains idp = false := rfl
    rw [hcell, Enroller.contains_run, hempty, Bool.false_or, Bool.and_eq_true, usedIn_iff,
      and_comm]
  · intro more idp set hset
    rw [hsharing.cell_play hn, Enroller.get?_run, hset, Option.some_or]
  · show (s.cell cell).size = _
    rw [hcell, Enroller.size_run]
  · show (s.cell cell).size ≤ _
    rw [hcell]
    exact n.size_run_le _
  · have hzero : Cache.empty.misses = 0 ∧ Cache.empty.size = 0 := ⟨rfl, rfl⟩
    show (s.cell cell).misses = (s.cell cell).size + _
    omega
  · have hzero : Cache.empty.hits = 0 ∧ Cache.empty.misses = 0 := ⟨rfl, rfl⟩
    show (s.cell cell).hits + (s.cell cell).misses = _
    omega
  · intro on' hon' idp group e
    exact hsharing.cell_move_call hon' (.isMember idp group e)
  · intro on' hon' group
    exact hsharing.cell_move_call hon' (.members group)

/-- Two mapped IDPs, of which one has no groups. -/
def halfMapped : Session :=
  fresh (World.oneGroup "staff") 0 ((Standing.empty.assign "ldap" ["staff"]).assign "saml" [])
    Registry.empty

/-- Calls through an enroller and its copy, one of them for an IDP that is not mapped. -/
def mixedCalls : List Move :=
  [.step (.enroller (.create none)), .step (.enroller (.copy 0)),
    .step (.enroller (.call 0 (.groups "ldap" (Entity.user "alice")))),
    .step (.store (.remove "staff")),
    .step (.enroller (.call 1 (.groups "nowhere" (Entity.user "alice")))),
    .step (.enroller (.call 1 (.isMember "ldap" "staff" (Entity.user "alice")))),
    .step (.enroller (.call 0 (.idpsGranting ⟨"staff", .group⟩)))]

/-- The copy reports one hit and three misses: one of them for the IDP that is not mapped. -/
theorem statistics_of_mixedCalls :
    (halfMapped.play mixedCalls).enrollers[1]? =
        some (⟨halfMapped.standing, Registry.empty⟩, 0) ∧
      Accounted (halfMapped.play mixedCalls) 0 ⟨halfMapped.standing, Registry.empty⟩
        (callsOn 0 halfMapped mixedCalls) ⟨1, 3, 2⟩ := by
  have hon : (halfMapped.play mixedCalls).enrollers[1]? =
      some (⟨halfMapped.standing, Registry.empty⟩, 0) := rfl
  obtain ⟨stats, hstats, haccounted⟩ := statistics_of_history _ _ _ _ mixedCalls hon
  have hanswer : (((halfMapped.play mixedCalls).step (.enroller (.stats 1))).value.1) =
      .stats ⟨1, 3, 2⟩ := rfl
  have heq : Answer.stats stats = .stats ⟨1, 3, 2⟩ := hstats.symm.trans hanswer
  rw [Answer.stats.injEq] at heq
  rw [heq] at haccounted
  exact ⟨hon, haccounted⟩

end Session
end Enrolment
