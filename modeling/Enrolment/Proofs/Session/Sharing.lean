import Enrolment.Proofs.Enroller.FirstUse
import Enrolment.Session.Run

/-!
Enrollers and the cells that they share with their copies.

A session goes on by moves: it takes a step, or the world changes by itself, in whatever way.  The
history of a cell is the list of the calls made through the enrollers over it, each with the world
at its time.  What this file is for is `sharing_play`: every enroller finds in its cell the cache
that the history of the cell leaves behind, through whichever copies the calls were made and
whatever else the session did in between.
-/

namespace Enrolment
namespace Session

inductive Move where
  | step (x : Step)
  /-- The store and the outside providers turn into anything. -/
  | world (w : World)

def move (s : Session) : Move → Session
  | .step x => (s.step x).value.2
  | .world w => { s with world := w }

def play (s : Session) (moves : List Move) : Session := moves.foldl move s

/-- The call that a move makes on an enroller over a cell. -/
def callOn (s : Session) (cell : Nat) : Move → List (World × Call)
  | .step (.enroller (.call on c)) =>
    match s.enrollers[on]? with
    | some (_, k) => if k = cell then [(s.world, c)] else []
    | none => []
  | _ => []

/-- The history of a cell over some moves. -/
def callsOn (cell : Nat) (s : Session) : List Move → List (World × Call)
  | [] => []
  | m :: moves => s.callOn cell m ++ callsOn cell (s.move m) moves

/-- A session without enrollers and caches. -/
def fresh (w : World) (sources : Nat) (m : Standing) (r : Registry) : Session :=
  ⟨w, sources, m, r, [], [], []⟩

/-- The enrollers and caches of a session agree with the histories of the cells. -/
structure Sharing (past : Nat → List (World × Call)) (s : Session) : Prop where
  kept : ∀ {n : Enroller} {k : Nat}, (n, k) ∈ s.enrollers →
    s.cells[k]? = some (n.run (past k) Cache.empty).value.2
  alike : ∀ {n m : Enroller} {k : Nat}, (n, k) ∈ s.enrollers → (m, k) ∈ s.enrollers → n = m
  /-- A cache that stands alone is not an enroller's. -/
  apart : ∀ {n : Enroller} {k : Nat}, (n, k) ∈ s.enrollers → k ∉ s.caches
  within : ∀ {k : Nat}, k ∈ s.caches → k < s.cells.length
  unused : ∀ {k : Nat}, s.cells.length ≤ k → past k = []

variable {past : Nat → List (World × Call)} {s t : Session}

theorem Sharing.fresh (w : World) (sources : Nat) (m : Standing) (r : Registry) :
    Sharing (fun _ => []) (fresh w sources m r) where
  kept h := absurd h List.not_mem_nil
  alike h := absurd h List.not_mem_nil
  apart h := absurd h List.not_mem_nil
  within h := absurd h List.not_mem_nil
  unused _ := rfl

theorem Sharing.lt_length (h : Sharing past s) {n : Enroller} {k : Nat}
    (hn : (n, k) ∈ s.enrollers) : k < s.cells.length := by
  obtain ⟨hk, _⟩ := List.getElem?_eq_some_iff.1 (h.kept hn)
  exact hk

/-! ## Moves that leave the enrollers and caches alone -/

def Untouched (s t : Session) : Prop :=
  t.enrollers = s.enrollers ∧ t.caches = s.caches ∧ t.cells = s.cells

theorem Sharing.of_untouched (h : Sharing past s) (hu : Untouched s t) : Sharing past t := by
  obtain ⟨he, hc, hk⟩ := hu
  constructor
  · rw [he, hk]; exact h.kept
  · rw [he]; exact h.alike
  · rw [he, hc]; exact h.apart
  · rw [hc, hk]; exact h.within
  · rw [hk]; exact h.unused

theorem untouched_storeStep (s : Session) (x : StoreStep) :
    Untouched s (s.storeStep x).value.2 := by
  cases x with
  | remove id =>
    simp only [storeStep]
    split <;> exact ⟨rfl, rfl, rfl⟩
  | get id =>
    simp only [storeStep, Traced.value_bind]
    split <;> exact ⟨rfl, rfl, rfl⟩
  | list idp =>
    simp only [storeStep, Traced.value_bind]
    split <;> exact ⟨rfl, rfl, rfl⟩
  | vet id =>
    simp only [storeStep, Traced.value_bind]
    split <;> exact ⟨rfl, rfl, rfl⟩
  | compare a b =>
    simp only [storeStep, Traced.value_bind]
    split <;> exact ⟨rfl, rfl, rfl⟩
  | _ => exact ⟨rfl, rfl, rfl⟩

theorem untouched_standingStep (s : Session) (x : StandingStep) :
    Untouched s (s.standingStep x).2 := by
  cases x with
  | configure text =>
    simp only [standingStep]
    split <;> exact ⟨rfl, rfl, rfl⟩
  | _ => exact ⟨rfl, rfl, rfl⟩

theorem untouched_changeSource (s : Session) (idp : String) (f : Source → Source) :
    Untouched s (s.changeSource idp f) := by
  rw [changeSource]
  split <;> exact ⟨rfl, rfl, rfl⟩

theorem untouched_registryStep (s : Session) (x : RegistryStep) :
    Untouched s (s.registryStep x).value.2 := by
  cases x with
  | register idp p =>
    simp only [registryStep]
    split
    · cases p <;> exact ⟨rfl, rfl, rfl⟩
    · exact ⟨rfl, rfl, rfl⟩
  | groupsOf idp e =>
    simp only [registryStep]
    split
    · exact ⟨rfl, rfl, rfl⟩
    · simp only [Traced.value_bind]
      split <;> exact ⟨rfl, rfl, rfl⟩
  | membersOf idp group =>
    simp only [registryStep]
    split
    · exact ⟨rfl, rfl, rfl⟩
    · simp only [Traced.value_bind]
      split <;> exact ⟨rfl, rfl, rfl⟩
  | setGroups idp groups => exact untouched_changeSource s idp _
  | setMembers idp members => exact untouched_changeSource s idp _
  | _ => exact ⟨rfl, rfl, rfl⟩

/-! ## New cells and new users of cells -/

theorem getElem?_concat_of_some {α : Type} {xs : List α} {k : Nat} {x y : α}
    (h : xs[k]? = some x) : (xs ++ [y])[k]? = some x := by
  obtain ⟨hk, _⟩ := List.getElem?_eq_some_iff.1 h
  rw [List.getElem?_append_left hk, h]

theorem Sharing.newCell (h : Sharing past s) : Sharing past s.newCell.1 where
  kept hn := getElem?_concat_of_some (h.kept hn)
  alike := h.alike
  apart := h.apart
  within hk := by
    have hlt := h.within hk
    show _ < (s.cells ++ [Cache.empty]).length
    rw [List.length_append]
    omega
  unused hk := by
    refine h.unused ?_
    have hlen : (s.cells ++ [Cache.empty]).length ≤ _ := hk
    rw [List.length_append] at hlen
    omega

theorem Sharing.addEnroller (h : Sharing past s) {n : Enroller} {k : Nat}
    (hkept : s.cells[k]? = some (n.run (past k) Cache.empty).value.2)
    (halike : ∀ {m}, (m, k) ∈ s.enrollers → m = n) (hapart : k ∉ s.caches) :
    Sharing past (s.addEnroller n k) := by
  have hmem : ∀ {m : Enroller} {j : Nat}, (m, j) ∈ (s.addEnroller n k).enrollers →
      (m, j) ∈ s.enrollers ∨ (m = n ∧ j = k) := by
    intro m j hm
    rcases List.mem_append.1 hm with hm | hm
    · exact .inl hm
    · exact .inr (Prod.mk.inj (List.mem_singleton.1 hm))
  constructor
  · intro m j hm
    rcases hmem hm with hm | ⟨rfl, rfl⟩
    · exact h.kept hm
    · exact hkept
  · intro m m' j hm hm'
    rcases hmem hm with hold | ⟨he, hj⟩ <;> rcases hmem hm' with hold' | ⟨he', hj'⟩
    · exact h.alike hold hold'
    · exact (halike (hj' ▸ hold)).trans he'.symm
    · exact he.trans (halike (hj ▸ hold')).symm
    · exact he.trans he'.symm
  · intro m j hm
    rcases hmem hm with hm | ⟨_, rfl⟩
    · exact h.apart hm
    · exact hapart
  · exact h.within
  · exact h.unused

theorem Sharing.addCache (h : Sharing past s) {k : Nat} (hk : k < s.cells.length)
    (hapart : ∀ {n}, (n, k) ∉ s.enrollers) : Sharing past (s.addCache k) where
  kept := h.kept
  alike := h.alike
  apart {n j} hn hj := by
    rcases List.mem_append.1 hj with hj | hj
    · exact h.apart hn hj
    · exact hapart (List.mem_singleton.1 hj ▸ hn)
  within {j} hj := by
    rcases List.mem_append.1 hj with hj | hj
    · exact h.within hj
    · exact List.mem_singleton.1 hj ▸ hk
  unused := h.unused

/-- A new enroller starts with a cell that has no history. -/
theorem Sharing.create (h : Sharing past s) (m : Standing) : Sharing past (s.create m).2 := by
  refine h.newCell.addEnroller ?_ ?_ ?_
  · show (s.cells ++ [Cache.empty])[s.cells.length]? = _
    rw [List.getElem?_concat_length, h.unused (Nat.le_refl _)]
    rfl
  · exact fun hm => absurd (h.lt_length hm) (Nat.lt_irrefl _)
  · exact fun hk => absurd (h.within hk) (Nat.lt_irrefl _)

/-! ## Changes of a cell -/

theorem length_setCell (s : Session) (k : Nat) (c : Cache) :
    (s.setCell k c).cells.length = s.cells.length := List.length_set

theorem Sharing.setCell (h : Sharing past s) {k : Nat} (hk : k ∈ s.caches) (c : Cache) :
    Sharing past (s.setCell k c) where
  kept {n j} hn := by
    have hne : k ≠ j := fun e => h.apart hn (e ▸ hk)
    show (s.cells.set k c)[j]? = _
    rw [List.getElem?_set_ne hne]
    exact h.kept hn
  alike := h.alike
  apart := h.apart
  within hj := (length_setCell s k c).symm ▸ h.within hj
  unused hj := h.unused (length_setCell s k c ▸ hj)

/-- A call puts the cache that it leaves into the cell, for every enroller over it. -/
theorem Sharing.record (h : Sharing past s) {n : Enroller} {k : Nat} (hn : (n, k) ∈ s.enrollers)
    (c : Call) :
    Sharing (fun j => past j ++ if k = j then [(s.world, c)] else [])
      (s.setCell k (n.perform s.world (s.cell k) c).value.2) where
  kept {m j} hm := by
    show (s.cells.set k _)[j]? = _
    by_cases hj : k = j
    · -- Whichever enroller over the cell this is, it is the one that was called.
      subst hj
      have hcell : s.cell k = (n.run (past k) Cache.empty).value.2 := by
        rw [cell, h.kept hn, Option.getD_some]
      rw [if_pos rfl, List.getElem?_set_self (h.lt_length hn), h.alike hm hn, Enroller.run_append,
        hcell]
      rfl
    · rw [if_neg hj, List.append_nil, List.getElem?_set_ne hj]
      exact h.kept hm
  alike := h.alike
  apart := h.apart
  within hj := (length_setCell s k _).symm ▸ h.within hj
  unused {j} hj := by
    have hlen : s.cells.length ≤ j := length_setCell s k _ ▸ hj
    have hne : k ≠ j := Nat.ne_of_lt (Nat.lt_of_lt_of_le (h.lt_length hn) hlen)
    rw [if_neg hne, h.unused hlen]
    rfl

/-! ## Every move -/

theorem Sharing.enrollerStep (h : Sharing past s) (x : EnrollerStep) :
    Sharing (fun k => past k ++ s.callOn k (.step (.enroller x))) (s.enrollerStep x).value.2 := by
  cases x with
  | create config? =>
    simp only [callOn, List.append_nil]
    cases config? with
    | none => exact h.create s.standing
    | some text =>
      simp only [Session.enrollerStep]
      split
      · exact h.create _
      · exact h
  | copy on =>
    simp only [callOn, List.append_nil, Session.enrollerStep]
    split
    · next n k hon =>
      have hn : (n, k) ∈ s.enrollers := List.mem_of_getElem? hon
      exact h.addEnroller (h.kept hn) (fun hm => h.alike hm hn) (h.apart hn)
    · exact h
  | call on c =>
    simp only [callOn, Session.enrollerStep]
    cases hon : s.enrollers[on]? with
    | none =>
      simp only [List.append_nil]
      exact h
    | some row =>
      obtain ⟨n, k⟩ := row
      exact h.record (List.mem_of_getElem? hon) c
  | stats on =>
    simp only [callOn, List.append_nil, Session.enrollerStep]
    split <;> exact h

theorem Sharing.withCache (h : Sharing past s) (on : Nat)
    {f : Nat → Cache → Traced (Answer × Session)}
    (hf : ∀ k ∈ s.caches, ∀ c, Sharing past (f k c).value.2) :
    Sharing past (s.withCache on f).value.2 := by
  rw [Session.withCache]
  split
  · next k hon => exact hf k (List.mem_of_getElem? hon) _
  · exact h

theorem Sharing.cacheStep (h : Sharing past s) (x : CacheStep) :
    Sharing past (s.cacheStep x).value.2 := by
  cases x with
  | create =>
    refine h.newCell.addCache ?_ fun hn => absurd (h.lt_length hn) (Nat.lt_irrefl _)
    show s.cells.length < (s.cells ++ [Cache.empty]).length
    rw [List.length_append]
    exact Nat.lt_succ_self _
  | copy on =>
    exact h.withCache on fun k hk _ => h.addCache (h.within hk) fun hn => h.apart hn hk
  | insert on idp ids => exact h.withCache on fun k hk _ => h.setCell hk _
  | take on idp => exact h.withCache on fun k hk _ => h.setCell hk _
  | contains on idp => exact h.withCache on fun _ _ _ => h
  | size on => exact h.withCache on fun _ _ _ => h
  | stats on => exact h.withCache on fun _ _ _ => h

theorem Sharing.move (h : Sharing past s) (m : Move) :
    Sharing (fun k => past k ++ s.callOn k m) (s.move m) := by
  cases m with
  | world w =>
    simp only [callOn, List.append_nil]
    exact h.of_untouched ⟨rfl, rfl, rfl⟩
  | step x =>
    cases x with
    | store x =>
      simp only [callOn, List.append_nil]
      exact h.of_untouched (untouched_storeStep s x)
    | standing x =>
      simp only [callOn, List.append_nil]
      exact h.of_untouched (untouched_standingStep s x)
    | registry x =>
      simp only [callOn, List.append_nil]
      exact h.of_untouched (untouched_registryStep s x)
    | enroller x => exact h.enrollerStep x
    | cache x =>
      simp only [callOn, List.append_nil]
      exact h.cacheStep x

theorem Sharing.play (h : Sharing past s) (moves : List Move) :
    Sharing (fun k => past k ++ callsOn k s moves) (s.play moves) := by
  induction moves generalizing past s with
  | nil =>
    simp only [callsOn, List.append_nil]
    exact h
  | cons m moves ih =>
    have hrest := ih (h.move m)
    simp only [List.append_assoc] at hrest
    exact hrest

/-- At any time a cell holds what the run of its history leaves behind. -/
theorem sharing_play (w : World) (sources : Nat) (m : Standing) (r : Registry)
    (moves : List Move) :
    Sharing (fun k => callsOn k (Session.fresh w sources m r) moves)
      ((Session.fresh w sources m r).play moves) :=
  (Sharing.fresh w sources m r).play moves

end Session
end Enrolment
