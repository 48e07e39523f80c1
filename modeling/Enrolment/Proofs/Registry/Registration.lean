import Enrolment.Proofs.Registry

/-!
Registrations one after the other, on a registry that is empty at first.

Each attempt has an outcome, and a refused attempt leaves the registry as it was.  The theorem this
file is for is `registrations_consistent`: the outcomes follow from the names alone, the list holds
the successful attempts in their order, and the index leads from each name to its own row.
-/

namespace Enrolment

/-- A registration to be made, in place or by making a new registry. -/
structure Attempt where
  idp : String
  provider : Provider
  anew : Bool

namespace Registry

/-- Attempts a registration.  Where making a new registry is refused, the old one stays in use. -/
def attempt (r : Registry) (a : Attempt) : Except ConfigFault Unit × Registry :=
  if a.anew then
    match r.withProvider a.idp a.provider with
    | .ok r => (.ok (), r)
    | .error fault => (.error fault, r)
  else r.register a.idp a.provider

/-- The outcomes of attempts in a row, and the registry that they leave. -/
def attemptAll (r : Registry) : List Attempt → List (Except ConfigFault Unit) × Registry
  | [] => ([], r)
  | a :: attempts =>
    let (outcome, r) := r.attempt a
    let (outcomes, r) := r.attemptAll attempts
    (outcome :: outcomes, r)

/-- The attempts that succeeded, as rows. -/
def succeeded (attempts : List Attempt) (outcomes : List (Except ConfigFault Unit)) :
    List (String × Provider) :=
  (attempts.zip outcomes).filterMap fun
    | (a, .ok ()) => some (a.idp, a.provider)
    | (_, .error _) => none

/-! ## One attempt -/

theorem index_contains_iff (r : Registry) (idp : String) :
    r.index.contains idp = true ↔ idp ∈ r.names := by
  constructor
  · intro h
    obtain ⟨i, hi⟩ := Option.isSome_iff_exists.1 h
    exact List.mem_of_getElem? ((r.indexed idp i).1 hi)
  · intro h
    by_contra hnew
    exact r.not_mem_names_of_new (Bool.eq_false_iff.2 hnew) h

/-- The checks come before any change, the check for a blank name first. -/
theorem register_cases (r : Registry) (idp : String) (p : Provider) :
    (Text.isBlank idp = true ∧ r.register idp p = (.error (.blankIdpName idp), r)) ∨
      (Text.isBlank idp = false ∧ idp ∈ r.names ∧
        r.register idp p = (.error (.duplicateProvider idp), r)) ∨
      (Text.isBlank idp = false ∧ idp ∉ r.names ∧ (r.register idp p).1 = .ok () ∧
        (r.register idp p).2.providers = r.providers ++ [(idp, p)]) := by
  by_cases hb : Text.isBlank idp = true
  · exact .inl ⟨hb, by rw [register, dif_pos hb]⟩
  · have hblank : Text.isBlank idp = false := Bool.eq_false_iff.2 hb
    by_cases hm : r.index.contains idp = true
    · refine .inr (.inl ⟨hblank, (r.index_contains_iff idp).1 hm, ?_⟩)
      rw [register, dif_neg hb, dif_pos hm]
    · refine .inr (.inr ⟨hblank, mt (r.index_contains_iff idp).2 hm, ?_⟩)
      rw [register, dif_neg hb, dif_neg hm]
      exact ⟨rfl, rfl⟩

theorem register_blank_iff (r : Registry) (name : String) (p : Provider) :
    (r.register name p).1 = .error (.blankIdpName name) ↔ Text.isBlank name = true := by
  rcases r.register_cases name p with ⟨hb, h⟩ | ⟨hb, _, h⟩ | ⟨hb, _, h, _⟩
  · rw [h, hb]
    exact iff_of_true rfl rfl
  · rw [h, hb]
    exact iff_of_false (fun h => by cases h) Bool.false_ne_true
  · rw [h, hb]
    exact iff_of_false (fun h => by cases h) Bool.false_ne_true

/-- Both ways of registering come to the same. -/
theorem attempt_eq (r : Registry) (a : Attempt) : r.attempt a = r.register a.idp a.provider := by
  rw [attempt]
  split
  · rw [withProvider]
    rcases r.register_cases a.idp a.provider with ⟨_, h⟩ | ⟨_, _, h⟩ | ⟨_, _, hout, _⟩
    · rw [h]
    · rw [h]
    · generalize r.register a.idp a.provider = result at hout ⊢
      obtain ⟨outcome, next⟩ := result
      cases hout
      rfl
  · rfl

theorem attempt_refused {r : Registry} {a : Attempt} {fault : ConfigFault}
    (h : (r.attempt a).1 = .error fault) : (r.attempt a).2 = r := by
  rw [attempt_eq] at h ⊢
  rcases r.register_cases a.idp a.provider with ⟨_, heq⟩ | ⟨_, _, heq⟩ | ⟨_, _, hout, _⟩
  · rw [heq]
  · rw [heq]
  · rw [hout] at h
    cases h

/-- An attempt adds its row if it succeeds, and no row otherwise. -/
theorem providers_attempt (r : Registry) (a : Attempt) :
    (r.attempt a).2.providers = r.providers ++ succeeded [a] [(r.attempt a).1] := by
  rw [attempt_eq]
  rcases r.register_cases a.idp a.provider with ⟨_, h⟩ | ⟨_, _, h⟩ | ⟨_, _, hout, hrows⟩
  · rw [h]
    exact (List.append_nil _).symm
  · rw [h]
    exact (List.append_nil _).symm
  · rw [hout, hrows]
    rfl

/-! ## Attempts in a row -/

theorem attemptAll_append (r : Registry) (xs ys : List Attempt) :
    r.attemptAll (xs ++ ys) =
      ((r.attemptAll xs).1 ++ ((r.attemptAll xs).2.attemptAll ys).1,
        ((r.attemptAll xs).2.attemptAll ys).2) := by
  induction xs generalizing r with
  | nil => rfl
  | cons x xs ih => simp only [List.cons_append, attemptAll, ih]

theorem length_outcomes (r : Registry) (attempts : List Attempt) :
    (r.attemptAll attempts).1.length = attempts.length := by
  induction attempts generalizing r with
  | nil => rfl
  | cons a attempts ih => exact congrArg (· + 1) (ih (r.attempt a).2)

theorem outcomes_take (r : Registry) (attempts : List Attempt) (i : Nat) :
    (r.attemptAll (attempts.take i)).1 = (r.attemptAll attempts).1.take i := by
  induction attempts generalizing r i with
  | nil => rw [List.take_nil, attemptAll, List.take_nil]
  | cons a attempts ih =>
    cases i with
    | zero => rfl
    | succ i => exact congrArg (_ :: ·) (ih (r.attempt a).2 i)

theorem providers_attemptAll (r : Registry) (attempts : List Attempt) :
    (r.attemptAll attempts).2.providers =
      r.providers ++ succeeded attempts (r.attemptAll attempts).1 := by
  induction attempts generalizing r with
  | nil => exact (List.append_nil _).symm
  | cons a attempts ih =>
    show ((r.attempt a).2.attemptAll attempts).2.providers = _
    rw [ih, providers_attempt, List.append_assoc, succeeded, succeeded, ← List.filterMap_append]
    rfl

/-- The attempt at a position, made on the registry that those before it leave. -/
theorem attemptAll_take_succ {attempts : List Attempt} {i : Nat} {a : Attempt}
    (h : attempts[i]? = some a) :
    (empty.attemptAll attempts).1[i]? =
        some ((empty.attemptAll (attempts.take i)).2.attempt a).1 ∧
      (empty.attemptAll (attempts.take (i + 1))).2 =
        ((empty.attemptAll (attempts.take i)).2.attempt a).2 := by
  obtain ⟨hi, _⟩ := List.getElem?_eq_some_iff.1 h
  have hlength : (empty.attemptAll (attempts.take i)).1.length = i := by
    rw [length_outcomes, List.length_take, Nat.min_eq_left (Nat.le_of_lt hi)]
  have hsplit : attempts.take (i + 1) = attempts.take i ++ [a] := by
    rw [List.take_add_one, h, Option.toList_some]
  constructor
  · rw [← List.getElem?_take_of_lt (Nat.lt_succ_self i), ← outcomes_take, hsplit,
      attemptAll_append, List.getElem?_append_right (Nat.le_of_eq hlength), hlength, Nat.sub_self]
    rfl
  · rw [hsplit, attemptAll_append]
    rfl

theorem mem_succeeded {attempts : List Attempt} {outcomes : List (Except ConfigFault Unit)}
    {idp : String} :
    idp ∈ (succeeded attempts outcomes).map Prod.fst ↔
      ∃ (j : Nat) (a : Attempt),
        attempts[j]? = some a ∧ outcomes[j]? = some (.ok ()) ∧ a.idp = idp := by
  rw [List.mem_map]
  constructor
  · rintro ⟨row, hrow, rfl⟩
    obtain ⟨⟨a, outcome⟩, hmem, hsome⟩ := List.mem_filterMap.1 hrow
    obtain ⟨j, hj⟩ := List.mem_iff_getElem?.1 hmem
    obtain ⟨ha, houtcome⟩ := List.getElem?_zip_eq_some.1 hj
    cases outcome with
    | ok _ => exact ⟨j, a, ha, houtcome, congrArg Prod.fst (Option.some.inj hsome)⟩
    | error fault => cases hsome
  · rintro ⟨j, a, ha, houtcome, rfl⟩
    have hpair : (attempts.zip outcomes)[j]? = some (a, .ok ()) :=
      List.getElem?_zip_eq_some.2 ⟨ha, houtcome⟩
    exact ⟨(a.idp, a.provider), List.mem_filterMap.2 ⟨_, List.mem_of_getElem? hpair, rfl⟩, rfl⟩

/-- An attempt before the given one succeeded for an IDP. -/
def TakenBefore (attempts : List Attempt) (i : Nat) (idp : String) : Prop :=
  ∃ j < i, ∃ a : Attempt, attempts[j]? = some a ∧
    (empty.attemptAll attempts).1[j]? = some (.ok ()) ∧ a.idp = idp

/-- The names that an attempt finds in the registry are those of the successful attempts before. -/
theorem takenBefore_iff {attempts : List Attempt} {i : Nat} {idp : String} :
    TakenBefore attempts i idp ↔ idp ∈ (empty.attemptAll (attempts.take i)).2.names := by
  have houtcomes : ∀ j < i, (empty.attemptAll (attempts.take i)).1[j]? =
      (empty.attemptAll attempts).1[j]? := by
    intro j hj
    rw [outcomes_take, List.getElem?_take_of_lt hj]
  have hrows : (empty.attemptAll (attempts.take i)).2.providers =
      succeeded (attempts.take i) (empty.attemptAll (attempts.take i)).1 :=
    providers_attemptAll _ _
  rw [names, hrows, mem_succeeded]
  constructor
  · rintro ⟨j, hj, a, ha, houtcome, hidp⟩
    exact ⟨j, a, (List.getElem?_take_of_lt hj).trans ha, (houtcomes j hj).trans houtcome, hidp⟩
  · rintro ⟨j, a, ha, houtcome, hidp⟩
    have hj : j < i := by
      by_contra hge
      rw [List.getElem?_take_eq_none (Nat.le_of_not_lt hge)] at ha
      cases ha
    exact ⟨j, hj, a, (List.getElem?_take_of_lt hj).symm.trans ha,
      (houtcomes j hj).symm.trans houtcome, hidp⟩

/-! ## What attempts come to -/

structure Consistent (attempts : List Attempt) (outcomes : List (Except ConfigFault Unit))
    (r : Registry) : Prop where
  /-- The index has the listed names and no others, each at its own position. -/
  position : ∀ idp i, r.index.get? idp = some i ↔ ∃ p, r.providers[i]? = some (idp, p)
  found : ∀ idp p, r.get? idp = some p ↔ (idp, p) ∈ r.providers
  absent : ∀ idp, r.get? idp = none ↔ idp ∉ r.names
  distinct : r.names.Nodup
  notBlank : ∀ idp ∈ r.names, Text.isBlank idp = false
  inOrder : r.providers = succeeded attempts outcomes
  answered : outcomes.length = attempts.length
  blank : ∀ (i : Nat) (a : Attempt), attempts[i]? = some a →
    (outcomes[i]? = some (.error (.blankIdpName a.idp)) ↔ Text.isBlank a.idp = true)
  duplicate : ∀ (i : Nat) (a : Attempt), attempts[i]? = some a →
    (outcomes[i]? = some (.error (.duplicateProvider a.idp)) ↔
      Text.isBlank a.idp = false ∧ TakenBefore attempts i a.idp)
  success : ∀ (i : Nat) (a : Attempt), attempts[i]? = some a →
    (outcomes[i]? = some (.ok ()) ↔ Text.isBlank a.idp = false ∧ ¬ TakenBefore attempts i a.idp)
  /-- A refused attempt leaves the list, the index and the providers alone. -/
  unchanged : ∀ (i : Nat) (fault : ConfigFault), outcomes[i]? = some (.error fault) →
    (empty.attemptAll (attempts.take (i + 1))).2 = (empty.attemptAll (attempts.take i)).2

/-- The outcome of an attempt follows from its name and the successful attempts before it. -/
theorem outcome_cases {attempts : List Attempt} {i : Nat} {a : Attempt}
    (h : attempts[i]? = some a) :
    (Text.isBlank a.idp = true ∧
        (empty.attemptAll attempts).1[i]? = some (.error (.blankIdpName a.idp))) ∨
      (Text.isBlank a.idp = false ∧ TakenBefore attempts i a.idp ∧
        (empty.attemptAll attempts).1[i]? = some (.error (.duplicateProvider a.idp))) ∨
      (Text.isBlank a.idp = false ∧ ¬ TakenBefore attempts i a.idp ∧
        (empty.attemptAll attempts).1[i]? = some (.ok ())) := by
  rw [(attemptAll_take_succ h).1, takenBefore_iff, attempt_eq]
  rcases register_cases _ a.idp a.provider with ⟨hb, h⟩ | ⟨hb, hm, h⟩ | ⟨hb, hm, h, _⟩
  · exact .inl ⟨hb, by rw [h]⟩
  · exact .inr (.inl ⟨hb, hm, by rw [h]⟩)
  · exact .inr (.inr ⟨hb, hm, by rw [h]⟩)

/-- Names that are neither blank nor alike are all registered. -/
theorem attemptAll_of_fresh {attempts : List Attempt}
    (hblank : ∀ a ∈ attempts, Text.isBlank a.idp = false)
    (hdistinct : (attempts.map Attempt.idp).Nodup) :
    ∀ outcome ∈ (empty.attemptAll attempts).1, outcome = .ok () := by
  intro outcome houtcome
  obtain ⟨i, hi⟩ := List.mem_iff_getElem?.1 houtcome
  obtain ⟨hlt, _⟩ := List.getElem?_eq_some_iff.1 hi
  rw [length_outcomes] at hlt
  have ha : attempts[i]? = some attempts[i] := List.getElem?_eq_getElem hlt
  have hnot := hblank attempts[i] (List.getElem_mem hlt)
  rcases outcome_cases ha with ⟨hb, _⟩ | ⟨_, htaken, _⟩ | ⟨_, _, hout⟩
  · rw [hnot] at hb
    cases hb
  · obtain ⟨j, hj, b, hb, _, hsame⟩ := htaken
    have hsame' : (attempts.map Attempt.idp)[j]? = (attempts.map Attempt.idp)[i]? := by
      rw [List.getElem?_map, List.getElem?_map, hb, ha, Option.map_some, Option.map_some, hsame]
    have hlt' : j < (attempts.map Attempt.idp).length := by
      rw [List.length_map]
      exact Nat.lt_trans hj hlt
    exact absurd ((List.getElem?_inj hlt' hdistinct).1 hsame') (Nat.ne_of_lt hj)
  · exact Option.some.inj (hi.symm.trans hout)

/-- Attempts that all succeed are all kept. -/
theorem succeeded_of_ok {attempts : List Attempt} {outcomes : List (Except ConfigFault Unit)}
    (hlength : outcomes.length = attempts.length) (h : ∀ outcome ∈ outcomes, outcome = .ok ()) :
    succeeded attempts outcomes = attempts.map fun a => (a.idp, a.provider) := by
  induction attempts generalizing outcomes with
  | nil => rfl
  | cons a attempts ih =>
    cases outcomes with
    | nil => cases hlength
    | cons outcome outcomes =>
      obtain ⟨hfirst, hrest⟩ := List.forall_mem_cons.1 h
      rw [hfirst]
      exact congrArg ((a.idp, a.provider) :: ·) (ih (Nat.succ.inj hlength) hrest)

theorem registrations_consistent (attempts : List Attempt) :
    Consistent attempts (empty.attemptAll attempts).1 (empty.attemptAll attempts).2 where
  position _ _ := index_eq_some_iff
  found _ _ := get?_eq_some_iff
  absent idp := by
    rw [← Option.not_isSome_iff_eq_none, isSome_get?, has, List.contains_iff_mem]
  distinct := Registry.distinct _
  notBlank idp h := by
    obtain ⟨row, hrow, rfl⟩ := List.mem_map.1 h
    exact Registry.notBlank _ row hrow
  inOrder := providers_attemptAll empty attempts
  answered := length_outcomes empty attempts
  blank i a ha := by
    rcases outcome_cases ha with ⟨hb, hout⟩ | ⟨hb, _, hout⟩ | ⟨hb, _, hout⟩
    · simp [hb, hout]
    · simp [hb, hout]
    · simp [hb, hout]
  duplicate i a ha := by
    rcases outcome_cases ha with ⟨hb, hout⟩ | ⟨hb, ht, hout⟩ | ⟨hb, ht, hout⟩
    · simp [hb, hout]
    · simp [hb, hout, ht]
    · simp [hb, hout, ht]
  success i a ha := by
    rcases outcome_cases ha with ⟨hb, hout⟩ | ⟨hb, ht, hout⟩ | ⟨hb, ht, hout⟩
    · simp [hb, hout]
    · simp [hb, hout, ht]
    · simp [hb, hout, ht]
  unchanged i fault hout := by
    have hi : i < attempts.length := by
      obtain ⟨hlt, _⟩ := List.getElem?_eq_some_iff.1 hout
      rwa [length_outcomes] at hlt
    obtain ⟨hnow, hnext⟩ := attemptAll_take_succ (List.getElem?_eq_getElem hi)
    rw [hnext]
    exact attempt_refused (Option.some.inj (hnow.symm.trans hout))

/-- A name with a blank in it is another name, a name of blanks is refused, and so is the second
provider for a name. -/
example :
    (empty.attemptAll [⟨"ldap", .outside 0, false⟩, ⟨"ldap ", .outside 1, true⟩,
      ⟨" ", .outside 2, false⟩, ⟨"ldap", .outside 3, true⟩]).2.names = ["ldap", "ldap "] := by
  decide

end Registry
end Enrolment
