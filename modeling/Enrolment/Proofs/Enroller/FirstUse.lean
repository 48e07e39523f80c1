import Enrolment.Enroller.Call
import Enrolment.Proofs.Standing

/-!
What the cache of an enroller holds after a run.

A run uses the standing groups of an IDP when it asks for an entity's groups for this IDP, and also
when it asks which IDPs grant a principal.  The theorem of this file is `get?_run`: whatever happens
between the calls, the cache holds for a mapped IDP the groups as they were vetted in the world of
the first use, and nothing for any other IDP.
-/

namespace Enrolment

def Call.uses (idp : String) : Call → Bool
  | .groups other _ => other == idp
  | .isMember .. => false
  | .members _ => false
  | .idpsGranting _ => true

/-- The world in which a run uses the standing groups of an IDP for the first time. -/
def firstUse? (calls : List (World × Call)) (idp : String) : Option World :=
  (calls.find? (·.2.uses idp)).map Prod.fst

theorem firstUse?_cons (w : World) (call : Call) (calls : List (World × Call)) (idp : String) :
    firstUse? ((w, call) :: calls) idp =
      if call.uses idp then some w else firstUse? calls idp := by
  rw [firstUse?, List.find?_cons]
  cases call.uses idp <;> rfl

theorem mem_of_firstUse? {calls : List (World × Call)} {idp : String} {w : World}
    (h : firstUse? calls idp = some w) : ∃ call, (w, call) ∈ calls := by
  obtain ⟨x, hx, rfl⟩ := Option.map_eq_some_iff.1 h
  exact ⟨x.2, List.mem_of_find?_eq_some hx⟩

namespace Enroller

/-- The standing groups of an IDP as a store has them. -/
def vetted (n : Enroller) (s : Store) (idp : String) : GroupSet :=
  GroupSet.ofList (s.vetAll (n.standing.groupIds idp)).value

/-- What is to be kept for an IDP that is used for the first time: nothing if it is not mapped. -/
def fresh? (n : Enroller) (s : Store) (idp : String) : Option GroupSet :=
  if n.standing.hasIdp idp then some (n.vetted s idp) else none

theorem fresh?_of_mapped {n : Enroller} {idp : String} (h : n.standing.hasIdp idp = true)
    (s : Store) : n.fresh? s idp = some (n.vetted s idp) := if_pos h

theorem fresh?_of_unmapped {n : Enroller} {idp : String} (h : n.standing.hasIdp idp = false)
    (s : Store) : n.fresh? s idp = none := if_neg (Bool.eq_false_iff.1 h)

/-- What a run leaves behind for an IDP. -/
def kept? (n : Enroller) (calls : List (World × Call)) (idp : String) : Option GroupSet :=
  (firstUse? calls idp).bind fun w => n.fresh? w.store idp

theorem kept?_of_unmapped {n : Enroller} {idp : String} (h : n.standing.hasIdp idp = false)
    (calls : List (World × Call)) : n.kept? calls idp = none := by
  rw [kept?]
  cases firstUse? calls idp with
  | none => rfl
  | some first => exact fresh?_of_unmapped h first.store

theorem kept?_cons (n : Enroller) (w : World) (call : Call) (calls : List (World × Call))
    (idp : String) :
    n.kept? ((w, call) :: calls) idp =
      (if call.uses idp then n.fresh? w.store idp else none).or (n.kept? calls idp) := by
  rw [kept?, firstUse?_cons]
  by_cases hu : call.uses idp = true
  · rw [if_pos hu, if_pos hu, Option.bind_some]
    cases hm : n.standing.hasIdp idp with
    | true => rw [fresh?_of_mapped hm, Option.some_or]
    -- For an IDP that is not mapped the later uses leave as little behind as this one.
    | false => rw [fresh?_of_unmapped hm, kept?_of_unmapped hm, Option.none_or]
  · rw [if_neg hu, if_neg hu, Option.none_or, kept?]

/-! ## One question -/

/-- The three courses that a question for the standing groups of one IDP can take: they are found
in the cache, or vetted and kept, or there are none. -/
theorem standingSet_cases (n : Enroller) (s : Store) (idp : String) (c : Cache) :
    (∃ set, c.sets.get? idp = some set ∧
      n.standingSet s idp c = ⟨(set, { c with hits := c.hits + 1 }), [.note (.hit idp)]⟩) ∨
    (c.sets.get? idp = none ∧ n.standing.hasIdp idp = true ∧
      n.standingSet s idp c =
        ⟨(n.vetted s idp,
            { c with sets := c.sets.insert idp (n.vetted s idp), misses := c.misses + 1 }),
          (s.vetAll (n.standing.groupIds idp)).events ++
            [.note (.populated idp (n.standing.groupIds idp).length (n.vetted s idp).size)]⟩) ∨
    (c.sets.get? idp = none ∧ n.standing.hasIdp idp = false ∧
      n.standingSet s idp c = ⟨(GroupSet.empty, { c with misses := c.misses + 1 }), []⟩) := by
  cases hc : c.sets.get? idp with
  | some set =>
    refine .inl ⟨set, rfl, ?_⟩
    rw [standingSet, Cache.take_of_some hc]
    rfl
  | none =>
    refine .inr ?_
    rw [standingSet, Cache.take_of_none hc]
    cases hm : n.standing.hasIdp idp with
    | true => exact .inl ⟨rfl, rfl, rfl⟩
    | false => exact .inr ⟨rfl, rfl, rfl⟩

/-- The answer for one IDP comes from the cache, else from the store; unmapped IDPs have nothing. -/
theorem value_standingSet (n : Enroller) (s : Store) (idp : String) (c : Cache) :
    (n.standingSet s idp c).value.1 =
      ((c.sets.get? idp).or (n.fresh? s idp)).getD GroupSet.empty := by
  rcases n.standingSet_cases s idp c with ⟨set, hc, heq⟩ | ⟨hc, hm, heq⟩ | ⟨hc, hm, heq⟩
  · rw [heq, hc]
    rfl
  · rw [heq, hc, fresh?_of_mapped hm]
    rfl
  · rw [heq, hc, fresh?_of_unmapped hm]
    rfl

theorem get?_standingSet (n : Enroller) (s : Store) (idp : String) (c : Cache) (other : String) :
    (n.standingSet s idp c).value.2.sets.get? other =
      (c.sets.get? other).or (if other = idp then n.fresh? s idp else none) := by
  rcases n.standingSet_cases s idp c with ⟨set, hc, heq⟩ | ⟨hc, hm, heq⟩ | ⟨_, hm, heq⟩
  · rw [heq]
    by_cases ho : other = idp
    · rw [ho, hc, Option.some_or]
    · rw [if_neg ho, Option.or_none]
  · rw [heq, Table.get?_insert, fresh?_of_mapped hm]
    by_cases ho : other = idp
    · rw [if_pos ho, if_pos ho, ho, hc, Option.none_or]
    · rw [if_neg ho, if_neg ho, Option.or_none]
  · rw [heq, fresh?_of_unmapped hm, ite_self, Option.or_none]

theorem get?_standingSets (n : Enroller) (s : Store) (idps : List String) (c : Cache)
    (other : String) :
    (n.standingSets s idps c).value.2.sets.get? other =
      (c.sets.get? other).or (if other ∈ idps then n.fresh? s other else none) := by
  induction idps generalizing c with
  | nil => simp [standingSets]
  | cons idp idps ih =>
    show (n.standingSets s idps (n.standingSet s idp c).value.2).value.2.sets.get? other = _
    rw [ih, get?_standingSet, Option.or_assoc]
    by_cases ho : other = idp
    · subst ho
      rw [if_pos rfl, if_pos List.mem_cons_self]
      by_cases hi : other ∈ idps
      · rw [if_pos hi, Option.or_self]
      · rw [if_neg hi, Option.or_none]
    · rw [if_neg ho, Option.none_or]
      simp only [List.mem_cons, ho, false_or]

theorem value_standingSets (n : Enroller) (s : Store) (idps : List String) (c : Cache) :
    (n.standingSets s idps c).value.1 =
      idps.map fun idp => (idp, ((c.sets.get? idp).or (n.fresh? s idp)).getD GroupSet.empty) := by
  induction idps generalizing c with
  | nil => rfl
  | cons idp idps ih =>
    have hstep : (n.standingSets s (idp :: idps) c).value.1 =
        (idp, (n.standingSet s idp c).value.1) ::
          (n.standingSets s idps (n.standingSet s idp c).value.2).value.1 := rfl
    rw [hstep, ih, value_standingSet, List.map_cons]
    refine congrArg _ (List.map_congr_left fun other _ => ?_)
    -- If `idp` is named again, it is found in the cache with the answer just given.
    rw [get?_standingSet, Option.or_assoc]
    by_cases ho : other = idp
    · subst ho
      rw [if_pos rfl, Option.or_self]
    · rw [if_neg ho, Option.none_or]

/-! ## Calls and runs -/

theorem cache_groups (n : Enroller) (w : World) (idp : String) (e : Entity) (c : Cache) :
    (n.groups w idp e c).value.2 = (n.standingSet w.store idp c).value.2 := by
  rw [groups, Traced.value_bind]
  cases n.registry.get? idp with
  | none => rfl
  | some p =>
    simp only [Traced.value_bind, World.askGroups]
    cases p.groupsOf w e <;> rfl

theorem cache_idpsGranting (n : Enroller) (s : Store) (p : Principal) (c : Cache) :
    (n.idpsGranting s p c).value.2 = (n.standingSets s n.standing.idps c).value.2 := by
  rw [idpsGranting]
  split <;> rfl

theorem get?_perform (n : Enroller) (w : World) (c : Cache) (call : Call) (idp : String) :
    (n.perform w c call).value.2.sets.get? idp =
      (c.sets.get? idp).or (if call.uses idp then n.fresh? w.store idp else none) := by
  cases call with
  | groups other e =>
    show (n.groups w other e c).value.2.sets.get? idp = _
    rw [cache_groups, get?_standingSet, Call.uses]
    by_cases ho : idp = other
    · rw [if_pos ho, beq_iff_eq.2 ho.symm, ho]
      rfl
    · rw [if_neg ho, beq_eq_false_iff_ne.2 (Ne.symm ho)]
      rfl
  | isMember other group e => exact (Option.or_none ..).symm
  | members group => exact (Option.or_none ..).symm
  | idpsGranting p =>
    show (n.idpsGranting w.store p c).value.2.sets.get? idp = _
    rw [cache_idpsGranting, get?_standingSets, Call.uses, if_pos rfl]
    by_cases hm : n.standing.hasIdp idp = true
    · rw [if_pos (Standing.mem_idps_iff.2 hm)]
    · rw [if_neg (fun h => hm (Standing.mem_idps_iff.1 h)), fresh?, if_neg hm]

/-- Entries are never replaced: what was there before the run stays, and of the uses in the run the
first one counts. -/
theorem get?_run (n : Enroller) (calls : List (World × Call)) (c : Cache) (idp : String) :
    (n.run calls c).value.2.sets.get? idp = (c.sets.get? idp).or (n.kept? calls idp) := by
  induction calls generalizing c with
  | nil => exact (Option.or_none ..).symm
  | cons x calls ih =>
    obtain ⟨w, call⟩ := x
    show (n.run calls (n.perform w c call).value.2).value.2.sets.get? idp = _
    rw [ih, get?_perform, Option.or_assoc, kept?_cons]

theorem get?_run_empty (n : Enroller) (calls : List (World × Call)) (idp : String) :
    (n.run calls Cache.empty).value.2.sets.get? idp = n.kept? calls idp := by
  rw [get?_run, Cache.empty, Table.get?_empty, Option.none_or]

theorem run_append (n : Enroller) (calls more : List (World × Call)) (c : Cache) :
    (n.run (calls ++ more) c).value.2 = (n.run more (n.run calls c).value.2).value.2 := by
  induction calls generalizing c with
  | nil => rfl
  | cons x calls ih => exact ih _

end Enroller
end Enrolment
