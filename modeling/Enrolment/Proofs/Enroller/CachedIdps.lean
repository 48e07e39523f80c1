import Enrolment.Proofs.Enroller.FirstUse
import Enrolment.Proofs.Table

/-!
Which IDPs have an entry in the cache of an enroller.

From an empty cache a run gives an entry to the mapped IDPs that it uses and to no others
(`keys_run_perm`).  An entry never goes away, and asking which IDPs grant a principal leaves an
entry for every mapped IDP, so that the sizes of the cache and of the mapping tell whether one is
missing.
-/

namespace Enrolment

namespace Cache

theorem contains_iff {c : Cache} {idp : String} : c.contains idp = true ↔ idp ∈ c.sets.keys :=
  Table.contains_iff_mem_keys

theorem contains_eq_isSome (c : Cache) (idp : String) :
    c.contains idp = (c.sets.get? idp).isSome := rfl

end Cache

/-- Whether some call of a run uses the standing groups of an IDP. -/
def usedIn (calls : List (World × Call)) (idp : String) : Bool := calls.any (·.2.uses idp)

theorem isSome_firstUse? (calls : List (World × Call)) (idp : String) :
    (firstUse? calls idp).isSome = usedIn calls idp := by
  rw [firstUse?, Option.isSome_map, List.isSome_find?, usedIn]

namespace Enroller

theorem isSome_fresh? (n : Enroller) (s : Store) (idp : String) :
    (n.fresh? s idp).isSome = n.standing.hasIdp idp := by
  rw [fresh?]
  cases n.standing.hasIdp idp <;> rfl

theorem isSome_kept? (n : Enroller) (calls : List (World × Call)) (idp : String) :
    (n.kept? calls idp).isSome = (usedIn calls idp && n.standing.hasIdp idp) := by
  rw [kept?, ← isSome_firstUse?]
  cases firstUse? calls idp with
  | none => rfl
  | some first => exact isSome_fresh? n first.store idp

theorem contains_perform (n : Enroller) (w : World) (c : Cache) (call : Call) (idp : String) :
    (n.perform w c call).value.2.contains idp =
      (c.contains idp || (call.uses idp && n.standing.hasIdp idp)) := by
  rw [Cache.contains_eq_isSome, get?_perform, Option.isSome_or, Cache.contains_eq_isSome]
  cases call.uses idp with
  | false => rfl
  | true => rw [if_pos rfl, isSome_fresh?, Bool.true_and]

theorem contains_run (n : Enroller) (calls : List (World × Call)) (c : Cache) (idp : String) :
    (n.run calls c).value.2.contains idp =
      (c.contains idp || (usedIn calls idp && n.standing.hasIdp idp)) := by
  rw [Cache.contains_eq_isSome, get?_run, Option.isSome_or, isSome_kept?,
    Cache.contains_eq_isSome]

/-- A mapped IDP has an entry from its first use on. -/
theorem contains_after_use (n : Enroller) (w : World) (c : Cache) {call : Call} {idp : String}
    (hu : call.uses idp = true) (hm : n.standing.hasIdp idp = true) (more : List (World × Call)) :
    (n.run more (n.perform w c call).value.2).value.2.contains idp = true := by
  rw [contains_run, contains_perform, hu, hm, Bool.and_true, Bool.or_true, Bool.true_or]

/-- A run caches the mapped IDPs that it uses, each once, and no others. -/
theorem keys_run_perm (n : Enroller) (calls : List (World × Call)) :
    (n.run calls Cache.empty).value.2.sets.keys.Perm
      (n.standing.idps.filter (usedIn calls)) := by
  have hidps : n.standing.idps.Nodup := Table.nodup_keys _
  refine (List.perm_ext_iff_of_nodup (Table.nodup_keys _) (hidps.filter _)).2 fun idp => ?_
  have hempty : Cache.empty.contains idp = false := rfl
  rw [← Cache.contains_iff, contains_run, hempty, Bool.false_or, Bool.and_eq_true, List.mem_filter,
    Standing.mem_idps_iff, and_comm]

theorem keys_run_subset (n : Enroller) (calls : List (World × Call)) :
    (n.run calls Cache.empty).value.2.sets.keys ⊆ n.standing.idps := fun _ h =>
  (List.mem_filter.1 ((keys_run_perm n calls).subset h)).1

theorem size_run (n : Enroller) (calls : List (World × Call)) :
    (n.run calls Cache.empty).value.2.size =
      (n.standing.idps.filter (usedIn calls)).length := by
  rw [Cache.size, ← Table.length_keys, (keys_run_perm n calls).length_eq]

theorem size_run_le (n : Enroller) (calls : List (World × Call)) :
    (n.run calls Cache.empty).value.2.size ≤ n.standing.size :=
  Table.size_le_of_keys_subset (keys_run_subset n calls)

/-- In a state that a run reaches, the sizes tell exactly whether an entry is missing. -/
theorem size_run_lt_iff (n : Enroller) (calls : List (World × Call)) :
    (n.run calls Cache.empty).value.2.size < n.standing.size ↔
      ∃ idp, n.standing.hasIdp idp = true ∧
        (n.run calls Cache.empty).value.2.contains idp = false := by
  refine (Table.size_lt_iff_of_keys_subset (keys_run_subset n calls)).trans ?_
  constructor
  · rintro ⟨idp, hidp, hmissing⟩
    refine ⟨idp, Standing.mem_idps_iff.1 hidp, ?_⟩
    rw [← Bool.not_eq_true, Cache.contains_iff]
    exact hmissing
  · rintro ⟨idp, hidp, hmissing⟩
    refine ⟨idp, Standing.mem_idps_iff.2 hidp, ?_⟩
    rw [← Cache.contains_iff, hmissing]
    exact Bool.false_ne_true

end Enroller
end Enrolment
