import Enrolment.Registry
import Mathlib.Data.List.Nodup

/-!
The registry as a list of rows: a look-up finds the row of exactly this name, and there is at most
one.
-/

namespace Enrolment
namespace Registry

/-- Two rows of one name would stand at one position. -/
theorem distinct (r : Registry) : (r.providers.map Prod.fst).Nodup := by
  refine List.nodup_iff_getElem?_ne_getElem?.2 fun i j hij hj heq => ?_
  obtain ⟨idp, hidp⟩ : ∃ idp, (r.providers.map Prod.fst)[j]? = some idp :=
    ⟨_, List.getElem?_eq_getElem hj⟩
  have hi := (r.indexed idp i).2 (heq.trans hidp)
  rw [(r.indexed idp j).2 hidp] at hi
  exact Nat.ne_of_gt hij (Option.some.inj hi)

theorem index_eq_some_iff {r : Registry} {idp : String} {i : Nat} :
    r.index.get? idp = some i ↔ ∃ p, r.providers[i]? = some (idp, p) := by
  rw [r.indexed, List.getElem?_map, Option.map_eq_some_iff]
  constructor
  · rintro ⟨⟨name, p⟩, hrow, rfl⟩
    exact ⟨p, hrow⟩
  · rintro ⟨p, hrow⟩
    exact ⟨(idp, p), hrow, rfl⟩

theorem get?_of_index {r : Registry} {idp : String} {i : Nat} {p : Provider}
    (h : r.providers[i]? = some (idp, p)) : r.get? idp = some p := by
  have hindex := index_eq_some_iff.2 ⟨p, h⟩
  obtain ⟨hlt, hrow⟩ := List.getElem?_eq_some_iff.1 h
  rw [get?]
  split
  · next j hj =>
    obtain rfl : i = j := Option.some.inj (hindex.symm.trans hj)
    rw [List.get_eq_getElem, hrow]
  · next hnone => exact absurd (hindex.symm.trans hnone) (Option.some_ne_none i)

theorem get?_eq_none_of_index {r : Registry} {idp : String} (h : r.index.get? idp = none) :
    r.get? idp = none := by
  rw [get?]
  split
  · next i hi => exact absurd (hi.symm.trans h) (Option.some_ne_none i)
  · rfl

theorem get?_eq_some_iff {r : Registry} {idp : String} {p : Provider} :
    r.get? idp = some p ↔ (idp, p) ∈ r.providers := by
  constructor
  · intro h
    cases hindex : r.index.get? idp with
    | none => exact absurd (h.symm.trans (get?_eq_none_of_index hindex)) (Option.some_ne_none p)
    | some i =>
      obtain ⟨q, hrow⟩ := index_eq_some_iff.1 hindex
      rw [get?_of_index hrow] at h
      exact Option.some.inj h ▸ List.mem_of_getElem? hrow
  · intro h
    obtain ⟨i, hrow⟩ := List.mem_iff_getElem?.1 h
    exact get?_of_index hrow

theorem under_eq (r : Registry) (idp : String) :
    r.providers.filter (·.1 == idp) = (r.get? idp).toList.map (idp, ·) := by
  cases h : r.get? idp with
  | none =>
    refine List.filter_eq_nil_iff.2 fun ⟨name, p⟩ hrow hname => ?_
    obtain rfl : name = idp := beq_iff_eq.1 hname
    rw [get?_eq_some_iff.2 hrow] at h
    exact absurd h (Option.some_ne_none p)
  | some p =>
    have hrows : (r.providers.filter (·.1 == idp)).Nodup := (r.distinct.of_map _).filter _
    refine List.perm_singleton.1 ((List.perm_ext_iff_of_nodup hrows (List.nodup_singleton _)).2 ?_)
    rintro ⟨name, q⟩
    rw [List.mem_filter, List.mem_singleton, beq_iff_eq, ← get?_eq_some_iff]
    constructor
    · rintro ⟨hq, rfl⟩
      rw [Option.some.inj (hq.symm.trans h)]
    · intro heq
      obtain ⟨rfl, rfl⟩ := Prod.mk.inj heq
      exact ⟨h, rfl⟩

theorem isSome_get? (r : Registry) (idp : String) : (r.get? idp).isSome = r.has idp := by
  rw [Bool.eq_iff_iff, Option.isSome_iff_exists, has, names, List.contains_iff_mem, List.mem_map]
  constructor
  · rintro ⟨p, hp⟩
    exact ⟨(idp, p), get?_eq_some_iff.1 hp, rfl⟩
  · rintro ⟨⟨name, p⟩, hrow, rfl⟩
    exact ⟨p, get?_eq_some_iff.2 hrow⟩

end Registry
end Enrolment
