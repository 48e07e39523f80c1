import Enrolment.Principal

/-!
Sets of group principals through `find?`.

A set is determined by the principal that it has for each name (`ext_find?`), and inserting a list
leaves under each name the principal that was there, else the first of the list with this name
(`find?_insertAll`).
-/

namespace Enrolment
namespace GroupSet

theorem find?_empty (name : String) : empty.find? name = none := rfl

theorem name_of_find? {s : GroupSet} {name : String} {p : Principal}
    (h : s.find? name = some p) : p.name = name := by
  obtain ⟨k, _, rfl⟩ := Option.map_eq_some_iff.1 h
  rfl

theorem ext_find? {s t : GroupSet} (h : ∀ name, s.find? name = t.find? name) : s = t := by
  have hkinds : s.kinds = t.kinds := by
    refine Table.ext_get? fun name => ?_
    refine Option.map_injective (f := (Principal.mk name ·)) (fun a b hab => ?_) (h name)
    exact (Principal.mk.inj hab).2
  cases s
  cases t
  exact congrArg GroupSet.mk hkinds

theorem find?_insertAll (s : GroupSet) (ps : List Principal) (name : String) :
    (s.insertAll ps).find? name = (s.find? name).or (ps.find? (·.name == name)) := by
  induction ps generalizing s with
  | nil => rw [insertAll, List.foldl_nil, List.find?_nil, Option.or_none]
  | cons p ps ih =>
    have hstep : s.insertAll (p :: ps) = (s.insert p).insertAll ps := rfl
    -- `or` keeps the first: the set wins over `p`, and `p` over the rest of the list.
    rw [hstep, ih, find?_insert, Option.or_assoc, List.find?_cons]
    by_cases hn : name = p.name
    · rw [if_pos hn, beq_iff_eq.2 hn.symm]
      rfl
    · rw [if_neg hn, beq_eq_false_iff_ne.2 (Ne.symm hn)]
      rfl

theorem find?_ofList (ps : List Principal) (name : String) :
    (ofList ps).find? name = ps.find? (·.name == name) := by
  rw [ofList, find?_insertAll, find?_empty, Option.none_or]

theorem hasName_iff {s : GroupSet} {name : String} :
    s.hasName name = true ↔ ∃ p, s.find? name = some p := by
  rw [hasName, Table.contains, ← Option.isSome_iff_exists, find?, Option.isSome_map]

theorem hasName_ofList {ps : List Principal} {name : String} :
    (ofList ps).hasName name = true ↔ ∃ p ∈ ps, p.name = name := by
  rw [hasName_iff, ← Option.isSome_iff_exists, find?_ofList, List.find?_isSome]
  simp only [beq_iff_eq]

theorem hasName_insertAll {s : GroupSet} {ps : List Principal} {name : String} :
    (s.insertAll ps).hasName name = true ↔ s.hasName name = true ∨ ∃ p ∈ ps, p.name = name := by
  rw [hasName_iff, hasName_iff, ← Option.isSome_iff_exists, ← Option.isSome_iff_exists,
    find?_insertAll, Option.isSome_or, Bool.or_eq_true, List.find?_isSome]
  simp only [beq_iff_eq]

theorem mem_toList {s : GroupSet} {p : Principal} : p ∈ s.toList ↔ s.find? p.name = some p := by
  rw [toList, List.mem_map, find?, Option.map_eq_some_iff]
  constructor
  · rintro ⟨row, hrow, rfl⟩
    exact ⟨row.2, Table.get?_eq_some_iff.2 hrow, rfl⟩
  · rintro ⟨k, hk, hp⟩
    exact ⟨(p.name, k), Table.get?_eq_some_iff.1 hk, hp⟩

theorem mem_of_mem_toList_insertAll {s : GroupSet} {ps : List Principal} {p : Principal}
    (h : p ∈ (s.insertAll ps).toList) : p ∈ s.toList ∨ p ∈ ps := by
  rw [mem_toList, find?_insertAll, Option.or_eq_some_iff] at h
  rcases h with h | ⟨_, h⟩
  · exact .inl (mem_toList.2 h)
  · exact .inr (List.mem_of_find?_eq_some h)

theorem mem_of_mem_toList_ofList {ps : List Principal} {p : Principal}
    (h : p ∈ (ofList ps).toList) : p ∈ ps := by
  rw [mem_toList, find?_ofList] at h
  exact List.mem_of_find?_eq_some h

end GroupSet
end Enrolment
