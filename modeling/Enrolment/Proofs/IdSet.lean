import Enrolment.Proofs.Table
import Enrolment.Provider.AllowList

/-!
Sets of ids by their members.

A set is determined by its members (`ext_ids`), and inserting a list adds the ids of the list.
-/

namespace Enrolment
namespace IdSet

theorem mem_insertAll {s : IdSet} {ids : List String} {id : String} :
    id ∈ (insertAll s ids).ids ↔ id ∈ s.ids ∨ id ∈ ids := by
  induction ids generalizing s with
  | nil => simp [insertAll]
  | cons first rest ih =>
    show id ∈ (insertAll (s.insert first ()) rest).ids ↔ _
    rw [ih, ids, Table.mem_keys_insert, List.mem_cons, or_comm (a := id = first), or_assoc]
    rfl

theorem ofList_eq_insertAll (ids : List String) : ofList ids = insertAll Table.empty ids := by
  unfold ofList insertAll Table.ofList
  rw [List.foldl_map]

theorem mem_ofList {ids : List String} {id : String} : id ∈ (ofList ids).ids ↔ id ∈ ids := by
  rw [ofList_eq_insertAll, mem_insertAll]
  exact or_iff_right List.not_mem_nil

theorem ext_ids {s t : IdSet} (h : ∀ id, id ∈ s.ids ↔ id ∈ t.ids) : s = t := by
  apply Table.ext_get?
  intro id
  have hbound : s.contains id = t.contains id := by
    rw [Bool.eq_iff_iff, Table.contains_iff_mem_keys, Table.contains_iff_mem_keys]
    exact h id
  unfold Table.contains at hbound
  -- The rows carry nothing but their key, so being bound is all there is to a look-up.
  cases hs : s.get? id <;> cases ht : t.get? id <;> simp_all

end IdSet
end Enrolment
