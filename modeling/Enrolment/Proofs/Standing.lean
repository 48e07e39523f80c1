import Enrolment.Configuration
import Enrolment.Proofs.Table

/-!
Standing groups as finite maps: what they answer after some assignments, and when two of them are
equal.

Everything comes down to the table of an IDP's groups.  An IDP that is mapped to no groups differs
from one that is not mapped, so both questions are needed to tell standing groups apart.
-/

namespace Enrolment
namespace Standing

variable {rows before after : List (String × List String)} {idp : String} {ids : List String}

/-! ## Answers -/

theorem mem_idps_iff {m : Standing} {idp : String} : idp ∈ m.idps ↔ m.hasIdp idp = true :=
  Table.contains_iff_mem_keys.symm

theorem groupIds_of_unmapped {m : Standing} {idp : String} (h : m.hasIdp idp = false) :
    m.groupIds idp = [] := by
  have hnone : m.groups.get? idp = none := by
    refine Table.get?_eq_none_iff.2 fun hmem => ?_
    rw [mem_idps_iff.1 hmem] at h
    cases h
  rw [groupIds, hnone]
  rfl

theorem groups_foldl (m : Standing) (rows : List (String × List String)) :
    (rows.foldl (fun m row => m.assign row.1 row.2) m).groups =
      rows.foldl (fun t row => t.insert row.1 row.2) m.groups := by
  induction rows generalizing m with
  | nil => rfl
  | cons row rows ih => exact ih (m.assign row.1 row.2)

theorem ofList_eq (rows : List (String × List String)) : ofList rows = ⟨Table.ofList rows⟩ :=
  congrArg Standing.mk (groups_foldl empty rows)

theorem hasIdp_ofList_iff : (ofList rows).hasIdp idp = true ↔ idp ∈ rows.map Prod.fst := by
  rw [ofList_eq]
  exact Table.contains_ofList_iff

/-- Only the last assignment for an IDP counts. -/
theorem groupIds_ofList_last (h : idp ∉ after.map Prod.fst) :
    (ofList (before ++ (idp, ids) :: after)).groupIds idp = ids := by
  have hnone : after.reverse.lookup idp = none := by
    rw [lookup_eq_none_iff_not_mem, List.map_reverse, List.mem_reverse]
    exact h
  rw [ofList_eq, groupIds, Table.get?_ofList, List.reverse_append, List.reverse_cons,
    List.append_assoc, List.lookup_append, hnone, Option.none_or, List.singleton_append,
    List.lookup_cons_self]
  rfl

/-! ## Equality -/

/-- The table of groups is determined by the two questions. -/
theorem get?_groups (m : Standing) (idp : String) :
    m.groups.get? idp = if m.hasIdp idp then some (m.groupIds idp) else none := by
  rw [hasIdp, Table.contains, groupIds]
  cases m.groups.get? idp with
  | none => rfl
  | some ids => rfl

theorem ext {m m' : Standing} (hidp : ∀ idp, m.hasIdp idp = m'.hasIdp idp)
    (hids : ∀ idp, m.groupIds idp = m'.groupIds idp) : m = m' := by
  have hgroups : m.groups = m'.groups := Table.ext_get? fun idp => by
    rw [get?_groups, get?_groups, hidp, hids]
  cases m
  cases m'
  exact congrArg Standing.mk hgroups

theorem assign_comm (m : Standing) {idp other : String} (h : idp ≠ other)
    (ids others : List String) :
    (m.assign idp ids).assign other others = (m.assign other others).assign idp ids := by
  refine ext (fun name => ?_) fun name => ?_
  · simp only [hasIdp_assign, Bool.or_left_comm]
  · simp only [groupIds_assign]
    by_cases hname : name = other
    · rw [if_pos hname, if_neg (fun heq => h (heq.symm.trans hname)), if_pos hname]
    · rw [if_neg hname, if_neg hname]

theorem assign_assign (m : Standing) (idp : String) (ids others : List String) :
    (m.assign idp ids).assign idp others = m.assign idp others := by
  refine ext (fun name => ?_) fun name => ?_
  · simp only [hasIdp_assign, ← Bool.or_assoc, Bool.or_self]
  · simp only [groupIds_assign]
    by_cases hname : name = idp
    · rw [if_pos hname, if_pos hname]
    · rw [if_neg hname, if_neg hname, if_neg hname]

/-! ## Rows of different IDPs -/

/-- A table is put together from its rows in any order. -/
theorem ofList_of_perm {t : Table (List String)} (h : rows.Perm t.rows) : ofList rows = ⟨t⟩ := by
  have hdistinct : (rows.map Prod.fst).Nodup := (h.map Prod.fst).nodup_iff.2 t.nodup_keys
  rw [ofList_eq, mk.injEq, eq_comm, Table.eq_ofList_iff hdistinct]
  intro key value
  rw [Table.get?_eq_some_iff, h.mem_iff]

theorem ofList_perm (h : (rows.map Prod.fst).Nodup) {rows' : List (String × List String)}
    (hperm : rows.Perm rows') : ofList rows = ofList rows' := by
  have hdistinct' : (rows'.map Prod.fst).Nodup := (hperm.map Prod.fst).nodup_iff.1 h
  rw [ofList_eq, ofList_eq, mk.injEq, Table.eq_ofList_iff hdistinct']
  intro key value
  rw [Table.get?_ofList_eq_some_iff h, hperm.mem_iff]

/-! ## What standing groups are -/

structure Extensional : Prop where
  /-- The last assignment for an IDP counts, with order and repetitions. -/
  last : ∀ before idp ids after, idp ∉ after.map Prod.fst →
    (ofList (before ++ (idp, ids) :: after)).groupIds idp = ids
  absent : ∀ rows idp, idp ∉ rows.map Prod.fst → (ofList rows).groupIds idp = []
  /-- An IDP is mapped even if it is mapped to nothing. -/
  mapped : ∀ rows idp, (ofList rows).hasIdp idp = true ↔ idp ∈ rows.map Prod.fst
  listed : ∀ (m : Standing) idp id, m.hasGroup idp id = true ↔ id ∈ m.groupIds idp
  names : ∀ rows, (ofList rows).idps.Nodup ∧
    (∀ idp, idp ∈ (ofList rows).idps ↔ idp ∈ rows.map Prod.fst) ∧
    (ofList rows).size = (ofList rows).idps.length
  equal : ∀ m m' : Standing, m = m' ↔
    ∀ idp, m.hasIdp idp = m'.hasIdp idp ∧ m.groupIds idp = m'.groupIds idp
  replaced : ∀ (m : Standing) idp ids ids', (m.assign idp ids).assign idp ids' = m.assign idp ids'
  commuting : ∀ (m : Standing) idp ids idp' ids', idp ≠ idp' →
    (m.assign idp ids).assign idp' ids' = (m.assign idp' ids').assign idp ids
  reordered : ∀ rows rows', (rows.map Prod.fst).Nodup → rows.Perm rows' →
    ofList rows = ofList rows'
  /-- The rows of a map are assigned in any order, also those of a configuration. -/
  collected : ∀ (t : Table (List String)) rows, rows.Perm t.rows → ofList rows = ⟨t⟩
  configured : ∀ (c : Configuration) rows, rows.Perm c.mapping.rows →
    ofList rows = ofConfiguration c

theorem extensional : Extensional where
  last _ _ _ _ h := groupIds_ofList_last h
  absent _ _ h := groupIds_of_unmapped (Bool.eq_false_iff.2 (mt hasIdp_ofList_iff.1 h))
  mapped _ _ := hasIdp_ofList_iff
  listed _ _ _ := List.contains_iff_mem
  names rows := ⟨Table.nodup_keys _, fun _ => mem_idps_iff.trans hasIdp_ofList_iff,
    (Table.length_keys _).symm⟩
  equal m m' := by
    constructor
    · intro h idp
      rw [h]
      exact ⟨rfl, rfl⟩
    · intro h
      exact ext (fun idp => (h idp).1) fun idp => (h idp).2
  replaced := assign_assign
  commuting m _ ids _ ids' h := m.assign_comm h ids ids'
  reordered _ _ h hperm := ofList_perm h hperm
  collected _ _ h := ofList_of_perm h
  configured _ _ h := ofList_of_perm h

end Standing
end Enrolment
