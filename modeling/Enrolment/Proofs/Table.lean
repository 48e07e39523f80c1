import Enrolment.Table
import Mathlib.Data.List.Nodup
import Mathlib.Data.List.Perm.Subperm

/-!
Rows and tables: look-ups in rows, the keys of a table, and tables put together from rows.

A table has every key once, and one more after a new key is bound.  The comparison of two sizes is
for a table whose keys are among those of another: it is smaller exactly if it lacks one of them.
-/

namespace Enrolment

section

variable {α : Type} {rows : List (String × α)} {key : String} {value : α}

theorem mem_of_lookup (h : rows.lookup key = some value) : (key, value) ∈ rows := by
  obtain ⟨before, after, heq, _⟩ := List.lookup_eq_some_iff.1 h
  rw [heq]
  exact List.mem_append_right before List.mem_cons_self

theorem lookup_eq_none_iff_not_mem : rows.lookup key = none ↔ key ∉ rows.map Prod.fst := by
  rw [List.lookup_eq_none_iff, List.mem_map]
  constructor
  · intro h hmem
    obtain ⟨row, hrow, hkey⟩ := hmem
    exact bne_iff_ne.1 (h row hrow) hkey.symm
  · intro h row hrow
    exact bne_iff_ne.2 fun hkey => h ⟨row, hrow, hkey.symm⟩

theorem lookup_eq_some_iff_mem (h : (rows.map Prod.fst).Nodup) :
    rows.lookup key = some value ↔ (key, value) ∈ rows := by
  constructor
  · exact mem_of_lookup
  · intro hmem
    cases hlookup : rows.lookup key with
    | none => exact absurd (List.mem_map_of_mem hmem) (lookup_eq_none_iff_not_mem.1 hlookup)
    | some other =>
      have hsame : (key, other) = (key, value) :=
        List.inj_on_of_nodup_map h (mem_of_lookup hlookup) hmem rfl
      rw [(Prod.mk.inj hsame).2]

theorem lookup_perm (h : (rows.map Prod.fst).Nodup) {rows' : List (String × α)}
    (hperm : rows.Perm rows') (key : String) : rows.lookup key = rows'.lookup key := by
  have h' : (rows'.map Prod.fst).Nodup := (hperm.map Prod.fst).nodup_iff.1 h
  refine Option.ext fun value => ?_
  rw [lookup_eq_some_iff_mem h, lookup_eq_some_iff_mem h', hperm.mem_iff]

end

namespace Table

variable {α β : Type}

theorem nodup_keys (t : Table α) : t.keys.Nodup := by
  refine List.pairwise_map.2 (t.increasing.imp fun hlt heq => ?_)
  rw [heq] at hlt
  exact String.lt_irrefl _ hlt

theorem length_keys (t : Table α) : t.keys.length = t.size := List.length_map _

theorem get?_eq_none_iff {t : Table α} {key : String} : t.get? key = none ↔ key ∉ t.keys := by
  rw [← contains_iff_mem_keys, contains, Bool.not_eq_true, Option.isSome_eq_false_iff,
    Option.isNone_iff_eq_none]

theorem mem_keys_insert {t : Table α} {key other : String} {value : α} :
    other ∈ (t.insert key value).keys ↔ other = key ∨ other ∈ t.keys := by
  rw [← contains_iff_mem_keys, ← contains_iff_mem_keys, contains, contains, get?_insert]
  by_cases h : other = key
  · rw [if_pos h, Option.isSome_some]
    exact iff_of_true rfl (.inl h)
  · rw [if_neg h, or_iff_right h]

theorem keys_insert_perm {t : Table α} {key : String} (h : key ∉ t.keys) (value : α) :
    (t.insert key value).keys.Perm (key :: t.keys) := by
  have hnew : (key :: t.keys).Nodup := List.nodup_cons.2 ⟨h, t.nodup_keys⟩
  refine (List.perm_ext_iff_of_nodup (nodup_keys _) hnew).2 fun other => ?_
  rw [mem_keys_insert, List.mem_cons]

theorem size_insert {t : Table α} {key : String} (h : key ∉ t.keys) (value : α) :
    (t.insert key value).size = t.size + 1 := by
  rw [← length_keys, (keys_insert_perm h value).length_eq, List.length_cons, length_keys]

theorem size_le_of_keys_subset {s : Table α} {t : Table β} (h : s.keys ⊆ t.keys) :
    s.size ≤ t.size := by
  rw [← length_keys, ← length_keys]
  exact (List.subperm_of_subset s.nodup_keys h).length_le

theorem size_lt_iff_of_keys_subset {s : Table α} {t : Table β} (h : s.keys ⊆ t.keys) :
    s.size < t.size ↔ ∃ key ∈ t.keys, key ∉ s.keys := by
  constructor
  · intro hlt
    by_contra hnone
    have hall : t.keys ⊆ s.keys := by
      intro key hkey
      by_contra hmissing
      exact hnone ⟨key, hkey, hmissing⟩
    have hle := size_le_of_keys_subset hall
    omega
  · rintro ⟨key, hkey, hmissing⟩
    -- The missing key makes the keys of `s` a longer list that is still among those of `t`.
    have hnew : (key :: s.keys).Nodup := List.nodup_cons.2 ⟨hmissing, s.nodup_keys⟩
    have hle := (List.subperm_of_subset hnew (List.cons_subset.2 ⟨hkey, h⟩)).length_le
    rw [List.length_cons, length_keys, length_keys] at hle
    omega

/-! ## Rows put together -/

/-- Of the rows of a key the last one counts. -/
theorem get?_foldl_insert (rows : List (String × α)) (t : Table α) (key : String) :
    (rows.foldl (fun t row => t.insert row.1 row.2) t).get? key =
      (rows.reverse.lookup key).or (t.get? key) := by
  induction rows generalizing t with
  | nil => rfl
  | cons row rows ih =>
    rw [List.foldl_cons, ih, get?_insert, List.reverse_cons, List.lookup_append, Option.or_assoc,
      List.lookup_cons, List.lookup_nil]
    by_cases hkey : key = row.1
    · rw [if_pos hkey, beq_iff_eq.2 hkey]
      rfl
    · rw [if_neg hkey, beq_eq_false_iff_ne.2 hkey]
      rfl

theorem get?_ofList (rows : List (String × α)) (key : String) :
    (ofList rows).get? key = rows.reverse.lookup key := by
  rw [ofList, get?_foldl_insert, get?_empty, Option.or_none]

theorem contains_ofList_iff {rows : List (String × α)} {key : String} :
    (ofList rows).contains key = true ↔ key ∈ rows.map Prod.fst := by
  rw [contains, get?_ofList, ← Option.ne_none_iff_isSome, Ne, lookup_eq_none_iff_not_mem, not_not,
    List.map_reverse, List.mem_reverse]

/-- Rows of different keys are all found. -/
theorem get?_ofList_eq_some_iff {rows : List (String × α)} (h : (rows.map Prod.fst).Nodup)
    {key : String} {value : α} : (ofList rows).get? key = some value ↔ (key, value) ∈ rows := by
  have hreverse : (rows.reverse.map Prod.fst).Nodup := by
    rw [List.map_reverse]
    exact List.nodup_reverse.2 h
  rw [get?_ofList, lookup_eq_some_iff_mem hreverse, List.mem_reverse]

theorem ofList_rows (t : Table α) : ofList t.rows = t := by
  refine ext_get? fun key => Option.ext fun value => ?_
  rw [get?_ofList_eq_some_iff t.nodup_keys, get?_eq_some_iff]

/-- The rows are what the table finds. -/
theorem eq_ofList_iff {rows : List (String × α)} (h : (rows.map Prod.fst).Nodup) {t : Table α} :
    t = ofList rows ↔ ∀ key value, t.get? key = some value ↔ (key, value) ∈ rows := by
  constructor
  · intro heq key value
    rw [heq, get?_ofList_eq_some_iff h]
  · intro hall
    refine ext_get? fun key => Option.ext fun value => ?_
    rw [hall, get?_ofList_eq_some_iff h]

end Table
end Enrolment
