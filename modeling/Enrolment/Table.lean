/-!
Finite maps with text keys.

A `Table` keeps its rows in strictly increasing code point order of the keys.  The order makes the
representation canonical: two tables that answer every look-up alike are equal (`Table.ext_get?`),
so equality of tables is equality of finite maps and the order of insertions leaves no trace.  It
also is the order in which everything keyed by a name is reported.

An `IdSet` is a table whose rows carry nothing but their key.
-/

namespace Enrolment

/-- A finite map from text to `α`. -/
structure Table (α : Type) where
  rows : List (String × α)
  increasing : rows.Pairwise (fun a b => a.1 < b.1)

namespace Table

variable {α β : Type}

/-! ## Rows -/

/-- The row list with `key` bound to `value`, in its place in the order. -/
def insertRow (key : String) (value : α) : List (String × α) → List (String × α)
  | [] => [(key, value)]
  | row :: rows =>
    if key < row.1 then (key, value) :: row :: rows
    else if row.1 < key then row :: insertRow key value rows
    else (key, value) :: rows

theorem mem_insertRow {key : String} {value : α} {row : String × α} {rows : List (String × α)}
    (h : row ∈ insertRow key value rows) : row = (key, value) ∨ row ∈ rows := by
  induction rows with
  | nil => simpa [insertRow] using h
  | cons r rows ih =>
    simp only [insertRow] at h
    grind

theorem pairwise_insertRow (key : String) (value : α) {rows : List (String × α)}
    (h : rows.Pairwise (fun a b => a.1 < b.1)) :
    (insertRow key value rows).Pairwise (fun a b => a.1 < b.1) := by
  induction rows with
  | nil => simp [insertRow]
  | cons r rows ih =>
    obtain ⟨hr, hrows⟩ := List.pairwise_cons.1 h
    rw [insertRow]
    split
    · next hlt =>
      refine List.pairwise_cons.2 ⟨fun x hx => ?_, h⟩
      rcases List.mem_cons.1 hx with rfl | hx
      · exact hlt
      · exact String.lt_trans hlt (hr x hx)
    · split
      · next hgt =>
        refine List.pairwise_cons.2 ⟨fun x hx => ?_, ih hrows⟩
        rcases mem_insertRow hx with rfl | hx
        · exact hgt
        · exact hr x hx
      · next hge hle =>
        have : key = r.1 := String.le_antisymm hle hge
        subst this
        exact List.pairwise_cons.2 ⟨hr, hrows⟩

/-! ## Operations -/

def empty : Table α := ⟨[], List.Pairwise.nil⟩

instance : Inhabited (Table α) := ⟨empty⟩

instance [DecidableEq α] : DecidableEq (Table α) := fun s t =>
  decidable_of_iff (s.rows = t.rows) (by cases s; cases t; simp)

/-- The value bound to `key`. -/
def get? (t : Table α) (key : String) : Option α := t.rows.lookup key

def contains (t : Table α) (key : String) : Bool := (t.get? key).isSome

/-- Binds `key` to `value`, whatever it was bound to before. -/
def insert (t : Table α) (key : String) (value : α) : Table α :=
  ⟨insertRow key value t.rows, pairwise_insertRow key value t.increasing⟩

/-- Binds `key` to `value` unless it is bound already. -/
def insertNew (t : Table α) (key : String) (value : α) : Table α :=
  if t.contains key then t else t.insert key value

def erase (t : Table α) (key : String) : Table α :=
  ⟨t.rows.filter (fun row => row.1 != key), t.increasing.filter _⟩

/-- The keys, in increasing order. -/
def keys (t : Table α) : List String := t.rows.map Prod.fst

def size (t : Table α) : Nat := t.rows.length

def isEmpty (t : Table α) : Bool := t.rows.isEmpty

/-- A later binding of a key replaces an earlier one. -/
def ofList (rows : List (String × α)) : Table α :=
  rows.foldl (fun t row => t.insert row.1 row.2) empty

/-! ## Equality is agreement on every look-up -/

theorem lookup_eq_some_iff {rows : List (String × α)}
    (h : rows.Pairwise (fun a b => a.1 < b.1)) {key : String} {value : α} :
    rows.lookup key = some value ↔ (key, value) ∈ rows := by
  induction rows with
  | nil => simp
  | cons r rows ih =>
    obtain ⟨hr, hrows⟩ := List.pairwise_cons.1 h
    obtain ⟨k, v⟩ := r
    rw [List.lookup_cons]
    by_cases hk : key = k
    · subst hk
      simp only [beq_self_eq_true, Option.some.injEq, List.mem_cons, Prod.mk.injEq, true_and]
      constructor
      · exact fun h => .inl h.symm
      · rintro (h | h)
        · exact h.symm
        · exact absurd (hr _ h) (String.lt_irrefl _)
    · have hb : (key == k) = false := beq_eq_false_iff_ne.2 hk
      simp [hb, hk, ih hrows]

theorem get?_eq_some_iff {t : Table α} {key : String} {value : α} :
    t.get? key = some value ↔ (key, value) ∈ t.rows :=
  lookup_eq_some_iff t.increasing

theorem eq_of_mem_iff {xs ys : List (String × α)}
    (hx : xs.Pairwise (fun a b => a.1 < b.1)) (hy : ys.Pairwise (fun a b => a.1 < b.1))
    (h : ∀ row, row ∈ xs ↔ row ∈ ys) : xs = ys := by
  induction xs generalizing ys with
  | nil => exact (List.eq_nil_iff_forall_not_mem.2 fun y hm => by simpa using (h y).2 hm).symm
  | cons x xs ih =>
    cases ys with
    | nil => simpa using (h x).1 (List.mem_cons_self ..)
    | cons y ys =>
      obtain ⟨hxs, hx⟩ := List.pairwise_cons.1 hx
      obtain ⟨hys, hy'⟩ := List.pairwise_cons.1 hy
      have hxy : x = y := by
        rcases List.mem_cons.1 ((h x).1 (List.mem_cons_self ..)) with h₁ | h₁
        · exact h₁
        · rcases List.mem_cons.1 ((h y).2 (List.mem_cons_self ..)) with h₂ | h₂
          · exact h₂.symm
          · exact absurd (String.lt_trans (hys _ h₁) (hxs _ h₂)) (String.lt_irrefl _)
      subst hxy
      refine congrArg (x :: ·) (ih hx hy' fun row => ⟨fun hm => ?_, fun hm => ?_⟩)
      · rcases List.mem_cons.1 ((h row).1 (List.mem_cons_of_mem _ hm)) with rfl | h₁
        · exact absurd (hxs _ hm) (String.lt_irrefl _)
        · exact h₁
      · rcases List.mem_cons.1 ((h row).2 (List.mem_cons_of_mem _ hm)) with rfl | h₁
        · exact absurd (hys _ hm) (String.lt_irrefl _)
        · exact h₁

/-- Tables are extensional. -/
@[ext] theorem ext_get? {s t : Table α} (h : ∀ key, s.get? key = t.get? key) : s = t := by
  have hrows : s.rows = t.rows := eq_of_mem_iff s.increasing t.increasing fun ⟨key, value⟩ => by
    rw [← get?_eq_some_iff, ← get?_eq_some_iff, h]
  cases s
  cases t
  simpa using hrows

/-! ## What the operations do to look-ups -/

@[simp] theorem get?_empty (key : String) : (empty : Table α).get? key = none := rfl

theorem mem_insertRow_iff {key : String} {value : α} {row : String × α}
    {rows : List (String × α)} (h : rows.Pairwise (fun a b => a.1 < b.1)) :
    row ∈ insertRow key value rows ↔ row = (key, value) ∨ (row.1 ≠ key ∧ row ∈ rows) := by
  induction rows with
  | nil => simp [insertRow]
  | cons r rows ih =>
    obtain ⟨hr, hrows⟩ := List.pairwise_cons.1 h
    rw [insertRow]
    split
    · next hlt =>
      have hne : ∀ x ∈ r :: rows, x.1 ≠ key := by
        intro x hx he
        rcases List.mem_cons.1 hx with rfl | hx
        · exact String.lt_irrefl _ (he ▸ hlt)
        · exact String.lt_irrefl _ (String.lt_trans hlt (he ▸ hr x hx))
      simp only [List.mem_cons]
      grind
    · split
      · next hgt =>
        have hne : r.1 ≠ key := fun he => String.lt_irrefl _ (he ▸ hgt)
        simp only [List.mem_cons, ih hrows]
        grind
      · next hge hle =>
        have hk : key = r.1 := String.le_antisymm hle hge
        have hne : ∀ x ∈ rows, x.1 ≠ key := fun x hx he =>
          String.lt_irrefl _ (he ▸ hk ▸ hr x hx)
        simp only [List.mem_cons]
        grind

theorem get?_insert (t : Table α) (key : String) (value : α) (other : String) :
    (t.insert key value).get? other = if other = key then some value else t.get? other := by
  refine Option.ext fun v => ?_
  rw [get?_eq_some_iff, insert, mem_insertRow_iff t.increasing]
  split
  · next h => simp [h, eq_comm]
  · next h => simp [h, get?_eq_some_iff]

theorem get?_erase (t : Table α) (key other : String) :
    (t.erase key).get? other = if other = key then none else t.get? other := by
  refine Option.ext fun v => ?_
  rw [get?_eq_some_iff, erase]
  split
  · next h => simp [h]
  · next h => simp [h, get?_eq_some_iff]

theorem contains_iff_mem_keys {t : Table α} {key : String} :
    t.contains key = true ↔ key ∈ t.keys := by
  simp [contains, Option.isSome_iff_exists, get?_eq_some_iff, keys]

end Table

/-- A set of ids. -/
abbrev IdSet := Table Unit

namespace IdSet

def ofList (ids : List String) : IdSet := Table.ofList (ids.map (·, ()))

/-- The members, in increasing order. -/
def ids (s : IdSet) : List String := s.keys

end IdSet

end Enrolment
