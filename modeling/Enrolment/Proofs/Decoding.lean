import Enrolment.Configuration
import Enrolment.Proofs.Data
import Enrolment.Proofs.Table

/-!
The decoders of texts, of lists of texts and of tables, turned around.

Each of them accepts what one way of writing produces and nothing else, so that to decode a table is
to take rows from a record that they were written to (`Exact.table`).
-/

namespace Enrolment

open Decoding

/-- The decoder accepts what `write` produces, for the value that it was produced for, and nothing
else. -/
def Decoding.Exact {α : Type} (decode : Data → Option α) (write : α → Data) : Prop :=
  ∀ {d : Data} {a : α}, decode d = some a ↔ d = write a

namespace Data

/-- A list of texts as data. -/
def ofTexts (ids : List String) : Data := .list (ids.map .text)

/-- Rows as the record that they are the fields of. -/
def ofRows {α : Type} (write : α → Data) (rows : List (String × α)) : Data :=
  .record (rows.map fun row => (row.1, write row.2))

theorem Distinct.rows {α : Type} {write : α → Data} {rows : List (String × α)}
    (h : (ofRows write rows).Distinct) : (rows.map Prod.fst).Nodup := by
  have hnames := h.names
  rw [List.map_map] at hnames
  exact hnames

end Data

namespace Decoding

/-- A list is decoded element by element if one way of writing undoes each step. -/
theorem mapM_eq_some_iff {α β : Type} {f : β → Option α} {g : α → β}
    (h : ∀ b a, f b = some a ↔ b = g a) {bs : List β} {as : List α} :
    bs.mapM f = some as ↔ bs = as.map g := by
  induction bs generalizing as with
  | nil =>
    rw [List.mapM_nil, eq_comm (a := []), List.map_eq_nil_iff]
    exact ⟨fun h => (Option.some.inj h).symm, fun h => h ▸ rfl⟩
  | cons b bs ih =>
    rw [List.mapM_cons]
    constructor
    · intro hsome
      obtain ⟨a, ha, hsome⟩ := Option.bind_eq_some_iff.1 hsome
      obtain ⟨others, hothers, hsome⟩ := Option.bind_eq_some_iff.1 hsome
      rw [← Option.some.inj hsome, (h b a).1 ha, ih.1 hothers, List.map_cons]
    · intro heq
      cases as with
      | nil => cases heq
      | cons a as =>
        obtain ⟨hb, hbs⟩ := List.cons.inj heq
        rw [(h b a).2 hb, ih.2 hbs]
        rfl

theorem exact_text? : Exact Data.text? Data.text := by
  intro d s
  cases d with
  | text t =>
    rw [Data.text?, Option.some.injEq, Data.text.injEq]
  | _ => exact ⟨fun h => absurd h (Option.some_ne_none s).symm, fun h => by cases h⟩

theorem exact_texts? : Exact Data.texts? Data.ofTexts := by
  intro d ids
  cases d with
  | list items =>
    rw [Data.ofTexts, Data.list.injEq]
    exact mapM_eq_some_iff fun _ _ => exact_text?
  | _ => exact ⟨fun h => absurd h (Option.some_ne_none ids).symm, fun h => by cases h⟩

variable {α : Type} {decode : Data → Option α} {write : α → Data}

/-- A field is decoded to the row that it was written from. -/
theorem Exact.field (h : Exact decode write) (field : String × Data) (row : String × α) :
    (decode field.2).map (field.1, ·) = some row ↔ field = (row.1, write row.2) := by
  rw [Option.map_eq_some_iff]
  constructor
  · intro hsome
    obtain ⟨a, ha, heq⟩ := hsome
    rw [← heq, ← h.1 ha]
  · intro heq
    exact ⟨row.2, h.2 (congrArg Prod.snd heq), by rw [congrArg Prod.fst heq]⟩

theorem Exact.table (h : Exact decode write) {d : Data} {t : Table α} :
    table decode d = some t ↔ ∃ rows, d = .ofRows write rows ∧ t = Table.ofList rows := by
  cases d with
  | record fields =>
    rw [Decoding.table, Data.record?, Option.bind_eq_bind, Option.bind_some,
      Option.bind_eq_bind, Option.bind_eq_some_iff]
    refine exists_congr fun rows => ?_
    rw [Data.ofRows, Data.record.injEq]
    refine and_congr (mapM_eq_some_iff h.field) ?_
    exact ⟨fun hsome => (Option.some.inj hsome).symm, fun ht => congrArg some ht.symm⟩
  | _ =>
    constructor
    · intro hsome
      cases hsome
    · intro hrows
      obtain ⟨rows, hd, _⟩ := hrows
      cases hd

theorem Exact.table_rows (h : Exact decode write) (t : Table α) :
    Decoding.table decode (.ofRows write t.rows) = some t :=
  h.table.2 ⟨t.rows, rfl, t.ofList_rows.symm⟩

end Decoding

theorem Configuration.decode_of_slots {d : Dialect} {data : Data} {mapping : Option Data}
    (h : d.slots ["mapping"] data = some [mapping]) :
    Configuration.decode d data =
      (defaulted Table.empty (table Data.texts?) mapping).map Configuration.mk := by
  rw [Configuration.decode, h]
  show (defaulted _ _ _).bind _ = _
  cases defaulted Table.empty (table Data.texts?) mapping with
  | none => rfl
  | some t => rfl

end Enrolment
