import Enrolment.Proofs.Data
import Enrolment.Proofs.Table
import Enrolment.Proofs.Toml.Page
import Mathlib.Data.Option.Basic

/-!
No record of a document has a name twice (`read_distinct`).

A key is bound in its place if it is known and at the end if it is not, so a table that is put
together key by key keeps its names apart, and so do all the tables inside it.
-/

namespace Enrolment.Toml

inductive Node.Distinct : Node → Prop
  | scalar (s : Scalar) : Distinct (.scalar s)
  | array {items : List Node} : (∀ node ∈ items, Distinct node) → Distinct (.array items)
  | inline {fields : Fields} : (fields.map Prod.fst).Nodup →
      (∀ field ∈ fields, Distinct field.2) → Distinct (.inline fields)
  | table {origin : Origin} {fields : Fields} : (fields.map Prod.fst).Nodup →
      (∀ field ∈ fields, Distinct field.2) → Distinct (.table origin fields)
  | tables {elements : List Fields} : (∀ fields ∈ elements, (fields.map Prod.fst).Nodup) →
      (∀ fields ∈ elements, ∀ field ∈ fields, Distinct field.2) → Distinct (.tables elements)

structure Fields.Distinct (fields : Fields) : Prop where
  names : (fields.map Prod.fst).Nodup
  nodes : ∀ field ∈ fields, field.2.Distinct

/-! ## Putting tables together -/

namespace Fields

variable {fields new : Fields} {key : String} {node : Node}

theorem Distinct.nil : Distinct [] := ⟨List.nodup_nil, fun _ h => absurd h List.not_mem_nil⟩

theorem map_fst_set (fields : Fields) (key : String) (node : Node) :
    (fields.set key node).map Prod.fst =
      if key ∈ fields.map Prod.fst then fields.map Prod.fst
      else fields.map Prod.fst ++ [key] := by
  induction fields with
  | nil => rfl
  | cons field fields ih =>
    by_cases hkey : field.1 = key
    · rw [set, if_pos hkey, List.map_cons, List.map_cons, if_pos]
      exact List.mem_cons.2 (.inl hkey.symm)
    · rw [set, if_neg hkey, List.map_cons, List.map_cons, ih]
      by_cases hmem : key ∈ fields.map Prod.fst
      · rw [if_pos hmem, if_pos (List.mem_cons_of_mem _ hmem)]
      · rw [if_neg hmem, if_neg]
        · rfl
        · intro hcons
          rcases List.mem_cons.1 hcons with heq | hcons
          · exact hkey heq.symm
          · exact hmem hcons

theorem mem_set {field : String × Node} (h : field ∈ fields.set key node) :
    field = (key, node) ∨ field ∈ fields := by
  induction fields with
  | nil => exact .inl (List.mem_singleton.1 h)
  | cons first fields ih =>
    by_cases hkey : first.1 = key
    · rw [set, if_pos hkey] at h
      rcases List.mem_cons.1 h with rfl | h
      · rw [hkey]
        exact .inl rfl
      · exact .inr (List.mem_cons_of_mem _ h)
    · rw [set, if_neg hkey] at h
      rcases List.mem_cons.1 h with rfl | h
      · exact .inr List.mem_cons_self
      · exact (ih h).imp_right (List.mem_cons_of_mem _)

theorem Distinct.set (h : fields.Distinct) (hnode : node.Distinct) :
    (fields.set key node).Distinct := by
  constructor
  · rw [map_fst_set]
    by_cases hmem : key ∈ fields.map Prod.fst
    · rw [if_pos hmem]
      exact h.names
    · rw [if_neg hmem]
      rw [← List.concat_eq_append]
      exact h.names.concat hmem
  · intro field hfield
    rcases mem_set hfield with rfl | hfield
    · exact hnode
    · exact h.nodes field hfield

theorem Distinct.get? (h : fields.Distinct) (hget : fields.get? key = some node) :
    node.Distinct := h.nodes _ (mem_of_lookup hget)

theorem Distinct.table (h : fields.Distinct) (origin : Origin) :
    (Node.table origin fields).Distinct := .table h.names h.nodes

theorem Distinct.of_table {origin : Origin} (h : (Node.table origin fields).Distinct) :
    fields.Distinct := by
  cases h with
  | table hnames hnodes => exact ⟨hnames, hnodes⟩

theorem distinct_tables_iff {elements : List Fields} :
    (Node.tables elements).Distinct ↔ ∀ fields ∈ elements, Distinct fields := by
  constructor
  · intro h
    cases h with
    | tables hnames hnodes => exact fun fields hf => ⟨hnames fields hf, hnodes fields hf⟩
  · intro h
    exact .tables (fun fields hf => (h fields hf).names) (fun fields hf => (h fields hf).nodes)

theorem Distinct.set_tables (h : fields.Distinct) {elements : List Fields} {sub : Fields}
    (helements : ∀ element ∈ elements, Distinct element) (hsub : sub.Distinct) :
    (fields.set key (.tables (elements ++ [sub]))).Distinct := by
  refine h.set (distinct_tables_iff.2 fun element helement => ?_)
  rcases List.mem_append.1 helement with hold | hnew
  · exact helements element hold
  · rw [List.mem_singleton.1 hnew]
    exact hsub

/-- A change that keeps names apart at the end of a path keeps them apart everywhere. -/
theorem Distinct.change {dotted : Bool} {f : Origin → Fields → Option Fields}
    (hf : ∀ {origin fields new}, Distinct fields → f origin fields = some new → Distinct new)
    {keys : List String} {origin : Origin} (h : fields.Distinct)
    (hchange : Fields.change dotted f keys origin fields = some new) : new.Distinct := by
  -- Along the path a table is taken out, changed and put back, so it is distinct by induction.
  induction keys generalizing origin fields new with
  | nil => exact hf h hchange
  | cons key keys ih =>
    rw [Fields.change] at hchange
    split at hchange
    · obtain ⟨sub, hsub, hnew⟩ := Option.bind_eq_some_iff.1 hchange
      rw [← Option.some.inj hnew]
      exact h.set ((ih .nil hsub).table _)
    · next origin' known hget =>
      obtain ⟨_, _, hchange⟩ := Option.bind_eq_some_iff.1 hchange
      obtain ⟨sub, hsub, hnew⟩ := Option.bind_eq_some_iff.1 hchange
      rw [← Option.some.inj hnew]
      exact h.set ((ih (.of_table (h.get? hget)) hsub).table _)
    · next elements hget =>
      obtain ⟨last, hlast, hchange⟩ := Option.bind_eq_some_iff.1 hchange
      obtain ⟨sub, hsub, hnew⟩ := Option.bind_eq_some_iff.1 hchange
      have helements := distinct_tables_iff.1 (h.get? hget)
      have hlast' : Distinct last := helements last (List.mem_of_getLast? hlast)
      rw [← Option.some.inj hnew]
      exact h.set_tables (fun element hold => helements element (List.dropLast_subset _ hold))
        (ih hlast' hsub)
    · cases hchange

theorem Distinct.assign (h : fields.Distinct) {entry : Path × Node} (hentry : entry.2.Distinct)
    (hassign : fields.assign entry = some new) : new.Distinct := by
  refine Distinct.change ?_ h hassign
  intro origin fields new hfields hnew
  obtain ⟨_, _, hnew⟩ := Option.bind_eq_some_iff.1 hnew
  obtain ⟨_, _, hnew⟩ := Option.bind_eq_some_iff.1 hnew
  rw [← Option.some.inj hnew]
  exact hfields.set hentry

theorem Distinct.assignAll (h : fields.Distinct) {entries : List (Path × Node)}
    (hentries : ∀ entry ∈ entries, entry.2.Distinct)
    (hassign : fields.assignAll entries = some new) : new.Distinct := by
  induction entries generalizing fields with
  | nil => exact Option.some.inj hassign ▸ h
  | cons entry entries ih =>
    rw [Fields.assignAll, List.foldlM_cons] at hassign
    obtain ⟨next, hnext, hrest⟩ := Option.bind_eq_some_iff.1 hassign
    have hfirst := h.assign (hentries entry List.mem_cons_self) hnext
    exact ih hfirst (fun e he => hentries e (List.mem_cons_of_mem _ he)) hrest

theorem Distinct.addSection (h : fields.Distinct) {part : Section}
    (hpart : ∀ entry ∈ part.entries, entry.2.Distinct)
    (hadd : fields.addSection part = some new) : new.Distinct := by
  refine Distinct.change ?_ h hadd
  intro origin fields new hfields hnew
  -- Whatever was known under the key, it is put back with the entries of the section in it.
  have repeated : ∀ elements : List Fields, (∀ element ∈ elements, Distinct element) →
      (Fields.assignAll [] part.entries).bind
        (fun sub => some (fields.set part.path.key (.tables (elements ++ [sub])))) = some new →
      new.Distinct := by
    intro elements helements hnew
    obtain ⟨sub, hsub, hnew⟩ := Option.bind_eq_some_iff.1 hnew
    rw [← Option.some.inj hnew]
    exact hfields.set_tables helements (Distinct.nil.assignAll hpart hsub)
  have single : ∀ known : Fields, known.Distinct →
      (known.assignAll part.entries).bind
        (fun sub => some (fields.set part.path.key (.table .header sub))) = some new →
      new.Distinct := by
    intro known hknown hnew
    obtain ⟨sub, hsub, hnew⟩ := Option.bind_eq_some_iff.1 hnew
    rw [← Option.some.inj hnew]
    exact hfields.set ((hknown.assignAll hpart hsub).table _)
  split at hnew
  · dsimp only at hnew
    split at hnew
    · exact repeated [] (fun _ h => absurd h List.not_mem_nil) hnew
    · next elements hget =>
      exact repeated elements (distinct_tables_iff.1 (hfields.get? hget)) hnew
    · cases hnew
  · dsimp only at hnew
    split at hnew
    · exact single [] .nil hnew
    · next sub hget => exact single sub (.of_table (hfields.get? hget)) hnew
    · cases hnew

theorem Distinct.addSections (h : fields.Distinct) {sections : List Section}
    (hsections : ∀ part ∈ sections, ∀ entry ∈ part.entries, entry.2.Distinct)
    (hadd : sections.foldlM Fields.addSection fields = some new) : new.Distinct := by
  induction sections generalizing fields with
  | nil => exact Option.some.inj hadd ▸ h
  | cons part sections ih =>
    rw [List.foldlM_cons] at hadd
    obtain ⟨next, hnext, hrest⟩ := Option.bind_eq_some_iff.1 hadd
    have hfirst := h.addSection (hsections part List.mem_cons_self) hnext
    exact ih hfirst (fun p hp => hsections p (List.mem_cons_of_mem _ hp)) hrest

theorem distinct_assemble {entries : List (Path × Node)} {sections : List Section}
    (hentries : ∀ entry ∈ entries, entry.2.Distinct)
    (hsections : ∀ part ∈ sections, ∀ entry ∈ part.entries, entry.2.Distinct)
    (h : assemble entries sections = some new) : new.Distinct := by
  obtain ⟨first, hfirst, hnew⟩ := Option.bind_eq_some_iff.1 h
  exact (Distinct.nil.assignAll hentries hfirst).addSections hsections hnew

end Fields

/-! ## Reading values -/

/-- Whatever is read has a property. -/
def Yields {α : Type} (read : Reader α) (P : α → Prop) : Prop :=
  ∀ {s : List Char} {a : α} {rest : List Char}, read s = some (a, rest) → P a

theorem yields_numeric : Yields numeric Node.Distinct := by
  intro s node rest h
  rcases (Option.orElse_eq_some _ _ _).1 h with h | ⟨_, h⟩
  · obtain ⟨read, _, heq⟩ := Option.map_eq_some_iff.1 h
    exact (Prod.mk.inj heq).1 ▸ .scalar _
  · obtain ⟨read, _, heq⟩ := Option.map_eq_some_iff.1 h
    exact (Prod.mk.inj heq).1 ▸ .scalar _

theorem yields_word (expected : List Char) (sc : Scalar) :
    Yields (word expected (.scalar sc)) Node.Distinct := by
  intro s node rest h
  rw [word] at h
  split at h
  · exact (Prod.mk.inj (Option.some.inj h)).1 ▸ .scalar sc
  · cases h

theorem yields_scalar : Yields scalar Node.Distinct := by
  intro s node rest h
  cases s with
  | nil => cases h
  | cons c s =>
    rw [scalar] at h
    dsimp only at h
    split at h
    · obtain ⟨read, _, heq⟩ := Option.map_eq_some_iff.1 h
      exact (Prod.mk.inj heq).1 ▸ .scalar _
    · split at h
      · exact yields_numeric h
      · rcases (Option.orElse_eq_some _ _ _).1 h with h | ⟨_, h⟩
        · exact yields_word _ _ h
        · rcases (Option.orElse_eq_some _ _ _).1 h with h | ⟨_, h⟩
          · exact yields_word _ _ h
          · obtain ⟨read, _, heq⟩ := Option.map_eq_some_iff.1 h
            exact (Prod.mk.inj heq).1 ▸ .scalar _

section

variable {read : Reader Node}

theorem yields_arrayItems (hread : Yields read Node.Distinct) (n : Nat) :
    Yields (arrayItems read n) fun items => ∀ node ∈ items, node.Distinct := by
  induction n with
  | zero =>
    intro s items rest h
    cases h
  | succ n ih =>
    intro s items rest h
    rw [arrayItems] at h
    split at h
    · rw [← (Prod.mk.inj (Option.some.inj h)).1]
      exact fun _ h => absurd h List.not_mem_nil
    · obtain ⟨⟨item, behind⟩, hitem, h⟩ := Option.bind_eq_some_iff.1 h
      dsimp only at h
      split at h
      · rw [← (Prod.mk.inj (Option.some.inj h)).1]
        exact List.forall_mem_singleton.2 (hread hitem)
      · obtain ⟨⟨others, _⟩, hothers, h⟩ := Option.bind_eq_some_iff.1 h
        rw [← (Prod.mk.inj (Option.some.inj h)).1]
        exact List.forall_mem_cons.2 ⟨hread hitem, ih hothers⟩
      · cases h

theorem yields_entry (hread : Yields read Node.Distinct) :
    Yields (entry read) fun e => e.2.Distinct := by
  intro s e rest h
  obtain ⟨⟨p, _⟩, _, h⟩ := Option.bind_eq_some_iff.1 h
  obtain ⟨_, _, h⟩ := Option.bind_eq_some_iff.1 h
  obtain ⟨⟨node, _⟩, hnode, h⟩ := Option.bind_eq_some_iff.1 h
  rw [← (Prod.mk.inj (Option.some.inj h)).1]
  exact hread hnode

theorem yields_inlineEntries (hread : Yields read Node.Distinct) (n : Nat) :
    Yields (inlineEntries read n) fun entries => ∀ e ∈ entries, e.2.Distinct := by
  induction n with
  | zero =>
    intro s entries rest h
    cases h
  | succ n ih =>
    intro s entries rest h
    rw [inlineEntries] at h
    obtain ⟨⟨e, behind⟩, he, h⟩ := Option.bind_eq_some_iff.1 h
    dsimp only at h
    split at h
    · rw [← (Prod.mk.inj (Option.some.inj h)).1]
      exact List.forall_mem_singleton.2 (yields_entry hread he)
    · obtain ⟨⟨others, _⟩, hothers, h⟩ := Option.bind_eq_some_iff.1 h
      rw [← (Prod.mk.inj (Option.some.inj h)).1]
      exact List.forall_mem_cons.2 ⟨yields_entry hread he, ih hothers⟩
    · cases h

theorem yields_inlineTable (hread : Yields read Node.Distinct) :
    Yields (inlineTable read) Node.Distinct := by
  intro s node rest h
  rw [inlineTable] at h
  split at h
  · rw [← (Prod.mk.inj (Option.some.inj h)).1]
    exact .inline List.nodup_nil fun _ h => absurd h List.not_mem_nil
  · obtain ⟨⟨entries, _⟩, hentries, h⟩ := Option.bind_eq_some_iff.1 h
    obtain ⟨fields, hfields, h⟩ := Option.bind_eq_some_iff.1 h
    have hdistinct : Fields.Distinct fields :=
      Fields.Distinct.nil.assignAll (yields_inlineEntries hread _ hentries) hfields
    rw [← (Prod.mk.inj (Option.some.inj h)).1]
    exact .inline hdistinct.names hdistinct.nodes

end

theorem yields_value (depth : Nat) : Yields (value depth) Node.Distinct := by
  induction depth with
  | zero => exact yields_scalar
  | succ depth ih =>
    intro s node rest h
    rw [value.eq_def] at h
    dsimp only at h
    split at h
    · obtain ⟨⟨items, _⟩, hitems, h⟩ := Option.map_eq_some_iff.1 h
      rw [← (Prod.mk.inj h).1]
      exact .array (yields_arrayItems ih _ hitems)
    · exact yields_inlineTable ih h
    · exact yields_scalar h

/-! ## Reading documents -/

/-- The value of a line has names apart, if the line has a value. -/
def Line.Distinct : Line → Prop
  | .entry _ node => node.Distinct
  | .header _ _ => True

theorem yields_headerLine (repeated : Bool) : Yields (headerLine repeated) Line.Distinct := by
  intro s l rest h
  obtain ⟨⟨p, _⟩, _, h⟩ := Option.bind_eq_some_iff.1 h
  obtain ⟨_, _, h⟩ := Option.bind_eq_some_iff.1 h
  dsimp only at h
  split at h
  · obtain ⟨_, _, h⟩ := Option.bind_eq_some_iff.1 h
    rw [← (Prod.mk.inj (Option.some.inj h)).1]
    trivial
  · rw [← (Prod.mk.inj (Option.some.inj h)).1]
    trivial

theorem yields_line : Yields line Line.Distinct := by
  intro s l rest h
  rw [line.eq_def] at h
  split at h
  · exact yields_headerLine true h
  · exact yields_headerLine false h
  · obtain ⟨⟨⟨p, node⟩, _⟩, hentry, h⟩ := Option.bind_eq_some_iff.1 h
    rw [← (Prod.mk.inj (Option.some.inj h)).1]
    exact yields_entry (yields_value depthLimit) hentry

theorem distinct_lines {n : Nat} {s : List Char} {ls : List Line} (h : lines n s = some ls) :
    ∀ l ∈ ls, l.Distinct := by
  induction n generalizing s ls with
  | zero => cases h
  | succ n ih =>
    rw [lines] at h
    split at h
    · rw [← Option.some.inj h]
      exact fun _ h => absurd h List.not_mem_nil
    · obtain ⟨_, _, h⟩ := Option.bind_eq_some_iff.1 h
      exact ih h
    · split at h
      · exact ih h
      · obtain ⟨⟨l, behind⟩, hl, h⟩ := Option.bind_eq_some_iff.1 h
        obtain ⟨others, hothers, h⟩ := Option.bind_eq_some_iff.1 h
        obtain ⟨_, _, hothers⟩ := Option.bind_eq_some_iff.1 hothers
        rw [← Option.some.inj h]
        exact List.forall_mem_cons.2 ⟨yields_line hl, ih hothers⟩

/-- The lines of a document stand above its first header or below one of its headers. -/
theorem distinct_group {ls : List Line} (h : ∀ l ∈ ls, l.Distinct) :
    (∀ e ∈ (group ls).1, e.2.Distinct) ∧
      ∀ part ∈ (group ls).2, ∀ e ∈ part.entries, e.2.Distinct := by
  induction ls with
  | nil => exact ⟨fun _ h => absurd h List.not_mem_nil, fun _ h => absurd h List.not_mem_nil⟩
  | cons l ls ih =>
    obtain ⟨hl, hls⟩ := List.forall_mem_cons.1 h
    obtain ⟨hentries, hsections⟩ := ih hls
    cases l with
    | entry p node => exact ⟨List.forall_mem_cons.2 ⟨hl, hentries⟩, hsections⟩
    | header repeated p =>
      exact ⟨fun _ h => absurd h List.not_mem_nil, List.forall_mem_cons.2 ⟨hentries, hsections⟩⟩

theorem distinct_fields {text : String} {fs : Fields} (h : fields text = some fs) :
    fs.Distinct := by
  obtain ⟨ls, hls, h⟩ := Option.bind_eq_some_iff.1 h
  obtain ⟨hentries, hsections⟩ := distinct_group (distinct_lines hls)
  exact Fields.distinct_assemble hentries hsections h

/-! ## The data of a document -/

theorem itemsData_eq (items : List Node) : itemsData items = items.map Node.data := by
  induction items with
  | nil => rfl
  | cons item items ih =>
    rw [itemsData, ih]
    rfl

theorem tablesData_eq (elements : List Fields) :
    tablesData elements = elements.map fun fields => .record (fieldsData fields) := by
  induction elements with
  | nil => rfl
  | cons fields elements ih =>
    rw [tablesData, ih]
    rfl

theorem distinct_record {fields : Fields} (hnames : (fields.map Prod.fst).Nodup)
    (hnodes : ∀ field ∈ fields, field.2.data.Distinct) :
    (Data.record (fieldsData fields)).Distinct := by
  rw [fieldsData_eq]
  constructor
  · rw [List.map_map]
    exact hnames
  · intro field hfield
    obtain ⟨source, hsource, heq⟩ := List.mem_map.1 hfield
    rw [← heq]
    exact hnodes source hsource

theorem Scalar.distinct_data (s : Scalar) : s.data.Distinct := by
  cases s with
  | text s => exact .text s
  | flag b => exact .flag b
  | number n => exact .number n
  | moment m =>
    exact .record (List.nodup_singleton _) (List.forall_mem_singleton.2 (.text _))

theorem Node.Distinct.data {node : Node} (h : node.Distinct) : node.data.Distinct := by
  induction h with
  | scalar s => exact s.distinct_data
  | array _ ih =>
    rw [Node.data, itemsData_eq]
    exact .list (List.forall_mem_map.2 ih)
  | inline hnames _ ih => exact distinct_record hnames ih
  | table hnames _ ih => exact distinct_record hnames ih
  | tables hnames _ ih =>
    rw [Node.data, tablesData_eq]
    exact .list (List.forall_mem_map.2 fun fields hfields =>
      distinct_record (hnames fields hfields) (ih fields hfields))

theorem read_distinct {text : String} {data : Data} (h : read text = some data) :
    data.Distinct := by
  obtain ⟨fs, hfs, heq⟩ := Option.map_eq_some_iff.1 h
  have hdistinct := distinct_fields hfs
  rw [← heq]
  exact distinct_record hdistinct.names fun field hfield => (hdistinct.nodes field hfield).data

end Enrolment.Toml
