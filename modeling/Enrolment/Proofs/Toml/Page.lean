import Enrolment.Proofs.Toml.Line
import Mathlib.Data.List.Nodup

/-!
Pages are read as they were written (`read_text`), if no name stands in them twice.

The keys of a page have no dots in them, so its tables are those of its headers and nothing else.
-/

namespace Enrolment.Toml

/-! ## Names without dots -/

/-- A key-value pair whose key has no dots. -/
def plainEntry (field : String × Node) : Path × Node := (⟨[], field.1⟩, field.2)

theorem not_mem_of_nodup {key : String} {before after : List String}
    (h : (before ++ key :: after).Nodup) : key ∉ before := by
  rw [List.nodup_middle, List.nodup_cons, List.mem_append] at h
  exact fun hmem => h.1 (.inl hmem)

namespace Fields

variable {fields : Fields} {key : String}

theorem get?_of_new (h : key ∉ fields.map Prod.fst) : fields.get? key = none := by
  refine List.lookup_eq_none_iff.2 fun field hfield => bne_iff_ne.2 fun heq => h ?_
  exact List.mem_map.2 ⟨field, hfield, heq.symm⟩

theorem set_of_new (h : key ∉ fields.map Prod.fst) (node : Node) :
    fields.set key node = fields ++ [(key, node)] := by
  induction fields with
  | nil => rfl
  | cons field fields ih =>
    rw [List.map_cons, List.mem_cons, not_or] at h
    rw [set, if_neg (Ne.symm h.1), ih h.2]
    rfl

theorem change_nil (dotted : Bool) (f : Origin → Toml.Fields → Option Toml.Fields)
    (origin : Origin) (fields : Toml.Fields) :
    change dotted f [] origin fields = f origin fields := rfl

theorem assign_of_new (h : key ∉ fields.map Prod.fst) (node : Node) :
    fields.assign (plainEntry (key, node)) = some (fields ++ [(key, node)]) := by
  rw [assign, plainEntry, change_nil, get?_of_new h, set_of_new h]
  rfl

/-- Keys that differ among each other and from those that are known are put behind these. -/
theorem assignAll_of_distinct {fields new : Fields} (h : ((fields ++ new).map Prod.fst).Nodup) :
    fields.assignAll (new.map plainEntry) = some (fields ++ new) := by
  induction new generalizing fields with
  | nil =>
    rw [List.append_nil]
    rfl
  | cons field new ih =>
    have hkey : field.1 ∉ fields.map Prod.fst := by
      rw [List.map_append] at h
      exact not_mem_of_nodup h
    rw [List.append_cons] at h
    rw [List.map_cons, assignAll, List.foldlM_cons, assign_of_new hkey]
    show assignAll _ _ = _
    rw [ih h, ← List.append_cons]

theorem addSection_of_new (h : key ∉ fields.map Prod.fst) {sub : Fields}
    (hsub : (sub.map Prod.fst).Nodup) :
    fields.addSection ⟨false, ⟨[], key⟩, sub.map plainEntry⟩ =
      some (fields ++ [(key, .table .header sub)]) := by
  have hassigned : assignAll [] (sub.map plainEntry) = some sub := assignAll_of_distinct hsub
  rw [addSection, change_nil, get?_of_new h]
  show (assignAll [] (sub.map plainEntry)).bind _ = _
  rw [hassigned, Option.bind_some, set_of_new h]
  rfl

/-- A header and what stands under it. -/
def plainSection (table : String × Fields) : Section :=
  ⟨false, ⟨[], table.1⟩, table.2.map plainEntry⟩

theorem addSections_of_distinct {fields : Fields} {tables : List (String × Fields)}
    (h : (fields.map Prod.fst ++ tables.map Prod.fst).Nodup)
    (hsub : ∀ table ∈ tables, (table.2.map Prod.fst).Nodup) :
    (tables.map plainSection).foldlM addSection fields =
      some (fields ++ tables.map fun table => (table.1, .table .header table.2)) := by
  induction tables generalizing fields with
  | nil =>
    rw [List.map_nil, List.map_nil, List.append_nil]
    rfl
  | cons table tables ih =>
    have hkey : table.1 ∉ fields.map Prod.fst := not_mem_of_nodup h
    have hnext : ((fields ++ [(table.1, Node.table .header table.2)]).map Prod.fst ++
        tables.map Prod.fst).Nodup := by
      rw [List.map_append, List.append_assoc]
      exact h
    rw [List.map_cons, List.foldlM_cons, plainSection,
      addSection_of_new hkey (hsub table List.mem_cons_self)]
    show (tables.map plainSection).foldlM addSection _ = _
    rw [ih hnext fun x hx => hsub x (List.mem_cons_of_mem _ hx), List.append_assoc]
    rfl

end Fields

/-! ## The lines of a page -/

def fieldLine (field : String × Node) : Line := .entry ⟨[], field.1⟩ field.2

def tableLines (table : String × Fields) : List Line :=
  .header false ⟨[], table.1⟩ :: table.2.map fieldLine

theorem group_fields (fields : Fields) (ls : List Line) :
    group (fields.map fieldLine ++ ls) =
      (fields.map plainEntry ++ (group ls).1, (group ls).2) := by
  induction fields with
  | nil => rfl
  | cons field fields ih =>
    rw [List.map_cons, List.cons_append, fieldLine, group, ih]
    rfl

theorem group_tables (tables : List (String × Fields)) :
    group (tables.flatMap tableLines) = ([], tables.map Fields.plainSection) := by
  induction tables with
  | nil => rfl
  | cons table tables ih =>
    rw [List.flatMap_cons, tableLines, List.cons_append, group, group_fields, ih, List.append_nil]
    rfl

/-- What the simple fields of a page are read as. -/
def nodes (fields : List (String × Simple)) : Fields :=
  fields.map fun field => (field.1, field.2.node)

theorem map_fst_nodes (fields : List (String × Simple)) :
    (nodes fields).map Prod.fst = fields.map Prod.fst := by
  rw [nodes, List.map_map]
  rfl

theorem Spells.fields (fields : List (String × Simple)) :
    Spells (fields.flatMap spellLine) ((nodes fields).map fieldLine) := by
  rw [nodes, List.map_map]
  exact Spells.flatMap Spells.field fields

theorem Spells.table (table : String × List (String × Simple)) :
    Spells (spellTable table) (tableLines (table.1, nodes table.2)) :=
  (Spells.header table.1).append (Spells.fields table.2)

namespace Page

def lines (p : Page) : List Line :=
  (nodes p.values).map fieldLine ++ (p.tables.map fun t => (t.1, nodes t.2)).flatMap tableLines

theorem spells (p : Page) : Spells p.spell p.lines := by
  let tables := p.tables.map fun t => (spellTable t, tableLines (t.1, nodes t.2))
  have htables : ∀ part ∈ tables, Spells part.1 part.2 := by
    intro part hpart
    obtain ⟨t, _, rfl⟩ := List.mem_map.1 hpart
    exact Spells.table t
  have hspell : tables.map Prod.fst = p.tables.map spellTable := by
    rw [List.map_map]
    rfl
  have hlines : tables.flatMap Prod.snd =
      (p.tables.map fun t => (t.1, nodes t.2)).flatMap tableLines := by
    rw [List.flatMap_map, List.flatMap_map]
  rw [spell, lines, ← hspell, ← hlines]
  cases hvalues : p.values with
  | nil => exact Spells.intercalate htables
  | cons field fields =>
    have hparts : ∀ part ∈ ((field :: fields).flatMap spellLine,
        (nodes (field :: fields)).map fieldLine) :: tables, Spells part.1 part.2 := by
      intro part hpart
      rcases List.mem_cons.1 hpart with rfl | hpart
      · exact Spells.fields _
      · exact htables part hpart
    exact Spells.intercalate hparts

theorem lines_spell (p : Page) : Toml.lines (p.spell.length + 1) p.spell = some p.lines := by
  have hend : Reads [] [] := by
    intro n hn
    match n with
    | n + 1 => rfl
  have hall := p.spells [] [] hend
  rw [List.append_nil, List.append_nil] at hall
  exact hall _ (Nat.lt_succ_self _)

/-- No name stands in a page twice, neither among its values and tables nor within a table. -/
structure Distinct (p : Page) : Prop where
  names : (p.values.map Prod.fst ++ p.tables.map Prod.fst).Nodup
  fields : ∀ t ∈ p.tables, (t.2.map Prod.fst).Nodup

/-- What a page is put together to. -/
def nodes (p : Page) : Fields :=
  Toml.nodes p.values ++ p.tables.map fun t => (t.1, .table .header (Toml.nodes t.2))

theorem assemble_lines {p : Page} (h : p.Distinct) :
    Fields.assemble (group p.lines).1 (group p.lines).2 = some p.nodes := by
  have hvalues : ((Toml.nodes p.values).map Prod.fst).Nodup := by
    rw [map_fst_nodes]
    exact h.names.of_append_left
  have hnames : ((Toml.nodes p.values).map Prod.fst ++
      (p.tables.map fun t => (t.1, Toml.nodes t.2)).map Prod.fst).Nodup := by
    rw [map_fst_nodes, List.map_map]
    exact h.names
  have hfields : ∀ table ∈ p.tables.map fun t => (t.1, Toml.nodes t.2),
      (table.2.map Prod.fst).Nodup := by
    intro table htable
    obtain ⟨t, ht, rfl⟩ := List.mem_map.1 htable
    rw [map_fst_nodes]
    exact h.fields t ht
  have hassigned : Fields.assignAll [] ((Toml.nodes p.values).map plainEntry) =
      some (Toml.nodes p.values) := Fields.assignAll_of_distinct hvalues
  rw [lines, group_fields, group_tables, List.append_nil, Fields.assemble, hassigned,
    Option.bind_eq_bind, Option.bind_some, Fields.addSections_of_distinct hnames hfields,
    List.map_map]
  rfl

end Page

/-! ## The data of a page -/

theorem fieldsData_eq (fields : Fields) :
    fieldsData fields = fields.map fun field => (field.1, field.2.data) := by
  induction fields with
  | nil => rfl
  | cons field fields ih =>
    rw [fieldsData, ih]
    rfl

theorem Simple.data_node (v : Simple) : v.node.data = v.data := by
  cases v with
  | text s => rfl
  | texts items =>
    rw [node, Node.data, data]
    congr 1
    induction items with
    | nil => rfl
    | cons a items ih =>
      rw [List.map_cons, itemsData, ih]
      rfl

theorem fieldsData_nodes (fields : List (String × Simple)) :
    fieldsData (nodes fields) = simpleFields fields := by
  rw [fieldsData_eq, nodes, List.map_map, simpleFields]
  exact List.map_congr_left fun field _ => congrArg (Prod.mk field.1) field.2.data_node

theorem Page.data_nodes (p : Page) : Data.record (fieldsData p.nodes) = p.data := by
  rw [fieldsData_eq, Page.nodes, List.map_append, ← fieldsData_eq, fieldsData_nodes, List.map_map,
    Page.data]
  congr 2
  refine List.map_congr_left fun t _ => ?_
  rw [← fieldsData_nodes]
  rfl

/-! ## Whole documents -/

theorem intercalate_head {sep first : List Char} {c : Char} (h : ∃ t, first = c :: t)
    (parts : List (List Char)) : ∃ t, sep.intercalate (first :: parts) = c :: t := by
  obtain ⟨t, rfl⟩ := h
  cases parts with
  | nil => exact ⟨t, List.intercalate_singleton⟩
  | cons next parts =>
    rw [List.intercalate_cons_cons]
    exact ⟨_, rfl⟩

/-- A page starts with a key or a bracket, if there is anything in it. -/
theorem Page.spell_head (p : Page) :
    p.spell = [] ∨ ∃ c, isLineStart c = true ∧ ∃ t, p.spell = c :: t := by
  rw [spell]
  cases p.values with
  | nil =>
    cases p.tables with
    | nil => exact .inl rfl
    | cons t tables => exact .inr ⟨'[', rfl, intercalate_head ⟨_, rfl⟩ _⟩
  | cons field fields =>
    obtain ⟨c, t, hspell, hc⟩ := spellLine_head field
    have hfirst : (field :: fields).flatMap spellLine = c :: (t ++ fields.flatMap spellLine) := by
      rw [List.flatMap_cons, hspell]
      rfl
    exact .inr ⟨c, isLineStart_of_isKeyStart hc, intercalate_head ⟨_, hfirst⟩ _⟩

/-- So it does not start with a byte order mark. -/
theorem skipMark_spell (p : Page) : skipMark p.spell = p.spell := by
  rcases p.spell_head with hnil | ⟨c, hc, t, hspell⟩
  · rw [hnil]
    rfl
  · rw [hspell, skipMark.eq_def]
    split
    · next heq =>
      rw [List.head_eq_of_cons_eq heq] at hc
      exact absurd hc (by decide)
    · rfl

theorem read_text {p : Page} (h : p.Distinct) : read p.text = some p.data := by
  rw [read, fields, Page.text, String.toList_ofList, skipMark_spell, p.lines_spell]
  show (Fields.assemble (group p.lines).1 (group p.lines).2).map _ = _
  rw [Page.assemble_lines h, Option.map_some, p.data_nodes]

end Enrolment.Toml
