import Enrolment.Encoding
import Enrolment.Proofs.Configuration
import Enrolment.Proofs.Decoding
import Enrolment.Proofs.Toml.Page

/-!
Values are restored from the documents that they are written as (`documents_restored`).

Everything but the domain's own part is `Toml.read_text`: what is left to see is that no name stands
in a page twice, and that the fields which a value is read from are those which it was written to.
-/

namespace Enrolment

open Decoding

/-! ## Tables -/

theorem record_simpleFields {α : Type} (spell : α → Toml.Simple) (rows : List (String × α)) :
    Data.record (Toml.simpleFields (rows.map fun row => (row.1, spell row.2))) =
      .ofRows (fun a => (spell a).data) rows := by
  rw [Toml.simpleFields, List.map_map]
  rfl

/-- A table is restored from the fields that its rows are written as. -/
theorem table_simpleFields {α : Type} {decode : Data → Option α} {spell : α → Toml.Simple}
    (h : Exact decode fun a => (spell a).data) (t : Table α) :
    table decode (.record (Toml.simpleFields (t.rows.map fun row => (row.1, spell row.2)))) =
      some t := by
  rw [record_simpleFields]
  exact h.table_rows t

/-! ## Pages -/

theorem Principal.distinct_fields (p : Principal) : (p.fields.map Prod.fst).Nodup := by
  show ["name", "type"].Nodup
  decide

theorem Principal.distinct_page (p : Principal) : p.page.Distinct where
  names := by
    rw [page, List.map_nil, List.append_nil]
    exact p.distinct_fields
  fields _ ht := absurd ht List.not_mem_nil

theorem Rule.distinct_page (r : Rule) : r.page.Distinct where
  names := by
    show ["attribute", "value", "group_id"].Nodup
    decide
  fields _ ht := absurd ht List.not_mem_nil

theorem distinct_rows {α : Type} (t : Table α) (spell : α → Toml.Simple) :
    ((t.rows.map fun row => (row.1, spell row.2)).map Prod.fst).Nodup := by
  rw [List.map_map]
  exact t.nodup_keys

theorem Entity.distinct_page (e : Entity) : e.page.Distinct where
  names := by
    cases hidp : e.idp? with
    | none =>
      simp only [page, hidp]
      show ["id", "kind", "principal", "attributes"].Nodup
      decide
    | some idp =>
      simp only [page, hidp]
      show ["id", "kind", "idp_name", "principal", "attributes"].Nodup
      decide
  fields t ht := by
    rcases List.mem_cons.1 ht with rfl | ht
    · exact e.principal.distinct_fields
    · rw [List.mem_singleton.1 ht]
      exact distinct_rows e.attributes .text

theorem Configuration.distinct_page (c : Configuration) : c.page.Distinct where
  names := List.nodup_singleton _
  fields t ht := by
    rw [List.mem_singleton.1 ht]
    exact distinct_rows c.mapping .texts

/-! ## Data

What a page stands for is decoded alike in both notations. -/

theorem Principal.decode_data (d : Dialect) (p : Principal) :
    Principal.decode d p.page.data = some p := by
  obtain ⟨name, kind⟩ := p
  cases kind <;> rfl

theorem Rule.decode_data (d : Dialect) (r : Rule) : Rule.decode d r.page.data = some r := rfl

theorem Configuration.decode_data (d : Dialect) (c : Configuration) :
    Configuration.decode d c.page.data = some c := by
  have hmapping : table Data.texts? (.record (Toml.simpleFields
      (c.mapping.rows.map fun row => (row.1, .texts row.2)))) = some c.mapping :=
    table_simpleFields exact_texts? c.mapping
  show (table Data.texts? (.record _)).bind _ = _
  rw [hmapping]
  rfl

/-- The fields of an entity: one that is left out is told from one that is empty. -/
theorem Entity.slots_data (d : Dialect) (e : Entity) :
    d.slots ["id", "kind", "principal", "idp_name", "attributes"] e.page.data =
      some [some (.text e.id), some (.text e.kind.word), some e.principal.page.data,
        e.idp?.map .text, some (.record (Toml.simpleFields
          (e.attributes.rows.map fun row => (row.1, .text row.2))))] := by
  obtain ⟨id, kind, principal, idp?, attributes⟩ := e
  cases idp? <;> rfl

theorem Entity.decode_data (d : Dialect) (e : Entity) :
    Entity.decode d e.page.data = some e := by
  have hkind : required (fun k => (d.kindWord? k).bind Entity.Kind.ofWord?)
      (some (.text e.kind.word)) = some e.kind := Entity.Kind.ofWord?_word e.kind
  have hprincipal : required (Principal.decode d) (some e.principal.page.data) =
      some e.principal := e.principal.decode_data d
  have hidp : defaulted none (nullable Data.text?) (e.idp?.map .text) = some e.idp? := by
    cases e.idp? <;> rfl
  have hattributes : defaulted Table.empty (table Data.text?)
      (some (.record (Toml.simpleFields
        (e.attributes.rows.map fun row => (row.1, .text row.2))))) = some e.attributes :=
    table_simpleFields exact_text? e.attributes
  have hid : required Data.text? (some (.text e.id)) = some e.id := rfl
  rw [Entity.decode, e.slots_data d]
  simp only [Option.bind_eq_bind, Option.bind_some, hid, hkind, hprincipal, hidp, hattributes]
  rfl

/-! ## Documents -/

/-- Every value is decoded from the text that it is encoded as. -/
def Restored {α : Type} (page : α → Toml.Page) (decode : Dialect → Data → Option α) : Prop :=
  ∀ a, (Toml.read (page a).text).bind (decode .toml) = some a

theorem restored_of {α : Type} {page : α → Toml.Page} {decode : Dialect → Data → Option α}
    (hpage : ∀ a, (page a).Distinct) (hdata : ∀ a, decode .toml (page a).data = some a) :
    Restored page decode := by
  intro a
  rw [Toml.read_text (hpage a), Option.bind_some, hdata]

/-- So no two values are encoded alike. -/
theorem Restored.injective {α : Type} {page : α → Toml.Page} {decode : Dialect → Data → Option α}
    (h : Restored page decode) : Function.Injective fun a => (page a).text := by
  intro a b heq
  have hb := h b
  rw [← show (page a).text = (page b).text from heq, h a] at hb
  exact Option.some.inj hb

namespace Configuration

theorem ofText_text (c : Configuration) : ofText c.page.text = c.validate.map fun _ => c := by
  refine ofText_of_some ?_
  rw [ofDocument, Toml.read_text c.distinct_page]
  exact c.decode_data .toml

end Configuration

/-- Writing values down and reading them again. -/
structure RoundTrip : Prop where
  configuration : Restored Configuration.page Configuration.decode
  principal : Restored Principal.page Principal.decode
  rule : Restored Rule.page Rule.decode
  entity : Restored Entity.page Entity.decode
  /-- In particular, these are different: no IDP and one with the empty name, an IDP with no groups
  and one that is not mapped. -/
  distinct : (Function.Injective fun c : Configuration => c.page.text) ∧
    (Function.Injective fun p : Principal => p.page.text) ∧
    (Function.Injective fun r : Rule => r.page.text) ∧
    Function.Injective fun e : Entity => e.page.text
  /-- A configuration without blank names is loaded from its text. -/
  loaded : ∀ c : Configuration, (∀ idp ∈ c.mapping.keys, Text.isBlank idp = false) →
    Configuration.ofText c.page.text = .ok c
  /-- One with blank names is refused, for the first of them. -/
  refused : ∀ c : Configuration, ∀ idp ∈ c.mapping.keys, Text.isBlank idp = true →
    ∃ name ∈ c.mapping.keys, Text.isBlank name = true ∧ name ≤ idp ∧
      Configuration.ofText c.page.text = .error (.blankIdpName name)

theorem documents_restored : RoundTrip := by
  have hconfiguration : Restored Configuration.page Configuration.decode :=
    restored_of Configuration.distinct_page (Configuration.decode_data .toml)
  have hprincipal : Restored Principal.page Principal.decode :=
    restored_of Principal.distinct_page (Principal.decode_data .toml)
  have hrule : Restored Rule.page Rule.decode :=
    restored_of Rule.distinct_page (Rule.decode_data .toml)
  have hentity : Restored Entity.page Entity.decode :=
    restored_of Entity.distinct_page (Entity.decode_data .toml)
  constructor
  · exact hconfiguration
  · exact hprincipal
  · exact hrule
  · exact hentity
  · exact ⟨hconfiguration.injective, hprincipal.injective, hrule.injective, hentity.injective⟩
  · intro c hnames
    rw [c.ofText_text, Configuration.validate, Configuration.blankName?_eq_none hnames]
    rfl
  · intro c idp hidp hblank
    obtain ⟨name, hname, hblank', hle, hfirst⟩ := Configuration.blankName?_eq_some hidp hblank
    refine ⟨name, hname, hblank', hle, ?_⟩
    rw [c.ofText_text, Configuration.validate, hfirst]
    rfl

end Enrolment
