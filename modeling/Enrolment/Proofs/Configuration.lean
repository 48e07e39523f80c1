import Enrolment.Proofs.Decoding
import Enrolment.Proofs.Registry.Registration
import Enrolment.Proofs.Toml.Names

/-!
Which texts are accepted as configurations (`configurations_accepted`).

A document of the wrong form is refused for its form, whatever names stand in it.  The names are
looked at in order, so it is the first blank one that is reported; and a name passes here exactly if
the registry of providers does not find it blank.
-/

namespace Enrolment
namespace Configuration

/-! ## The mapping of a document -/

/-- The IDPs of a document with their groups.  A document without a mapping has none. -/
inductive Maps (fields : List (String × Data)) : List (String × List String) → Prop
  | absent : "mapping" ∉ fields.map Prod.fst → Maps fields []
  | given {rows : List (String × List String)} :
      ("mapping", .ofRows .ofTexts rows) ∈ fields → Maps fields rows

section

variable {d : Dialect} {fields : List (String × Data)} {c : Configuration}

theorem decode_record (d : Dialect) (fields : List (String × Data)) :
    decode d (.record fields) =
      (Decoding.defaulted Table.empty (Decoding.table Data.texts?) (fields.lookup "mapping")).map
        Configuration.mk :=
  decode_of_slots rfl

theorem Maps.distinct (h : (Data.record fields).Distinct) {rows : List (String × List String)}
    (hmaps : Maps fields rows) : (rows.map Prod.fst).Nodup := by
  cases hmaps with
  | absent _ => exact List.nodup_nil
  | given hmem => exact (h.fields _ hmem).rows

theorem decode_eq_some_iff (h : (Data.record fields).Distinct) :
    decode d (.record fields) = some c ↔
      ∃ rows, Maps fields rows ∧
        ∀ idp ids, c.mapping.get? idp = some ids ↔ (idp, ids) ∈ rows := by
  -- The table is put together from the rows; that it finds each of them needs distinct names.
  have hrows : decode d (.record fields) = some c ↔
      ∃ rows, Maps fields rows ∧ c.mapping = Table.ofList rows := by
    rw [decode_record, Option.map_eq_some_iff]
    constructor
    · intro hsome
      obtain ⟨t, ht, hc⟩ := hsome
      rw [← hc]
      cases hlookup : fields.lookup "mapping" with
      | none =>
        rw [hlookup] at ht
        exact ⟨[], .absent (lookup_eq_none_iff_not_mem.1 hlookup), (Option.some.inj ht).symm⟩
      | some data =>
        rw [hlookup] at ht
        obtain ⟨rows, hdata, ht⟩ := Decoding.exact_texts?.table.1 ht
        exact ⟨rows, .given (mem_of_lookup (hdata ▸ hlookup)), ht⟩
    · intro hrows
      obtain ⟨rows, hmaps, hc⟩ := hrows
      refine ⟨c.mapping, ?_, rfl⟩
      cases hmaps with
      | absent hnot =>
        rw [lookup_eq_none_iff_not_mem.2 hnot, hc]
        rfl
      | given hmem =>
        rw [(lookup_eq_some_iff_mem h.names).2 hmem]
        exact Decoding.exact_texts?.table.2 ⟨rows, rfl, hc⟩
  rw [hrows]
  exact exists_congr fun rows => and_congr_right fun hmaps =>
    Table.eq_ofList_iff (hmaps.distinct h)

theorem decode_eq_none_iff (h : (Data.record fields).Distinct) :
    decode d (.record fields) = none ↔
      ∃ data, ("mapping", data) ∈ fields ∧ ∀ rows, data ≠ .ofRows .ofTexts rows := by
  rw [decode_record, Option.map_eq_none_iff]
  constructor
  · intro hnone
    cases hlookup : fields.lookup "mapping" with
    | none =>
      rw [hlookup] at hnone
      cases hnone
    | some data =>
      rw [hlookup] at hnone
      refine ⟨data, mem_of_lookup hlookup, fun rows hdata => ?_⟩
      have hsome := Decoding.exact_texts?.table.2 ⟨rows, hdata, rfl⟩
      exact absurd (hnone.symm.trans hsome) (Option.some_ne_none _).symm
  · intro hwrong
    obtain ⟨data, hmem, hwrong⟩ := hwrong
    rw [(lookup_eq_some_iff_mem h.names).2 hmem]
    refine Option.eq_none_iff_forall_not_mem.2 fun t ht => ?_
    obtain ⟨rows, hdata, _⟩ := Decoding.exact_texts?.table.1 ht
    exact hwrong rows hdata

end

/-! ## The check of the names -/

theorem blankName?_eq_none {c : Configuration}
    (h : ∀ idp ∈ c.mapping.keys, Text.isBlank idp = false) : c.blankName? = none :=
  List.find?_eq_none.2 fun idp hidp => Bool.eq_false_iff.1 (h idp hidp)

/-- The keys are in order, so the first blank one that is found is the first of all. -/
theorem blankName?_eq_some {c : Configuration} {idp : String} (hidp : idp ∈ c.mapping.keys)
    (hblank : Text.isBlank idp = true) :
    ∃ name ∈ c.mapping.keys, Text.isBlank name = true ∧ name ≤ idp ∧ c.blankName? = some name := by
  have hsome : c.blankName?.isSome = true := List.find?_isSome.2 ⟨idp, hidp, hblank⟩
  obtain ⟨name, hname⟩ := Option.isSome_iff_exists.1 hsome
  obtain ⟨hblank', before, after, hkeys, hbefore⟩ := List.find?_eq_some_iff_append.1 hname
  have horder : (before ++ name :: after).Pairwise (· < ·) :=
    hkeys ▸ List.pairwise_map.2 c.mapping.increasing
  refine ⟨name, List.mem_of_find?_eq_some hname, hblank', ?_, hname⟩
  rw [hkeys, List.mem_append, List.mem_cons] at hidp
  rcases hidp with hidp | rfl | hidp
  · have hnot := hbefore idp hidp
    rw [hblank] at hnot
    cases hnot
  · exact String.le_refl _
  · have hlt := (List.pairwise_cons.1 (List.pairwise_append.1 horder).2.1).1 idp hidp
    exact String.not_lt.1 (String.lt_asymm hlt)

/-- The name is blank and comes before all the other blank names of the list. -/
structure FirstBlank (names : List String) (name : String) : Prop where
  mem : name ∈ names
  blank : Text.isBlank name = true
  first : ∀ other ∈ names, Text.isBlank other = true → name ≤ other

theorem blankName?_eq_some_iff {c : Configuration} {name : String} :
    c.blankName? = some name ↔ FirstBlank c.mapping.keys name := by
  constructor
  · intro h
    refine ⟨List.mem_of_find?_eq_some h, List.find?_some h, fun other hother hblank => ?_⟩
    obtain ⟨least, _, _, hle, hleast⟩ := blankName?_eq_some hother hblank
    rw [Option.some.inj (h.symm.trans hleast)]
    exact hle
  · intro h
    obtain ⟨least, hmem, hblank, hle, hleast⟩ := blankName?_eq_some h.mem h.blank
    rw [hleast, String.le_antisymm hle (h.first least hmem hblank)]

theorem blankName?_eq_none_iff {c : Configuration} :
    c.blankName? = none ↔ ∀ idp ∈ c.mapping.keys, Text.isBlank idp = false := by
  constructor
  · intro h idp hidp
    by_contra hblank
    obtain ⟨name, _, _, _, hsome⟩ := blankName?_eq_some hidp (Bool.not_eq_false _ ▸ hblank)
    exact absurd (h.symm.trans hsome) (Option.some_ne_none name).symm
  · exact blankName?_eq_none

theorem validate_eq_ok_iff {c : Configuration} :
    c.validate = .ok () ↔ ∀ idp ∈ c.mapping.keys, Text.isBlank idp = false := by
  rw [← blankName?_eq_none_iff, validate]
  cases c.blankName? with
  | none => exact iff_of_true rfl rfl
  | some name => exact iff_of_false (fun h => by cases h) (Option.some_ne_none name)

theorem validate_eq_error_iff {c : Configuration} {name : String} :
    c.validate = .error (.blankIdpName name) ↔ FirstBlank c.mapping.keys name := by
  rw [← blankName?_eq_some_iff, validate]
  cases c.blankName? with
  | none => exact iff_of_false (fun h => by cases h) (Option.some_ne_none name).symm
  | some first =>
    rw [Except.error.injEq, ConfigFault.blankIdpName.injEq, Option.some.injEq]

/-! ## Texts -/

/-- The configuration of a text before its names are checked, if the text has the right form. -/
def ofDocument (text : String) : Option Configuration := (Toml.read text).bind (decode .toml)

theorem ofText_of_none {text : String} (h : ofDocument text = none) :
    ∃ detail, ofText text = .error (.illFormed detail) := by
  rw [ofDocument] at h
  cases hread : Toml.read text with
  | none =>
    rw [ofText, hread]
    exact ⟨_, rfl⟩
  | some data =>
    rw [hread, Option.bind_some] at h
    simp only [ofText, hread, h, bind, Except.bind]
    exact ⟨_, rfl⟩

theorem ofText_of_some {text : String} {c : Configuration} (h : ofDocument text = some c) :
    ofText text = c.validate.map fun _ => c := by
  obtain ⟨data, hread, hdecode⟩ := Option.bind_eq_some_iff.1 h
  simp only [ofText, hread, hdecode, bind, Except.bind]
  cases c.validate <;> rfl

theorem validate_cases (c : Configuration) :
    (c.validate = .ok () ∧ ∀ idp ∈ c.mapping.keys, Text.isBlank idp = false) ∨
      ∃ name, c.validate = .error (.blankIdpName name) ∧ FirstBlank c.mapping.keys name := by
  cases h : c.blankName? with
  | none => exact .inl ⟨by rw [validate, h], blankName?_eq_none_iff.1 h⟩
  | some name => exact .inr ⟨name, by rw [validate, h], blankName?_eq_some_iff.1 h⟩

/-- The form is looked at before the names. -/
theorem ofText_cases (text : String) :
    (ofDocument text = none ∧ ∃ detail, ofText text = .error (.illFormed detail)) ∨
      (∃ c name, ofDocument text = some c ∧ FirstBlank c.mapping.keys name ∧
        ofText text = .error (.blankIdpName name)) ∨
      ∃ c, ofDocument text = some c ∧ (∀ idp ∈ c.mapping.keys, Text.isBlank idp = false) ∧
        ofText text = .ok c := by
  cases h : ofDocument text with
  | none => exact .inl ⟨rfl, ofText_of_none h⟩
  | some c =>
    have htext := ofText_of_some h
    rcases c.validate_cases with ⟨hok, hnames⟩ | ⟨name, herror, hfirst⟩
    · exact .inr (.inr ⟨c, rfl, hnames, by rw [htext, hok]; rfl⟩)
    · exact .inr (.inl ⟨c, name, rfl, hfirst, by rw [htext, herror]; rfl⟩)

theorem ofText_eq_ok_iff {text : String} {c : Configuration} :
    ofText text = .ok c ↔
      ofDocument text = some c ∧ ∀ idp ∈ c.mapping.keys, Text.isBlank idp = false := by
  constructor
  · intro h
    rcases ofText_cases text with ⟨_, _, htext⟩ | ⟨_, _, _, _, htext⟩ | ⟨c', hsome, hnames, htext⟩
    · cases htext.symm.trans h
    · cases htext.symm.trans h
    · cases htext.symm.trans h
      exact ⟨hsome, hnames⟩
  · intro h
    rw [ofText_of_some h.1, validate_eq_ok_iff.2 h.2]
    rfl

theorem ofText_eq_blank_iff {text name : String} :
    ofText text = .error (.blankIdpName name) ↔
      ∃ c, ofDocument text = some c ∧ FirstBlank c.mapping.keys name := by
  constructor
  · intro h
    rcases ofText_cases text with ⟨_, _, htext⟩ | ⟨c, _, hsome, hfirst, htext⟩ | ⟨_, _, _, htext⟩
    · cases htext.symm.trans h
    · cases htext.symm.trans h
      exact ⟨c, hsome, hfirst⟩
    · cases htext.symm.trans h
  · intro h
    obtain ⟨c, hsome, hfirst⟩ := h
    rw [ofText_of_some hsome, validate_eq_error_iff.2 hfirst]
    rfl

theorem read_record {text : String} {data : Data} (h : Toml.read text = some data) :
    ∃ fields, data = .record fields := by
  obtain ⟨fs, _, heq⟩ := Option.map_eq_some_iff.1 h
  exact ⟨_, heq.symm⟩

theorem ofDocument_eq_some_iff {text : String} {c : Configuration} :
    ofDocument text = some c ↔
      ∃ fields rows, Toml.read text = some (.record fields) ∧ Maps fields rows ∧
        ∀ idp ids, c.mapping.get? idp = some ids ↔ (idp, ids) ∈ rows := by
  rw [ofDocument, Option.bind_eq_some_iff]
  constructor
  · intro hdata
    obtain ⟨data, hread, hdecode⟩ := hdata
    obtain ⟨fields, rfl⟩ := read_record hread
    obtain ⟨rows, hmaps, hrows⟩ := (decode_eq_some_iff (Toml.read_distinct hread)).1 hdecode
    exact ⟨fields, rows, hread, hmaps, hrows⟩
  · intro hrows
    obtain ⟨fields, rows, hread, hmaps, hrows⟩ := hrows
    exact ⟨_, hread, (decode_eq_some_iff (Toml.read_distinct hread)).2 ⟨rows, hmaps, hrows⟩⟩

theorem ofDocument_eq_none_iff {text : String} :
    ofDocument text = none ↔
      Toml.read text = none ∨
        ∃ fields data, Toml.read text = some (.record fields) ∧ ("mapping", data) ∈ fields ∧
          ∀ rows, data ≠ .ofRows .ofTexts rows := by
  rw [ofDocument]
  cases hread : Toml.read text with
  | none => exact iff_of_true rfl (.inl rfl)
  | some data =>
    obtain ⟨fields, rfl⟩ := read_record hread
    rw [Option.bind_some, decode_eq_none_iff (Toml.read_distinct hread),
      or_iff_right (Option.some_ne_none _)]
    constructor
    · intro hdata
      obtain ⟨data, hmem, hwrong⟩ := hdata
      exact ⟨fields, data, rfl, hmem, hwrong⟩
    · intro hdata
      obtain ⟨fields', data, heq, hmem, hwrong⟩ := hdata
      rw [Option.some.injEq, Data.record.injEq] at heq
      exact ⟨data, heq ▸ hmem, hwrong⟩

/-- The rows of a document are a configuration. -/
theorem exists_ofDocument {text : String} {fields : List (String × Data)}
    {rows : List (String × List String)} (hread : Toml.read text = some (.record fields))
    (hmaps : Maps fields rows) :
    ∃ c, ofDocument text = some c ∧
      ∀ idp ids, c.mapping.get? idp = some ids ↔ (idp, ids) ∈ rows := by
  have hdistinct := hmaps.distinct (Toml.read_distinct hread)
  have hrows := (Table.eq_ofList_iff hdistinct).1 (rfl : Table.ofList rows = _)
  exact ⟨⟨Table.ofList rows⟩, ofDocument_eq_some_iff.2 ⟨fields, rows, hread, hmaps, hrows⟩, hrows⟩

/-- The keys of a configuration are the names of the rows that it was read from. -/
theorem mem_keys_iff {c : Configuration} {rows : List (String × List String)}
    (h : ∀ idp ids, c.mapping.get? idp = some ids ↔ (idp, ids) ∈ rows) (name : String) :
    name ∈ c.mapping.keys ↔ name ∈ rows.map Prod.fst := by
  rw [← Table.contains_iff_mem_keys, Table.contains, Option.isSome_iff_exists, List.mem_map]
  constructor
  · intro hsome
    obtain ⟨ids, hids⟩ := hsome
    exact ⟨(name, ids), (h name ids).1 hids, rfl⟩
  · intro hrow
    obtain ⟨⟨idp, ids⟩, hrow, heq⟩ := hrow
    exact ⟨ids, heq ▸ (h idp ids).2 hrow⟩

theorem FirstBlank.congr {names names' : List String} (h : ∀ name, name ∈ names ↔ name ∈ names')
    {name : String} (hfirst : FirstBlank names name) : FirstBlank names' name where
  mem := (h name).1 hfirst.mem
  blank := hfirst.blank
  first other hother := hfirst.first other ((h other).2 hother)

/-! ## What is accepted -/

/-- What a text is taken for as a configuration. -/
structure Acceptance (text : String) : Prop where
  /-- The form comes first, and blank names do not matter to it. -/
  illFormed : (∃ detail, ofText text = .error (.illFormed detail)) ↔
    Toml.read text = none ∨
      ∃ fields data, Toml.read text = some (.record fields) ∧ ("mapping", data) ∈ fields ∧
        ∀ rows, data ≠ .ofRows .ofTexts rows
  blank : ∀ name, ofText text = .error (.blankIdpName name) ↔
    ∃ fields rows, Toml.read text = some (.record fields) ∧ Maps fields rows ∧
      FirstBlank (rows.map Prod.fst) name
  /-- The rows of the document are the configuration, and nothing else is in it. -/
  loaded : ∀ c, ofText text = .ok c ↔
    ∃ fields rows, Toml.read text = some (.record fields) ∧ Maps fields rows ∧
      (∀ name ∈ rows.map Prod.fst, Text.isBlank name = false) ∧
      ∀ idp ids, c.mapping.get? idp = some ids ↔ (idp, ids) ∈ rows
  /-- There are no other ways to be refused. -/
  refused : ∀ fault, ofText text = .error fault →
    (∃ detail, fault = .illFormed detail) ∨ ∃ name, fault = .blankIdpName name
  /-- Nothing but the mapping of a document matters. -/
  others : ∀ other fields fields', Toml.read text = some (.record fields) →
    Toml.read other = some (.record fields') →
    (∀ data, ("mapping", data) ∈ fields ↔ ("mapping", data) ∈ fields') →
    ofText text = ofText other
  /-- Every IDP can have a provider, whatever the order in which these are registered. -/
  registrable : ∀ c, ofText text = .ok c → ∀ attempts : List Attempt,
    (attempts.map Attempt.idp).Perm c.mapping.keys →
    (∀ outcome ∈ (Registry.empty.attemptAll attempts).1, outcome = .ok ()) ∧
      (Registry.empty.attemptAll attempts).2.providers =
        attempts.map fun a => (a.idp, a.provider)
  /-- The standing groups are those of the document, with order and repetitions. -/
  standing : ∀ c fields rows, ofText text = .ok c → Toml.read text = some (.record fields) →
    Maps fields rows →
    (Standing.ofConfiguration c).idps.Perm (rows.map Prod.fst) ∧
      (∀ idp, (Standing.ofConfiguration c).hasIdp idp = true ↔ idp ∈ rows.map Prod.fst) ∧
      ∀ idp ids, (idp, ids) ∈ rows → (Standing.ofConfiguration c).groupIds idp = ids

/-- The check of a configuration and the registry of providers agree on blank names. -/
structure SameNames : Prop where
  one : ∀ (name : String) (ids : List String) (r : Registry) (p : Provider),
    validate ⟨Table.empty.insert name ids⟩ = .error (.blankIdpName name) ↔
      (r.register name p).1 = .error (.blankIdpName name)
  all : ∀ (c : Configuration) (r : Registry) (p : Provider),
    c.validate = .ok () ↔
      ∀ name ∈ c.mapping.keys, (r.register name p).1 ≠ .error (.blankIdpName name)

theorem sameNames : SameNames where
  one name ids r p := by
    rw [validate_eq_error_iff, Registry.register_blank_iff]
    have hkeys : ∀ other, other ∈ (Table.empty.insert name ids).keys ↔ other = name := by
      intro other
      rw [Table.mem_keys_insert]
      exact or_iff_left List.not_mem_nil
    constructor
    · intro h
      exact h.blank
    · intro h
      exact ⟨(hkeys name).2 rfl, h, fun other hother _ => (hkeys other).1 hother ▸ String.le_refl _⟩
  all c r p := by
    rw [validate_eq_ok_iff]
    simp only [ne_eq, Registry.register_blank_iff, Bool.not_eq_true]

theorem acceptance (text : String) : Acceptance text where
  illFormed := by
    rw [← ofDocument_eq_none_iff]
    rcases ofText_cases text with ⟨hnone, hill⟩ | ⟨c, _, hsome, _, htext⟩ | ⟨c, hsome, _, htext⟩
    · exact iff_of_true hill hnone
    · rw [hsome, htext]
      exact iff_of_false (fun ⟨_, h⟩ => by cases h) (Option.some_ne_none c)
    · rw [hsome, htext]
      exact iff_of_false (fun ⟨_, h⟩ => by cases h) (Option.some_ne_none c)
  blank name := by
    rw [ofText_eq_blank_iff]
    constructor
    · intro h
      obtain ⟨c, hsome, hfirst⟩ := h
      obtain ⟨fields, rows, hread, hmaps, hrows⟩ := ofDocument_eq_some_iff.1 hsome
      exact ⟨fields, rows, hread, hmaps, hfirst.congr (mem_keys_iff hrows)⟩
    · intro h
      obtain ⟨fields, rows, hread, hmaps, hfirst⟩ := h
      obtain ⟨c, hsome, hrows⟩ := exists_ofDocument hread hmaps
      exact ⟨c, hsome, hfirst.congr fun name => (mem_keys_iff hrows name).symm⟩
  loaded c := by
    rw [ofText_eq_ok_iff, ofDocument_eq_some_iff]
    constructor
    · intro h
      obtain ⟨⟨fields, rows, hread, hmaps, hrows⟩, hnames⟩ := h
      exact ⟨fields, rows, hread, hmaps,
        fun name hname => hnames name ((mem_keys_iff hrows name).2 hname), hrows⟩
    · intro h
      obtain ⟨fields, rows, hread, hmaps, hnames, hrows⟩ := h
      exact ⟨⟨fields, rows, hread, hmaps, hrows⟩,
        fun name hname => hnames name ((mem_keys_iff hrows name).1 hname)⟩
  refused fault h := by
    rcases ofText_cases text with ⟨_, detail, htext⟩ | ⟨_, name, _, _, htext⟩ | ⟨_, _, _, htext⟩
    · exact .inl ⟨detail, Except.error.inj (h.symm.trans htext)⟩
    · exact .inr ⟨name, Except.error.inj (h.symm.trans htext)⟩
    · cases htext.symm.trans h
  others other fields fields' hread hread' hsame := by
    have hlookup : fields.lookup "mapping" = fields'.lookup "mapping" := by
      refine Option.ext fun data => ?_
      rw [lookup_eq_some_iff_mem (Toml.read_distinct hread).names, hsame,
        lookup_eq_some_iff_mem (Toml.read_distinct hread').names]
    simp only [ofText, hread, hread', decode_record, hlookup, bind, Except.bind]
  registrable c h attempts hperm := by
    have hblank : ∀ a ∈ attempts, Text.isBlank a.idp = false := fun a ha =>
      (ofText_eq_ok_iff.1 h).2 a.idp (hperm.mem_iff.1 (List.mem_map_of_mem ha))
    have hok := Registry.attemptAll_of_fresh hblank (hperm.nodup_iff.2 c.mapping.nodup_keys)
    refine ⟨hok, ?_⟩
    rw [Registry.providers_attemptAll, Registry.succeeded_of_ok (Registry.length_outcomes _ _) hok]
    rfl
  standing c fields rows h hread hmaps := by
    obtain ⟨c', hsome, hrows⟩ := exists_ofDocument hread hmaps
    obtain rfl : c' = c := Option.some.inj (hsome.symm.trans (ofText_eq_ok_iff.1 h).1)
    have hdistinct := hmaps.distinct (Toml.read_distinct hread)
    refine ⟨?_, fun idp => ?_, fun idp ids hmem => ?_⟩
    · exact (List.perm_ext_iff_of_nodup c'.mapping.nodup_keys hdistinct).2 (mem_keys_iff hrows)
    · rw [← mem_keys_iff hrows, ← Table.contains_iff_mem_keys]
      rfl
    · show (c'.mapping.get? idp).getD [] = ids
      rw [(hrows idp ids).2 hmem]
      rfl

end Configuration

theorem configurations_accepted :
    Configuration.SameNames ∧ ∀ text, Configuration.Acceptance text :=
  ⟨Configuration.sameNames, Configuration.acceptance⟩

end Enrolment
