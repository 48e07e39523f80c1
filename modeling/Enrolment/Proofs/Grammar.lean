import Enrolment.Proofs.RoundTrip
import Mathlib.Data.List.Forall2

/-!
The forms in which JSON may give the domain's values, and that the decoders accept these forms and
no others (`decoding_follows_grammar`).

The grammar says for each type what may be written for which value: `Gives` says how the fields of a
value may be given, and the types add what may stand in each field.  That the decoders follow it is
seen field by field, and that a value does not depend on the way in which its fields are given is
then seen from the fields alone.

A value is given out by the fields that its page stands for (`GivenOut`).
-/

namespace Enrolment

/-! ## Fields -/

namespace Grammar

/-- The value of the field, or none if there is no such field. -/
def Field (fields : List (String × Data)) (name : String) : Option Data → Prop
  | some d => (name, d) ∈ fields
  | none => name ∉ fields.map Prod.fst

/-- The named fields of a value: by name, in any order and among others, or as a list in the order
of declaration, which may end before fields that are left out. -/
inductive Gives (names : List String) : Data → List (Option Data) → Prop
  | named {fields : List (String × Data)} {slots : List (Option Data)} :
      List.Forall₂ (Field fields) names slots → Gives names (.record fields) slots
  | listed {items : List Data} {absent : Nat} : items.length + absent = names.length →
      Gives names (.list items) (items.map some ++ List.replicate absent none)

/-- The word of a kind, alone or as the name of one field that holds nothing. -/
inductive Names (w : String) : Data → Prop
  | alone : Names w (.text w)
  | field : Names w (.record [(w, .null)])

/-- A text that may be left out, and for which nothing may be given. -/
inductive Nullable : Option Data → Option String → Prop
  | absent : Nullable none none
  | null : Nullable (some .null) none
  | given (s : String) : Nullable (some (.text s)) (some s)

/-- A table that may be left out if it is empty, but for which nothing else may be given than a
record with one field for each key. -/
inductive Tabulates {α : Type} (write : α → Data) : Option Data → Table α → Prop
  | absent : Tabulates write none Table.empty
  | given {rows : List (String × α)} {t : Table α} :
      (∀ key a, t.get? key = some a ↔ (key, a) ∈ rows) →
      Tabulates write (some (.ofRows write rows)) t

end Grammar

open Grammar Decoding

/-! ## Values -/

def Principal.fieldNames : List String := ["name", "type"]

def Entity.fieldNames : List String := ["id", "kind", "principal", "idp_name", "attributes"]

def Rule.fieldNames : List String := ["attribute", "value", "group_id"]

def Configuration.fieldNames : List String := ["mapping"]

def Principal.Written (data : Data) (p : Principal) : Prop :=
  ∃ kind, Gives Principal.fieldNames data [some (.text p.name), some kind] ∧ Names p.kind.word kind

def Entity.Written (data : Data) (e : Entity) : Prop :=
  ∃ kind principal idp attributes,
    Gives Entity.fieldNames data
      [some (.text e.id), some kind, some principal, idp, attributes] ∧
    Names e.kind.word kind ∧ Principal.Written principal e.principal ∧ Nullable idp e.idp? ∧
      Tabulates .text attributes e.attributes

def Rule.Written (data : Data) (r : Rule) : Prop :=
  Gives Rule.fieldNames data [some (.text r.key), some (.text r.value), some (.text r.group)]

def Configuration.Written (data : Data) (c : Configuration) : Prop :=
  ∃ mapping, Gives Configuration.fieldNames data [mapping] ∧ Tabulates .ofTexts mapping c.mapping

/-! ## Decoding fields -/

namespace Grammar

theorem field_iff {fields : List (String × Data)} (h : (fields.map Prod.fst).Nodup) {name : String}
    {slot : Option Data} : Field fields name slot ↔ fields.lookup name = slot := by
  cases slot with
  | none => exact lookup_eq_none_iff_not_mem.symm
  | some d => exact (lookup_eq_some_iff_mem h).symm

theorem forall₂_field_iff {fields : List (String × Data)} (h : (fields.map Prod.fst).Nodup)
    {names : List String} {slots : List (Option Data)} :
    List.Forall₂ (Field fields) names slots ↔
      names.map (fun name => fields.lookup name) = slots := by
  rw [← List.forall₂_eq_eq_eq, List.forall₂_map_left_iff]
  constructor
  · exact List.Forall₂.imp fun _ _ => (field_iff h).1
  · exact List.Forall₂.imp fun _ _ => (field_iff h).2

theorem slots_json_iff {names : List String} {data : Data} (h : data.Distinct)
    {slots : List (Option Data)} :
    Dialect.json.slots names data = some slots ↔ Gives names data slots := by
  cases data with
  | record fields =>
    rw [Dialect.slots, Option.some.injEq, ← forall₂_field_iff h.names]
    constructor
    · exact .named
    · intro hgives
      cases hgives with
      | named hfields => exact hfields
  | list items =>
    rw [Dialect.slots]
    constructor
    · intro hsome
      split at hsome
      · next hle =>
        have hle : items.length ≤ names.length := hle.resolve_right Bool.false_ne_true
        rw [← Option.some.inj hsome, List.take_of_length_le hle]
        exact .listed (Nat.add_sub_cancel' hle)
      · cases hsome
    · intro hgives
      cases hgives with
      | @listed items absent hlength =>
        have hle : items.length ≤ names.length := by omega
        have habsent : names.length - items.length = absent := by omega
        rw [if_pos (.inl hle), List.take_of_length_le hle, habsent]
  | _ =>
    constructor
    · intro hsome
      cases hsome
    · intro hgives
      cases hgives

theorem exists_field {fields : List (String × Data)} {names : List String}
    {slots : List (Option Data)} (h : List.Forall₂ (Field fields) names slots) {d : Data}
    (hd : some d ∈ slots) : ∃ name, (name, d) ∈ fields := by
  induction h with
  | nil => cases hd
  | cons hfirst _ ih =>
    rcases List.mem_cons.1 hd with heq | hd
    · rw [← heq] at hfirst
      exact ⟨_, hfirst⟩
    · exact ih hd

/-- What is given in a field has names apart if the whole has. -/
theorem Gives.distinct {names : List String} {data : Data} {slots : List (Option Data)}
    (h : Gives names data slots) (hdata : data.Distinct) {d : Data} (hd : some d ∈ slots) :
    d.Distinct := by
  cases h with
  | named hfields =>
    obtain ⟨name, hfield⟩ := exists_field hfields hd
    exact hdata.fields _ hfield
  | @listed items absent _ =>
    rcases List.mem_append.1 hd with hitem | hnone
    · obtain ⟨item, hitem, heq⟩ := List.mem_map.1 hitem
      exact Option.some.inj heq ▸ hdata.items item hitem
    · cases List.eq_of_mem_replicate hnone

/-! ## Decoding what stands in a field -/

theorem required_iff {α : Type} {decode : Data → Option α} {write : α → Data}
    (h : Exact decode write) {slot : Option Data} {a : α} :
    required decode slot = some a ↔ slot = some (write a) := by
  cases slot with
  | none => exact iff_of_false (fun h => by cases h) (Option.some_ne_none _).symm
  | some d =>
    rw [Option.some.injEq]
    exact h

theorem isUnit_json_iff {d : Data} : Dialect.json.isUnit d = true ↔ d = .null := by
  cases d with
  | null => exact iff_of_true rfl rfl
  | _ => exact iff_of_false Bool.false_ne_true fun h => by cases h

theorem kindWord?_iff {d : Data} {w : String} :
    Dialect.json.kindWord? d = some w ↔ Names w d := by
  constructor
  · intro h
    rw [Dialect.kindWord?.eq_def] at h
    split at h
    · rw [← Option.some.inj h]
      exact .alone
    · split at h
      · next hunit =>
        rw [isUnit_json_iff.1 hunit, ← Option.some.inj h]
        exact .field
      · cases h
    · cases h
  · intro h
    cases h with
    | alone => rfl
    | field => rfl

/-- A field for a kind has the word of the kind in it. -/
theorem kind_iff {κ : Type} {ofWord? : String → Option κ} {word : κ → String}
    (h : ∀ {w k}, ofWord? w = some k ↔ w = word k) {slot : Option Data} {k : κ} :
    required (fun d => Dialect.json.kindWord? d >>= ofWord?) slot = some k ↔
      ∃ d, slot = some d ∧ Names (word k) d := by
  rw [required, Option.bind_eq_bind, Option.bind_eq_some_iff]
  refine exists_congr fun d => and_congr_right fun _ => ?_
  rw [Option.bind_eq_bind, Option.bind_eq_some_iff]
  constructor
  · intro hw
    obtain ⟨w, hw, hk⟩ := hw
    rw [← h.1 hk]
    exact kindWord?_iff.1 hw
  · intro hnames
    exact ⟨word k, kindWord?_iff.2 hnames, h.2 rfl⟩

theorem nullable_iff {slot : Option Data} {idp? : Option String} :
    defaulted none (nullable Data.text?) slot = some idp? ↔ Nullable slot idp? := by
  constructor
  · intro h
    rcases slot with _ | d
    · exact Option.some.inj h ▸ .absent
    · cases d with
      | null => exact Option.some.inj h ▸ .null
      | text s => exact Option.some.inj h ▸ .given s
      | _ => cases h
  · intro h
    cases h with
    | absent => rfl
    | null => rfl
    | given s => rfl

theorem tabulates_iff {α : Type} {decode : Data → Option α} {write : α → Data}
    (h : Exact decode write) {slot : Option Data} {t : Table α}
    (hslot : ∀ d, slot = some d → d.Distinct) :
    defaulted Table.empty (table decode) slot = some t ↔ Tabulates write slot t := by
  cases slot with
  | none =>
    constructor
    · intro hsome
      exact Option.some.inj hsome ▸ .absent
    · intro ht
      cases ht
      rfl
  | some d =>
    show table decode d = some t ↔ _
    rw [h.table]
    constructor
    · intro hrows
      obtain ⟨rows, hd, ht⟩ := hrows
      have hdistinct := hslot d rfl
      rw [hd] at hdistinct ⊢
      exact .given ((Table.eq_ofList_iff hdistinct.rows).1 ht)
    · intro ht
      cases ht with
      | @given rows _ hrows =>
        exact ⟨rows, rfl, (Table.eq_ofList_iff (hslot _ rfl).rows).2 hrows⟩

end Grammar

theorem Principal.Kind.ofWord?_eq_some_iff {w : String} {k : Principal.Kind} :
    Principal.Kind.ofWord? w = some k ↔ w = k.word := by
  constructor
  · intro h
    rw [ofWord?.eq_def] at h
    split at h
    · exact Option.some.inj h ▸ rfl
    · exact Option.some.inj h ▸ rfl
    · exact Option.some.inj h ▸ rfl
    · cases h
  · intro h
    rw [h, ofWord?_word]

theorem Entity.Kind.ofWord?_eq_some_iff {w : String} {k : Entity.Kind} :
    Entity.Kind.ofWord? w = some k ↔ w = k.word := by
  constructor
  · intro h
    rw [ofWord?.eq_def] at h
    split at h
    · exact Option.some.inj h ▸ rfl
    · exact Option.some.inj h ▸ rfl
    · cases h
  · intro h
    rw [h, ofWord?_word]

/-! ## Decoding values -/

/-- The decoder accepts for each value what is written for it, and nothing else. -/
def Follows {α : Type} (decode : Dialect → Data → Option α) (Written : Data → α → Prop) : Prop :=
  ∀ {data a}, data.Distinct → (decode .json data = some a ↔ Written data a)

namespace Principal

theorem decode_eq_some_iff {d : Dialect} {data : Data} {p : Principal} :
    Principal.decode d data = some p ↔
      ∃ name kind, d.slots fieldNames data = some [name, kind] ∧
        required Data.text? name = some p.name ∧
        required (fun k => d.kindWord? k >>= Kind.ofWord?) kind = some p.kind := by
  constructor
  · intro h
    obtain ⟨slots, hslots, h⟩ := Option.bind_eq_some_iff.1 h
    split at h
    · obtain ⟨name, hname, h⟩ := Option.bind_eq_some_iff.1 h
      obtain ⟨kind, hkind, h⟩ := Option.bind_eq_some_iff.1 h
      rw [← Option.some.inj h]
      exact ⟨_, _, hslots, hname, hkind⟩
    · cases h
  · intro h
    obtain ⟨name, kind, hslots, hname, hkind⟩ := h
    rw [fieldNames] at hslots
    rw [Principal.decode, hslots]
    show (required Data.text? name).bind _ = _
    rw [hname]
    show (required _ kind).bind _ = _
    rw [hkind]
    rfl

theorem follows : Follows Principal.decode Written := by
  intro data p h
  rw [decode_eq_some_iff]
  constructor
  · intro hslots
    obtain ⟨name, kind, hslots, hname, hkind⟩ := hslots
    obtain ⟨word, rfl, hword⟩ := (kind_iff Kind.ofWord?_eq_some_iff).1 hkind
    rw [(required_iff exact_text?).1 hname] at hslots
    exact ⟨word, (slots_json_iff h).1 hslots, hword⟩
  · intro hwritten
    obtain ⟨word, hgives, hword⟩ := hwritten
    exact ⟨_, _, (slots_json_iff h).2 hgives, rfl,
      (kind_iff Kind.ofWord?_eq_some_iff).2 ⟨word, rfl, hword⟩⟩

end Principal

namespace Rule

theorem decode_eq_some_iff {d : Dialect} {data : Data} {r : Rule} :
    Rule.decode d data = some r ↔
      ∃ key value group, d.slots fieldNames data = some [key, value, group] ∧
        required Data.text? key = some r.key ∧ required Data.text? value = some r.value ∧
        required Data.text? group = some r.group := by
  constructor
  · intro h
    obtain ⟨slots, hslots, h⟩ := Option.bind_eq_some_iff.1 h
    split at h
    · obtain ⟨key, hkey, h⟩ := Option.bind_eq_some_iff.1 h
      obtain ⟨value, hvalue, h⟩ := Option.bind_eq_some_iff.1 h
      obtain ⟨group, hgroup, h⟩ := Option.bind_eq_some_iff.1 h
      rw [← Option.some.inj h]
      exact ⟨_, _, _, hslots, hkey, hvalue, hgroup⟩
    · cases h
  · intro h
    obtain ⟨key, value, group, hslots, hkey, hvalue, hgroup⟩ := h
    rw [fieldNames] at hslots
    rw [Rule.decode, hslots]
    show (required Data.text? key).bind _ = _
    rw [hkey]
    show (required Data.text? value).bind _ = _
    rw [hvalue]
    show (required Data.text? group).bind _ = _
    rw [hgroup]
    rfl

theorem follows : Follows Rule.decode Written := by
  intro data r h
  rw [decode_eq_some_iff]
  constructor
  · intro hslots
    obtain ⟨key, value, group, hslots, hkey, hvalue, hgroup⟩ := hslots
    rw [(required_iff exact_text?).1 hkey, (required_iff exact_text?).1 hvalue,
      (required_iff exact_text?).1 hgroup] at hslots
    exact (slots_json_iff h).1 hslots
  · intro hwritten
    exact ⟨_, _, _, (slots_json_iff h).2 hwritten, rfl, rfl, rfl⟩

end Rule

namespace Entity

theorem decode_of_slots {d : Dialect} {data : Data}
    {id kind principal idp attributes : Option Data}
    (h : d.slots fieldNames data = some [id, kind, principal, idp, attributes]) :
    Entity.decode d data = (required Data.text? id).bind fun id =>
      (required (fun k => d.kindWord? k >>= Kind.ofWord?) kind).bind fun kind =>
      (required (Principal.decode d) principal).bind fun principal =>
      (defaulted none (nullable Data.text?) idp).bind fun idp? =>
      (defaulted Table.empty (table Data.text?) attributes).bind fun attributes =>
      some ⟨id, kind, principal, idp?, attributes⟩ := by
  rw [fieldNames] at h
  rw [Entity.decode, h]
  rfl

theorem decode_eq_some_iff {d : Dialect} {data : Data} {e : Entity} :
    Entity.decode d data = some e ↔
      ∃ id kind principal idp attributes,
        d.slots fieldNames data = some [id, kind, principal, idp, attributes] ∧
        required Data.text? id = some e.id ∧
        required (fun k => d.kindWord? k >>= Kind.ofWord?) kind = some e.kind ∧
        required (Principal.decode d) principal = some e.principal ∧
        defaulted none (nullable Data.text?) idp = some e.idp? ∧
        defaulted Table.empty (table Data.text?) attributes = some e.attributes := by
  constructor
  · intro h
    obtain ⟨slots, hslots, h⟩ := Option.bind_eq_some_iff.1 h
    split at h
    · obtain ⟨id, hid, h⟩ := Option.bind_eq_some_iff.1 h
      obtain ⟨kind, hkind, h⟩ := Option.bind_eq_some_iff.1 h
      obtain ⟨principal, hprincipal, h⟩ := Option.bind_eq_some_iff.1 h
      obtain ⟨idp?, hidp, h⟩ := Option.bind_eq_some_iff.1 h
      obtain ⟨attributes, hattributes, h⟩ := Option.bind_eq_some_iff.1 h
      rw [← Option.some.inj h]
      exact ⟨_, _, _, _, _, hslots, hid, hkind, hprincipal, hidp, hattributes⟩
    · cases h
  · intro h
    obtain ⟨id, kind, principal, idp, attributes, hslots, hid, hkind, hprincipal, hidp,
      hattributes⟩ := h
    rw [decode_of_slots hslots, hid, Option.bind_some, hkind, Option.bind_some, hprincipal,
      Option.bind_some, hidp, Option.bind_some, hattributes, Option.bind_some]

theorem follows : Follows Entity.decode Written := by
  intro data e h
  rw [decode_eq_some_iff]
  constructor
  · intro hslots
    obtain ⟨id, kind, principal, idp, attributes, hslots, hid, hkind, hprincipal, hidp,
      hattributes⟩ := hslots
    obtain ⟨word, rfl, hword⟩ := (kind_iff Kind.ofWord?_eq_some_iff).1 hkind
    obtain ⟨p, rfl, hp⟩ := Option.bind_eq_some_iff.1 hprincipal
    rw [(required_iff exact_text?).1 hid] at hslots
    have hgives := (slots_json_iff h).1 hslots
    -- What stands in a field of distinct data is distinct, so the inner decoders follow too.
    refine ⟨word, p, idp, attributes, hgives, hword, ?_, nullable_iff.1 hidp, ?_⟩
    · exact (Principal.follows (hgives.distinct h (by simp))).1 hp
    · exact (tabulates_iff exact_text? fun d hd => hgives.distinct h (by simp [hd])).1 hattributes
  · intro hwritten
    obtain ⟨word, p, idp, attributes, hgives, hword, hp, hidp, hattributes⟩ := hwritten
    refine ⟨_, _, _, _, _, (slots_json_iff h).2 hgives, rfl, ?_, ?_, nullable_iff.2 hidp, ?_⟩
    · exact (kind_iff Kind.ofWord?_eq_some_iff).2 ⟨word, rfl, hword⟩
    · exact (Principal.follows (hgives.distinct h (by simp))).2 hp
    · exact (tabulates_iff exact_text? fun d hd => hgives.distinct h (by simp [hd])).2 hattributes

end Entity

namespace Configuration

theorem follows : Follows Configuration.decode Written := by
  intro data c h
  constructor
  · intro hsome
    obtain ⟨slots, hslots, hrest⟩ := Option.bind_eq_some_iff.1 hsome
    split at hrest
    · next mapping =>
      rw [decode_of_slots hslots] at hsome
      obtain ⟨t, ht, rfl⟩ := Option.map_eq_some_iff.1 hsome
      have hgives := (slots_json_iff h).1 hslots
      refine ⟨mapping, hgives, ?_⟩
      exact (tabulates_iff exact_texts? fun d hd => hgives.distinct h (by simp [hd])).1 ht
    · cases hrest
  · intro hwritten
    obtain ⟨mapping, hgives, ht⟩ := hwritten
    rw [decode_of_slots ((slots_json_iff h).2 hgives),
      (tabulates_iff exact_texts? fun d hd => hgives.distinct h (by simp [hd])).2 ht]
    rfl

end Configuration

/-! ## Different forms of the same fields -/

/-- The decoder reads nothing but the named fields. -/
def ReadsFields {α : Type} (decode : Dialect → Data → Option α) (names : List String) : Prop :=
  ∀ {data data' slots}, data.Distinct → data'.Distinct → Gives names data slots →
    Gives names data' slots → decode .json data = decode .json data'

theorem ReadsFields.of_slots {α : Type} {decode : Dialect → Data → Option α} {names : List String}
    {f : List (Option Data) → Option α}
    (hf : ∀ data, decode .json data = (Dialect.json.slots names data).bind f) :
    ReadsFields decode names := by
  intro data data' slots h h' hgives hgives'
  rw [hf, hf, (slots_json_iff h).2 hgives, (slots_json_iff h').2 hgives']

theorem Principal.readsFields : ReadsFields Principal.decode Principal.fieldNames :=
  ReadsFields.of_slots fun _ => rfl

theorem Rule.readsFields : ReadsFields Rule.decode Rule.fieldNames :=
  ReadsFields.of_slots fun _ => rfl

/-- The same principal, as far as its fields go. -/
inductive Grammar.SamePrincipal : Option Data → Option Data → Prop
  | refl (slot : Option Data) : SamePrincipal slot slot
  | given {data data' : Data} {slots : List (Option Data)} :
      Gives Principal.fieldNames data slots → Gives Principal.fieldNames data' slots →
      SamePrincipal (some data) (some data')

/-- To leave the IDP out is to give nothing for it. -/
theorem Grammar.nullable_getD {α : Type} (decode : Data → Option α) (slot : Option Data) :
    defaulted none (nullable decode) slot = nullable decode (slot.getD .null) := by
  cases slot <;> rfl

/-- To leave a table out is to give an empty one. -/
theorem Grammar.table_getD {α : Type} (decode : Data → Option α) (slot : Option Data) :
    defaulted Table.empty (table decode) slot = table decode (slot.getD (.record [])) := by
  cases slot <;> rfl

theorem Entity.decode_alike {data data' : Data} (h : data.Distinct) (h' : data'.Distinct)
    {id kind principal principal' idp idp' attributes attributes' : Option Data}
    (hgives : Gives fieldNames data [id, kind, principal, idp, attributes])
    (hgives' : Gives fieldNames data' [id, kind, principal', idp', attributes'])
    (hprincipal : SamePrincipal principal principal') (hidp : idp.getD .null = idp'.getD .null)
    (hattributes : attributes.getD (.record []) = attributes'.getD (.record [])) :
    Entity.decode .json data = Entity.decode .json data' := by
  have hsame : required (Principal.decode .json) principal =
      required (Principal.decode .json) principal' := by
    cases hprincipal with
    | refl => rfl
    | @given p p' slots hp hp' =>
      have hdistinct : p.Distinct := hgives.distinct h (by simp)
      have hdistinct' : p'.Distinct := hgives'.distinct h' (by simp)
      exact Principal.readsFields hdistinct hdistinct' hp hp'
  rw [decode_of_slots ((slots_json_iff h).2 hgives),
    decode_of_slots ((slots_json_iff h').2 hgives'), hsame, nullable_getD, nullable_getD, hidp,
    table_getD, table_getD, hattributes]

theorem Configuration.decode_alike {data data' : Data} (h : data.Distinct) (h' : data'.Distinct)
    {mapping mapping' : Option Data} (hgives : Gives fieldNames data [mapping])
    (hgives' : Gives fieldNames data' [mapping'])
    (hmapping : mapping.getD (.record []) = mapping'.getD (.record [])) :
    Configuration.decode .json data = Configuration.decode .json data' := by
  rw [decode_of_slots ((slots_json_iff h).2 hgives),
    decode_of_slots ((slots_json_iff h').2 hgives'), table_getD, table_getD, hmapping]

/-! ## Values as they are given out -/

def Principal.out (p : Principal) : Data :=
  .record [("name", .text p.name), ("type", .text p.kind.word)]

/-- An IDP that is not there is left out. -/
def Entity.out (e : Entity) : Data :=
  .record ([("id", .text e.id), ("kind", .text e.kind.word), ("principal", e.principal.out)] ++
    (e.idp?.toList.map fun idp => ("idp_name", .text idp)) ++
    [("attributes", .ofRows .text e.attributes.rows)])

def Rule.out (r : Rule) : Data :=
  .record [("attribute", .text r.key), ("value", .text r.value), ("group_id", .text r.group)]

def Configuration.out (c : Configuration) : Data :=
  .record [("mapping", .ofRows .ofTexts c.mapping.rows)]

/-- The same fields in some order. -/
inductive Grammar.Reordered : Data → Data → Prop
  | record {fields fields' : List (String × Data)} : fields.Perm fields' →
      Reordered (.record fields) (.record fields')

/-- A value is given out by the fields that its page stands for, in an order of its own, and it is
decoded from these fields in any order. -/
structure GivenOut {α : Type} (page : α → Toml.Page) (out : α → Data)
    (decode : Dialect → Data → Option α) : Prop where
  fields : ∀ a, Reordered (page a).data (out a)
  decoded : ∀ a data, Reordered (page a).data data → decode .json data = some a
  restored : ∀ a, decode .json (out a) = some a

theorem Dialect.slots_reordered (d : Dialect) (names : List String)
    {fields fields' : List (String × Data)} (h : (fields.map Prod.fst).Nodup)
    (hperm : fields.Perm fields') :
    d.slots names (.record fields) = d.slots names (.record fields') :=
  congrArg some (List.map_congr_left fun name _ => lookup_perm h hperm name)

theorem GivenOut.of_slots {α : Type} {page : α → Toml.Page} {out : α → Data}
    {decode : Dialect → Data → Option α} {names : List String} {f : List (Option Data) → Option α}
    (hf : ∀ data, decode .json data = (Dialect.json.slots names data).bind f)
    (hpage : ∀ a, (page a).Distinct) (hdata : ∀ a, decode .json (page a).data = some a)
    (hfields : ∀ a, Reordered (page a).data (out a)) : GivenOut page out decode := by
  have hdecoded : ∀ a data, Reordered (page a).data data → decode .json data = some a := by
    intro a data h
    rw [← hdata a, hf, hf]
    generalize hpagedata : (page a).data = written at h
    cases h with
    | @record fields fields' hperm =>
      have hnames : (fields.map Prod.fst).Nodup := by
        rw [← Data.record.inj hpagedata, List.map_append, Toml.simpleFields, List.map_map,
          List.map_map]
        exact (hpage a).names
      rw [Dialect.slots_reordered _ _ hnames hperm]
  exact ⟨hfields, hdecoded, fun a => hdecoded a _ (hfields a)⟩

theorem Principal.givenOut : GivenOut Principal.page Principal.out Principal.decode :=
  .of_slots (fun _ => rfl) Principal.distinct_page (Principal.decode_data .json)
    fun _ => .record (.refl _)

theorem Rule.givenOut : GivenOut Rule.page Rule.out Rule.decode :=
  .of_slots (fun _ => rfl) Rule.distinct_page (Rule.decode_data .json) fun _ => .record (.refl _)

theorem Configuration.givenOut :
    GivenOut Configuration.page Configuration.out Configuration.decode := by
  refine .of_slots (fun _ => rfl) Configuration.distinct_page (Configuration.decode_data .json)
    fun c => ?_
  show Reordered (.record [("mapping", .record _)]) (.record [("mapping", _)])
  rw [record_simpleFields]
  exact .record (.refl _)

theorem Entity.givenOut : GivenOut Entity.page Entity.out Entity.decode := by
  refine .of_slots (fun _ => rfl) Entity.distinct_page (Entity.decode_data .json) fun e => ?_
  obtain ⟨id, kind, principal, idp?, attributes⟩ := e
  have hrows := record_simpleFields Toml.Simple.text attributes.rows
  cases idp? with
  | none =>
    show Reordered (.record [_, _, _, ("attributes", .record _)]) _
    rw [hrows]
    exact .record (.refl _)
  | some idp =>
    show Reordered (.record [_, _, _, _, ("attributes", .record _)]) _
    rw [hrows]
    -- A page has its values before its tables, and the principal is a table.
    exact .record (((List.Perm.swap _ _ _).cons _).cons _)

/-! ## What decoding comes to -/

structure JsonDecoding : Prop where
  principal : Follows Principal.decode Principal.Written
  entity : Follows Entity.decode Entity.Written
  rule : Follows Rule.decode Rule.Written
  configuration : Follows Configuration.decode Configuration.Written
  /-- By name or as a list, the same fields come to the same. -/
  principalForms : ReadsFields Principal.decode Principal.fieldNames
  ruleForms : ReadsFields Rule.decode Rule.fieldNames
  /-- This also holds of the principal inside, and what is left out counts as its default. -/
  entityForms : ∀ {data data' : Data}, data.Distinct → data'.Distinct →
    ∀ {id kind principal principal' idp idp' attributes attributes' : Option Data},
    Gives Entity.fieldNames data [id, kind, principal, idp, attributes] →
    Gives Entity.fieldNames data' [id, kind, principal', idp', attributes'] →
    SamePrincipal principal principal' → idp.getD .null = idp'.getD .null →
    attributes.getD (.record []) = attributes'.getD (.record []) →
    Entity.decode .json data = Entity.decode .json data'
  configurationForms : ∀ {data data' : Data}, data.Distinct → data'.Distinct →
    ∀ {mapping mapping' : Option Data}, Gives Configuration.fieldNames data [mapping] →
    Gives Configuration.fieldNames data' [mapping'] →
    mapping.getD (.record []) = mapping'.getD (.record []) →
    Configuration.decode .json data = Configuration.decode .json data'
  /-- What is given out comes to the value that it was given out for. -/
  principalRestored : GivenOut Principal.page Principal.out Principal.decode
  entityRestored : GivenOut Entity.page Entity.out Entity.decode
  ruleRestored : GivenOut Rule.page Rule.out Rule.decode
  configurationRestored : GivenOut Configuration.page Configuration.out Configuration.decode

theorem decoding_follows_grammar : JsonDecoding where
  principal := Principal.follows
  entity := Entity.follows
  rule := Rule.follows
  configuration := Configuration.follows
  principalForms := Principal.readsFields
  ruleForms := Rule.readsFields
  entityForms h h' := Entity.decode_alike h h'
  configurationForms h h' := Configuration.decode_alike h h'
  principalRestored := Principal.givenOut
  entityRestored := Entity.givenOut
  ruleRestored := Rule.givenOut
  configurationRestored := Configuration.givenOut

/-- Nothing may be given for the IDP, but not for the attributes. -/
example :
    Entity.decode .json (.list [.text "a", .text "user", .list [.text "a", .text "user"], .null]) =
        some (Entity.user "a") ∧
      Entity.decode .json (.list [.text "a", .text "user", .list [.text "a", .text "user"], .null,
        .null]) = none :=
  ⟨rfl, rfl⟩

end Enrolment
