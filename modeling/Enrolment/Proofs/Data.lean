import Enrolment.Data

/-!
Plain data in which no record has a name twice, so that every record is a finite map.
-/

namespace Enrolment

inductive Data.Distinct : Data → Prop
  | null : Distinct .null
  | flag (b : Bool) : Distinct (.flag b)
  | number (n : Number) : Distinct (.number n)
  | text (s : String) : Distinct (.text s)
  | list {items : List Data} : (∀ d ∈ items, Distinct d) → Distinct (.list items)
  | record {fields : List (String × Data)} : (fields.map Prod.fst).Nodup →
      (∀ field ∈ fields, Distinct field.2) → Distinct (.record fields)

namespace Data

theorem Distinct.names {fields : List (String × Data)} (h : (Data.record fields).Distinct) :
    (fields.map Prod.fst).Nodup := by
  cases h with
  | record hnames _ => exact hnames

theorem Distinct.fields {fields : List (String × Data)} (h : (Data.record fields).Distinct) :
    ∀ field ∈ fields, field.2.Distinct := by
  cases h with
  | record _ hfields => exact hfields

theorem Distinct.items {items : List Data} (h : (Data.list items).Distinct) :
    ∀ d ∈ items, d.Distinct := by
  cases h with
  | list hitems => exact hitems

end Data

end Enrolment
