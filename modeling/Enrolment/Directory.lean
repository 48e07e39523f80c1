import Enrolment.Entity

/-!
The directory: entities under their ids, and the ids in the order in which they arrived.

Adding an entity under a known id replaces the old one in its place, also when the new one belongs
to another identity provider.  An entity that is removed and added again goes to the end.
-/

namespace Enrolment

structure Directory where
  byId : Table Entity
  /-- The ids in the order of their arrival. -/
  order : List String
  distinct : order.Nodup
  mem_order : ∀ id, id ∈ order ↔ byId.contains id = true
  /-- An entity is kept under its own id. -/
  keyed : ∀ id e, byId.get? id = some e → e.id = id

namespace Directory

def empty : Directory where
  byId := Table.empty
  order := []
  distinct := List.Pairwise.nil
  mem_order _ := ⟨fun h => absurd h List.not_mem_nil, fun h => absurd h Bool.false_ne_true⟩
  keyed _ _ h := absurd h (Option.some_ne_none _).symm

instance : Inhabited Directory := ⟨empty⟩

/-- Adds an entity, or replaces the one of its id. -/
def add (d : Directory) (e : Entity) : Directory where
  byId := d.byId.insert e.id e
  order := if d.byId.contains e.id then d.order else d.order ++ [e.id]
  distinct := by
    split
    · exact d.distinct
    · next h =>
      refine List.nodup_append.2 ⟨d.distinct, List.pairwise_singleton .., fun a ha b hb hab => ?_⟩
      rw [List.mem_singleton.1 hb] at hab
      exact h ((d.mem_order e.id).1 (hab ▸ ha))
  mem_order := by
    intro id
    have hinsert : (d.byId.insert e.id e).contains id = true ↔
        id = e.id ∨ d.byId.contains id = true := by
      rw [Table.contains, Table.get?_insert]
      by_cases hid : id = e.id
      · simp [hid]
      · simp [hid, Table.contains]
    rw [hinsert, ← d.mem_order id]
    split
    · next h =>
      rw [← d.mem_order] at h
      exact ⟨.inr, fun hor => hor.elim (fun hid => hid ▸ h) fun hmem => hmem⟩
    · rw [List.mem_append, List.mem_singleton, or_comm]
  keyed := by
    intro id x hx
    rw [Table.get?_insert] at hx
    split at hx
    · next hid => rw [← Option.some.inj hx, hid]
    · exact d.keyed id x hx

def ofList (es : List Entity) : Directory := es.foldl add empty

/-- The directory without the entity of this id. -/
def without (d : Directory) (id : String) : Directory where
  byId := d.byId.erase id
  order := d.order.filter (· != id)
  distinct := d.distinct.filter _
  mem_order := by
    intro other
    rw [List.mem_filter, d.mem_order, Table.contains, Table.contains, Table.get?_erase]
    by_cases h : other = id
    · simp [h]
    · simp [h]
  keyed := by
    intro other x hx
    rw [Table.get?_erase] at hx
    split at hx
    · exact absurd hx (Option.some_ne_none _).symm
    · exact d.keyed other x hx

/-- Takes the entity of this id out of the directory. -/
def remove (d : Directory) (id : String) : Option Entity × Directory :=
  match d.byId.get? id with
  | some e => (some e, d.without id)
  | none => (none, d)

def find? (d : Directory) (id : String) : Option Entity := d.byId.get? id

def size (d : Directory) : Nat := d.byId.size

/-- The entities that were synchronized from an identity provider, in the order of arrival. -/
def ofIdp (d : Directory) (idp : String) : List Entity :=
  (d.order.filterMap d.find?).filter (·.idp? == some idp)

/-! ## What the operations do to look-ups -/

theorem find?_add (d : Directory) (e : Entity) (id : String) :
    (d.add e).find? id = if id = e.id then some e else d.find? id :=
  Table.get?_insert d.byId e.id e id

theorem find?_without (d : Directory) (removed id : String) :
    (d.without removed).find? id = if id = removed then none else d.find? id :=
  Table.get?_erase d.byId removed id

/-- Removing an id that no entity has changes nothing. -/
theorem remove_of_find?_eq_none {d : Directory} {id : String} (h : d.find? id = none) :
    d.remove id = (none, d) := by
  have hget : d.byId.get? id = none := h
  rw [remove, hget]

theorem remove_of_find?_eq_some {d : Directory} {id : String} {e : Entity}
    (h : d.find? id = some e) : d.remove id = (some e, d.without id) := by
  have hget : d.byId.get? id = some e := h
  rw [remove, hget]

/-- What is removed is what was found. -/
theorem remove_fst (d : Directory) (id : String) : (d.remove id).1 = d.find? id := by
  cases h : d.find? id with
  | none => rw [remove_of_find?_eq_none h]
  | some e => rw [remove_of_find?_eq_some h]

theorem find?_remove (d : Directory) (removed id : String) :
    (d.remove removed).2.find? id = if id = removed then none else d.find? id := by
  cases h : d.find? removed with
  | none =>
    rw [remove_of_find?_eq_none h]
    split
    · next hid => rw [hid, h]
    · rfl
  | some e => rw [remove_of_find?_eq_some h, find?_without]

end Directory

end Enrolment
