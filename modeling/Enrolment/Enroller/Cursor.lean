import Enrolment.Enroller

/-!
Cursors over the members of a group across all registered providers.

The providers are asked in the order of registration, each only when the members of those before it
are used up.  A provider that fails altogether contributes its fault as the one item, and faults
among the members keep their place; nothing is dropped, merged or moved.
-/

namespace Enrolment

/-- A member, or a fault in the place of one or more. -/
abbrev Item := Except ProviderFault Entity

structure Cursor where
  group : Entity
  /-- What the provider asked last has still to give. -/
  pending : List Item
  /-- The providers that have not been asked yet. -/
  waiting : List (String × Provider)

/-- Opening a cursor asks no provider. -/
def Enroller.members (n : Enroller) (group : Entity) : Cursor := ⟨group, [], n.registry.providers⟩

namespace Cursor

/-- All that one provider contributes. -/
def ask (w : World) (group : Entity) (row : String × Provider) : Traced (List Item) := do
  Traced.emit (.note (.enumerating row.1 group.id))
  match ← w.askMembers row.1 row.2 group with
  | .ok items => return items
  | .error fault => return [.error fault]

/-- Asks providers until one has an item. -/
def advance (w : World) (group : Entity) : List (String × Provider) → Traced (Option Item × Cursor)
  | [] => return (none, ⟨group, [], []⟩)
  | row :: rows => do
    match ← ask w group row with
    | [] => advance w group rows
    | item :: items => return (some item, ⟨group, items, rows⟩)

/-- The next item; a cursor at its end stays there. -/
def next (w : World) (c : Cursor) : Traced (Option Item × Cursor) :=
  match c.pending with
  | item :: items => return (some item, { c with pending := items })
  | [] => advance w c.group c.waiting

/-- All items that are left. -/
def rest (w : World) (c : Cursor) : Traced (List Item) := do
  let more ← c.waiting.mapM (ask w c.group)
  return c.pending ++ more.flatten

end Cursor

end Enrolment
