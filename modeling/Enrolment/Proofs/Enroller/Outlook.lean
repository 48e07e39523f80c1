import Enrolment.Proofs.Enroller.Effects

/-!
What an enroller sees of the world: the store, and the outside providers in its own registry.

Worlds that agree on these are told apart by no call (`perform_congr`), whatever other providers
there are.
-/

namespace Enrolment

/-- Worlds that agree on the store and on the outside providers of a registry. -/
structure World.Alike (r : Registry) (w w' : World) : Prop where
  store : w.store = w'.store
  source : ∀ {idp k}, (idp, .outside k) ∈ r.providers → w.sources k = w'.sources k

namespace World

variable {r : Registry} {w w' : World}

theorem Alike.refl (r : Registry) (w : World) : Alike r w w := ⟨rfl, fun _ => rfl⟩

theorem Alike.symm (h : Alike r w w') : Alike r w' w :=
  ⟨h.store.symm, fun hrow => (h.source hrow).symm⟩

theorem Alike.trans {w'' : World} (h : Alike r w w') (h' : Alike r w' w'') : Alike r w w'' :=
  ⟨h.store.trans h'.store, fun hrow => (h.source hrow).trans (h'.source hrow)⟩

theorem Alike.withStore (h : Alike r w w') (s : Store) :
    Alike r { w with store := s } { w' with store := s } := ⟨rfl, h.source⟩

/-- The same provider may change in both. -/
theorem Alike.setSource (h : Alike r w w') (k : Nat) (source : Source) :
    Alike r (w.setSource k source) (w'.setSource k source) where
  store := h.store
  source {idp j} hrow := by
    show (if j = k then source else w.sources j) = if j = k then source else w'.sources j
    rw [h.source hrow]

/-- A provider that is not in the registry may change in one of them. -/
theorem Alike.setSource_of_new (r : Registry) (w : World) {k : Nat} (source : Source)
    (hnew : ∀ {idp j}, (idp, .outside j) ∈ r.providers → j ≠ k) :
    Alike r w (w.setSource k source) where
  store := rfl
  source hrow := (if_neg (hnew hrow)).symm

theorem Alike.groupsOf (h : Alike r w w') {idp : String} {p : Provider}
    (hp : (idp, p) ∈ r.providers) (e : Entity) : p.groupsOf w e = p.groupsOf w' e := by
  cases p with
  | allowList l => rfl
  | ruleBook b => rfl
  | outside k => rw [Provider.groupsOf, Provider.groupsOf, h.source hp]

theorem Alike.membersOf (h : Alike r w w') {idp : String} {p : Provider}
    (hp : (idp, p) ∈ r.providers) (group : Entity) :
    p.membersOf w group = p.membersOf w' group := by
  cases p with
  | allowList l => rfl
  | ruleBook b => rw [Provider.membersOf, Provider.membersOf, h.store]
  | outside k => rw [Provider.membersOf, Provider.membersOf, h.source hp]

theorem Alike.ask (h : Alike r w w') {row : String × Provider} (hrow : row ∈ r.providers)
    (group : Entity) : Cursor.ask w group row = Cursor.ask w' group row := by
  have hmembers : row.2.membersOf w group = row.2.membersOf w' group := h.membersOf hrow group
  rw [Cursor.ask, Cursor.ask, askMembers, askMembers, hmembers]

theorem Alike.mapM_ask (h : Alike r w w') {rows : List (String × Provider)}
    (hrows : rows ⊆ r.providers) (group : Entity) :
    rows.mapM (Cursor.ask w group) = rows.mapM (Cursor.ask w' group) := by
  induction rows with
  | nil => rfl
  | cons row rows ih =>
    obtain ⟨hrow, hrest⟩ := List.cons_subset.1 hrows
    rw [List.mapM_cons, List.mapM_cons, h.ask hrow, ih hrest]

theorem Alike.advance (h : Alike r w w') {rows : List (String × Provider)}
    (hrows : rows ⊆ r.providers) (group : Entity) :
    Cursor.advance w group rows = Cursor.advance w' group rows ∧
      (Cursor.advance w group rows).value.2.waiting ⊆ r.providers := by
  induction rows with
  | nil => exact ⟨rfl, hrows⟩
  | cons row rows ih =>
    obtain ⟨hrow, hrest⟩ := List.cons_subset.1 hrows
    rw [Cursor.advance, Cursor.advance, h.ask hrow, (ih hrest).1, Traced.value_bind]
    refine ⟨rfl, ?_⟩
    split
    · exact (ih hrest).1 ▸ (ih hrest).2
    · exact hrest

/-- A cursor over providers of the registry tells alike worlds apart no better than a call, and
goes on over providers of the registry. -/
theorem Alike.next (h : Alike r w w') {cursor : Cursor} (hwaiting : cursor.waiting ⊆ r.providers) :
    cursor.next w = cursor.next w' ∧ (cursor.next w).value.2.waiting ⊆ r.providers := by
  rw [Cursor.next, Cursor.next]
  cases cursor.pending with
  | nil => exact h.advance hwaiting cursor.group
  | cons item items => exact ⟨rfl, hwaiting⟩

end World

namespace Enroller

/-- No call tells alike worlds apart. -/
theorem perform_congr {n : Enroller} {w w' : World} (h : World.Alike n.registry w w')
    (c : Cache) (call : Call) : n.perform w c call = n.perform w' c call := by
  cases call with
  | groups idp e =>
    rw [perform, perform, groups_congr h.store fun p hp => h.groupsOf hp e]
  | isMember idp group e =>
    rw [perform, perform, isMember_congr fun p hp => h.groupsOf hp e]
  | members group =>
    have hrest : (n.members group).rest w = (n.members group).rest w' := by
      rw [Cursor.rest, Cursor.rest, members, h.mapM_ask (List.Subset.refl _)]
    rw [perform, perform, hrest]
  | idpsGranting p => rw [perform, perform, h.store]

end Enroller
end Enrolment
