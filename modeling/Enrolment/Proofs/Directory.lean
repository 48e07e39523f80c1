import Enrolment.Directory
import Enrolment.Proofs.Table
import Mathlib.Data.List.Induction
import Mathlib.Data.Nat.Find

/-!
The directory against its history of additions and removals.

An id arrives with its first addition after its last removal, and what is found under it is its
last addition.  The theorem this file is for is `changes_recorded`: after any changes the ids stand
in the order of their arrivals, each once, and every look-up and every list of an identity
provider's entities can be read off the changes.
-/

namespace Enrolment

/-- A change of a directory. -/
inductive Change where
  | add (e : Entity)
  | remove (id : String)

/-- The id that a change is about. -/
def Change.id : Change → String
  | .add e => e.id
  | .remove id => id

namespace Directory

/-- Makes a change; a removal gives what it takes out. -/
def change (d : Directory) : Change → Option Entity × Directory
  | .add e => (none, d.add e)
  | .remove id => d.remove id

def changeAll (d : Directory) (changes : List Change) : Directory :=
  changes.foldl (fun d c => (d.change c).2) d

theorem changeAll_concat (d : Directory) (changes : List Change) (c : Change) :
    d.changeAll (changes ++ [c]) = ((d.changeAll changes).change c).2 :=
  List.foldl_concat ..

/-! ## Histories -/

def AddedAt (changes : List Change) (id : String) (i : Nat) : Prop :=
  ∃ e, changes[i]? = some (.add e) ∧ e.id = id

def RemovedAt (changes : List Change) (id : String) (i : Nat) : Prop :=
  changes[i]? = some (.remove id)

/-- The last addition of an id, if no removal of the id comes after it. -/
def LastAdded (changes : List Change) (id : String) (e : Entity) : Prop :=
  ∃ i, changes[i]? = some (.add e) ∧ e.id = id ∧ (∀ j > i, ¬ AddedAt changes id j) ∧
    ∀ j > i, ¬ RemovedAt changes id j

/-- The first addition of an id after its last removal. -/
def Arrival (changes : List Change) (id : String) (i : Nat) : Prop :=
  AddedAt changes id i ∧ (∀ j > i, ¬ RemovedAt changes id j) ∧
    ∀ j < i, AddedAt changes id j → ∃ k, j < k ∧ k < i ∧ RemovedAt changes id k

def Earlier (changes : List Change) (a b : String) : Prop :=
  ∃ i j, Arrival changes a i ∧ Arrival changes b j ∧ i < j

variable {changes : List Change} {c : Change} {id : String} {e : Entity} {i : Nat}

theorem getElem?_changes_concat {x : Change} :
    (changes ++ [c])[i]? = some x ↔ changes[i]? = some x ∨ (i = changes.length ∧ x = c) := by
  grind

theorem addedAt_concat :
    AddedAt (changes ++ [c]) id i ↔
      AddedAt changes id i ∨ (i = changes.length ∧ ∃ e, c = .add e ∧ e.id = id) := by
  simp only [AddedAt, getElem?_changes_concat]
  grind

theorem removedAt_concat :
    RemovedAt (changes ++ [c]) id i ↔
      RemovedAt changes id i ∨ (i = changes.length ∧ c = .remove id) := by
  rw [RemovedAt, getElem?_changes_concat, RemovedAt, eq_comm (a := c)]

theorem AddedAt.lt_length (h : AddedAt changes id i) : i < changes.length := by
  obtain ⟨e, he, _⟩ := h
  obtain ⟨hi, _⟩ := List.getElem?_eq_some_iff.1 he
  exact hi

theorem RemovedAt.lt_length (h : RemovedAt changes id i) : i < changes.length := by
  obtain ⟨hi, _⟩ := List.getElem?_eq_some_iff.1 h
  exact hi

/-! ## One more change

A change about another id leaves no trace in the history of an id. -/

theorem addedAt_concat_of_ne (h : c.id ≠ id) :
    AddedAt (changes ++ [c]) id i ↔ AddedAt changes id i := by
  rw [addedAt_concat, or_iff_left]
  rintro ⟨_, e, rfl, he⟩
  exact h he

theorem removedAt_concat_of_ne (h : c.id ≠ id) :
    RemovedAt (changes ++ [c]) id i ↔ RemovedAt changes id i := by
  rw [removedAt_concat, or_iff_left]
  rintro ⟨_, rfl⟩
  exact h rfl

theorem lastAdded_concat_of_ne (h : c.id ≠ id) :
    LastAdded (changes ++ [c]) id e ↔ LastAdded changes id e := by
  simp only [LastAdded, addedAt_concat_of_ne h, removedAt_concat_of_ne h]
  refine exists_congr fun i => ?_
  rw [getElem?_changes_concat]
  constructor
  · rintro ⟨hi | ⟨_, hc⟩, he, hlast⟩
    · exact ⟨hi, he, hlast⟩
    · exact absurd (hc ▸ he : c.id = id) h
  · rintro ⟨hi, he, hlast⟩
    exact ⟨.inl hi, he, hlast⟩

theorem lastAdded_concat_add (x : Entity) :
    LastAdded (changes ++ [.add x]) x.id e ↔ e = x := by
  constructor
  · rintro ⟨i, hi, he, hlast, _⟩
    rcases getElem?_changes_concat.1 hi with hold | ⟨_, hx⟩
    · -- An older addition is not the last one.
      have hlt : i < changes.length := AddedAt.lt_length ⟨e, hold, he⟩
      exact absurd (addedAt_concat.2 (.inr ⟨rfl, x, rfl, rfl⟩)) (hlast changes.length hlt)
    · exact Change.add.inj hx
  · rintro rfl
    refine ⟨changes.length, getElem?_changes_concat.2 (.inr ⟨rfl, rfl⟩), rfl, ?_, ?_⟩
    · intro j hj h
      have hlt := h.lt_length
      rw [List.length_append, List.length_singleton] at hlt
      omega
    · intro j hj h
      have hlt := h.lt_length
      rw [List.length_append, List.length_singleton] at hlt
      omega

theorem not_lastAdded_concat_remove : ¬ LastAdded (changes ++ [.remove id]) id e := by
  rintro ⟨i, hi, he, _, hkept⟩
  rcases getElem?_changes_concat.1 hi with hold | ⟨_, hx⟩
  · have hlt : i < changes.length := AddedAt.lt_length ⟨e, hold, he⟩
    exact hkept changes.length hlt (removedAt_concat.2 (.inr ⟨rfl, rfl⟩))
  · cases hx

theorem arrival_concat_of_ne (h : c.id ≠ id) :
    Arrival (changes ++ [c]) id i ↔ Arrival changes id i := by
  simp only [Arrival, addedAt_concat_of_ne h, removedAt_concat_of_ne h]

/-- An id whose addition was not followed by a removal has arrived. -/
theorem exists_arrival (hadd : AddedAt changes id i) (hkept : ∀ j > i, ¬ RemovedAt changes id j) :
    ∃ k, Arrival changes id k := by
  classical
  have hex : ∃ k, AddedAt changes id k ∧ ∀ j > k, ¬ RemovedAt changes id j := ⟨i, hadd, hkept⟩
  obtain ⟨hfirst, hnone⟩ := Nat.find_spec hex
  refine ⟨Nat.find hex, hfirst, hnone, fun j hj hold => ?_⟩
  -- An addition before the first that was kept was not kept.
  have hmin := Nat.find_min hex hj
  simp only [not_and, not_forall, not_not] at hmin
  obtain ⟨k, hk, hremoved⟩ := hmin hold
  refine ⟨k, hk, ?_, hremoved⟩
  rcases Nat.lt_trichotomy k (Nat.find hex) with hlt | heq | hgt
  · exact hlt
  · obtain ⟨x, hx, _⟩ := hfirst
    rw [heq, RemovedAt, hx] at hremoved
    cases hremoved
  · exact absurd hremoved (hnone k hgt)

theorem Arrival.unique {j : Nat} (hi : Arrival changes id i) (hj : Arrival changes id j) :
    i = j := by
  rcases Nat.lt_trichotomy i j with hlt | heq | hgt
  · obtain ⟨k, hk, _, hremoved⟩ := hj.2.2 i hlt hi.1
    exact absurd hremoved (hi.2.1 k hk)
  · exact heq
  · obtain ⟨k, hk, _, hremoved⟩ := hi.2.2 j hgt hj.1
    exact absurd hremoved (hj.2.1 k hk)

theorem not_arrival_concat_remove : ¬ Arrival (changes ++ [.remove id]) id i := by
  rintro ⟨hadd, hkept, _⟩
  rcases addedAt_concat.1 hadd with hold | ⟨_, _, hx, _⟩
  · exact hkept changes.length hold.lt_length (removedAt_concat.2 (.inr ⟨rfl, rfl⟩))
  · cases hx

theorem removedAt_concat_add {x : Entity} :
    RemovedAt (changes ++ [.add x]) id i ↔ RemovedAt changes id i := by
  rw [removedAt_concat, or_iff_left]
  rintro ⟨_, hx⟩
  cases hx

/-- An id that is there when it is added again keeps its arrival. -/
theorem arrival_concat_add_of_arrived {k : Nat} (hk : Arrival changes e.id k) :
    Arrival (changes ++ [.add e]) e.id i ↔ i = k := by
  have hkeep : Arrival (changes ++ [.add e]) e.id k := by
    obtain ⟨hadd, hkept, hfirst⟩ := hk
    refine ⟨addedAt_concat.2 (.inl hadd), fun j hj => mt removedAt_concat_add.1 (hkept j hj), ?_⟩
    intro j hj hold
    have hlt := hadd.lt_length
    rcases addedAt_concat.1 hold with hold | ⟨hlength, _⟩
    · obtain ⟨m, hm, hmk, hremoved⟩ := hfirst j hj hold
      exact ⟨m, hm, hmk, removedAt_concat_add.2 hremoved⟩
    · omega
  exact ⟨fun hi => hi.unique hkeep, fun hi => hi ▸ hkeep⟩

/-- An id that is not there arrives when it is added. -/
theorem arrival_concat_add_of_new (hnew : ∀ k, ¬ Arrival changes e.id k) :
    Arrival (changes ++ [.add e]) e.id i ↔ i = changes.length := by
  have hnow : Arrival (changes ++ [.add e]) e.id changes.length := by
    refine ⟨addedAt_concat.2 (.inr ⟨rfl, e, rfl, rfl⟩), ?_, ?_⟩
    · intro j hj hremoved
      have hlt := (removedAt_concat_add.1 hremoved).lt_length
      omega
    · intro j hj hold
      have hold : AddedAt changes e.id j := by
        rcases addedAt_concat.1 hold with hold | ⟨hlength, _⟩
        · exact hold
        · omega
      -- Had the addition been kept, the id would be there.
      by_contra hnone
      obtain ⟨k, hk⟩ := exists_arrival hold fun m hm hremoved =>
        hnone ⟨m, hm, hremoved.lt_length, removedAt_concat_add.2 hremoved⟩
      exact hnew k hk
  exact ⟨fun hi => hi.unique hnow, fun hi => hi ▸ hnow⟩

theorem exists_lastAdded_iff : (∃ e, LastAdded changes id e) ↔ ∃ i, Arrival changes id i := by
  constructor
  · rintro ⟨e, i, hi, he, _, hkept⟩
    exact exists_arrival ⟨e, hi, he⟩ hkept
  · rintro ⟨i, hi⟩
    induction changes using List.reverseRecOn generalizing i with
    | nil => exact absurd hi.1.lt_length (Nat.not_lt_zero i)
    | append_singleton changes c ih =>
      by_cases h : c.id = id
      · subst h
        cases c with
        | add x => exact ⟨x, (lastAdded_concat_add x).2 rfl⟩
        | remove id => exact absurd hi not_arrival_concat_remove
      · obtain ⟨e, he⟩ := ih i ((arrival_concat_of_ne h).1 hi)
        exact ⟨e, (lastAdded_concat_of_ne h).2 he⟩

/-! ## What a directory is after some changes -/

theorem find?_changeAll : (empty.changeAll changes).find? id = some e ↔ LastAdded changes id e := by
  induction changes using List.reverseRecOn generalizing e with
  | nil =>
    refine iff_of_false (Option.some_ne_none e).symm ?_
    rintro ⟨i, hi, he, _⟩
    exact absurd (AddedAt.lt_length ⟨e, hi, he⟩) (Nat.not_lt_zero i)
  | append_singleton changes c ih =>
    rw [changeAll_concat]
    cases c with
    | add x =>
      rw [change, find?_add]
      split
      · next h =>
        subst h
        rw [lastAdded_concat_add, Option.some.injEq, eq_comm]
      · next h =>
        have hne : (Change.add x).id ≠ id := fun hid => h hid.symm
        rw [lastAdded_concat_of_ne hne, ih]
    | remove removed =>
      rw [change, find?_remove]
      split
      · next h =>
        subst h
        exact iff_of_false (Option.some_ne_none e).symm not_lastAdded_concat_remove
      · next h =>
        have hne : (Change.remove removed).id ≠ id := fun hid => h hid.symm
        rw [lastAdded_concat_of_ne hne, ih]

theorem mem_order_iff (d : Directory) : id ∈ d.order ↔ ∃ e, d.find? id = some e := by
  rw [d.mem_order, Table.contains, Option.isSome_iff_exists, find?]

theorem mem_order_changeAll :
    id ∈ (empty.changeAll changes).order ↔ ∃ i, Arrival changes id i := by
  rw [mem_order_iff, ← exists_lastAdded_iff]
  exact exists_congr fun e => find?_changeAll

theorem order_add (d : Directory) (e : Entity) :
    (d.add e).order = if d.byId.contains e.id then d.order else d.order ++ [e.id] := rfl

theorem order_remove (d : Directory) (id : String) :
    (d.remove id).2.order = d.order.filter (· != id) := by
  cases h : d.find? id with
  | some e => rw [remove_of_find?_eq_some h, without]
  | none =>
    rw [remove_of_find?_eq_none h]
    refine (List.filter_eq_self.2 fun other hother => bne_iff_ne.2 fun heq => ?_).symm
    obtain ⟨e, he⟩ := (mem_order_iff d).1 hother
    rw [heq, h] at he
    cases he

theorem arrival_concat_of_kept (hi : Arrival changes id i) (hc : c ≠ .remove id) :
    Arrival (changes ++ [c]) id i := by
  by_cases h : c.id = id
  · subst h
    cases c with
    | add x => exact (arrival_concat_add_of_arrived hi).2 rfl
    | remove removed => exact absurd rfl hc
  · exact (arrival_concat_of_ne h).2 hi

theorem Earlier.concat {a b : String} (h : Earlier changes a b) (ha : c ≠ .remove a)
    (hb : c ≠ .remove b) : Earlier (changes ++ [c]) a b := by
  obtain ⟨i, j, hi, hj, hij⟩ := h
  exact ⟨i, j, arrival_concat_of_kept hi ha, arrival_concat_of_kept hj hb, hij⟩

theorem order_changeAll : (empty.changeAll changes).order.Pairwise (Earlier changes) := by
  induction changes using List.reverseRecOn with
  | nil => exact List.Pairwise.nil
  | append_singleton changes c ih =>
    rw [changeAll_concat]
    cases c with
    | add x =>
      have hadd : ∀ id, Change.add x ≠ .remove id := fun id h => Change.noConfusion h
      have hold := ih.imp fun h => Earlier.concat h (hadd _) (hadd _)
      rw [change, order_add]
      split
      · exact hold
      · next hnew =>
        refine List.pairwise_append.2 ⟨hold, List.pairwise_singleton .., fun a ha b hb => ?_⟩
        -- What has arrived already comes before what arrives now.
        obtain rfl := List.mem_singleton.1 hb
        obtain ⟨i, hi⟩ := mem_order_changeAll.1 ha
        have hnone : ∀ k, ¬ Arrival changes x.id k := fun k hk =>
          hnew ((Directory.mem_order _ _).1 (mem_order_changeAll.2 ⟨k, hk⟩))
        exact ⟨i, changes.length, arrival_concat_of_kept hi (hadd _),
          (arrival_concat_add_of_new hnone).2 rfl, hi.1.lt_length⟩
    | remove removed =>
      rw [change, order_remove]
      refine (ih.filter _).imp_of_mem fun {a b} ha hb h => h.concat ?_ ?_
      · rintro ⟨⟩
        exact absurd (List.mem_filter.1 ha).2 (by simp)
      · rintro ⟨⟩
        exact absurd (List.mem_filter.1 hb).2 (by simp)

/-! ## The entities in their order -/

theorem size_eq_length_order (d : Directory) : d.size = d.order.length := by
  have hperm : d.order.Perm d.byId.keys :=
    (List.perm_ext_iff_of_nodup d.distinct d.byId.nodup_keys).2 fun id => by
      rw [d.mem_order, Table.contains_iff_mem_keys]
  rw [hperm.length_eq, Table.length_keys, size]

theorem map_id_filterMap_find? (d : Directory) {ids : List String}
    (h : ∀ id ∈ ids, ∃ e, d.find? id = some e) : (ids.filterMap d.find?).map Entity.id = ids := by
  induction ids with
  | nil => rfl
  | cons id ids ih =>
    obtain ⟨e, he⟩ := h id (List.mem_cons_self ..)
    rw [List.filterMap_cons_some he, List.map_cons, d.keyed id e he,
      ih fun other hother => h other (List.mem_cons_of_mem _ hother)]

/-- The entities of an identity provider keep the order of arrival. -/
theorem ids_ofIdp_sublist (d : Directory) (idp : String) :
    ((d.ofIdp idp).map Entity.id).Sublist d.order := by
  have hall := d.map_id_filterMap_find? fun id => (mem_order_iff d).1
  exact hall ▸ List.filter_sublist.map Entity.id

theorem mem_ofIdp {d : Directory} {idp : String} :
    e ∈ d.ofIdp idp ↔ d.find? e.id = some e ∧ e.idp? = some idp := by
  rw [ofIdp, List.mem_filter, beq_iff_eq, List.mem_filterMap]
  refine and_congr_left fun _ => ⟨?_, fun h => ⟨e.id, (mem_order_iff d).2 ⟨e, h⟩, h⟩⟩
  rintro ⟨id, _, hid⟩
  rwa [d.keyed id e hid]

/-! ## The record of the changes -/

/-- What a directory tells agrees with the changes that led to it. -/
structure Recorded (changes : List Change) (d : Directory) : Prop where
  once : d.order.Nodup
  sameIds : ∀ id, id ∈ d.order ↔ id ∈ d.byId.keys
  arrived : ∀ id, id ∈ d.order ↔ ∃ i, Arrival changes id i
  inOrder : d.order.Pairwise (Earlier changes)
  found : ∀ id e, d.find? id = some e ↔ LastAdded changes id e
  removed : ∀ id e, (d.remove id).1 = some e ↔ LastAdded changes id e
  /-- Removing an id that is not there gives nothing and changes nothing. -/
  missing : ∀ id, (∀ e, ¬ LastAdded changes id e) → d.remove id = (none, d)
  counted : d.size = d.order.length
  listed : ∀ idp e, e ∈ d.ofIdp idp ↔ LastAdded changes e.id e ∧ e.idp? = some idp
  listedOnce : ∀ idp, ((d.ofIdp idp).map Entity.id).Nodup
  listedInOrder : ∀ idp, (d.ofIdp idp).Pairwise fun x y => Earlier changes x.id y.id

theorem changes_recorded (changes : List Change) :
    Recorded changes (empty.changeAll changes) where
  once := Directory.distinct _
  sameIds id := by rw [Directory.mem_order, Table.contains_iff_mem_keys]
  arrived _ := mem_order_changeAll
  inOrder := order_changeAll
  found _ _ := find?_changeAll
  removed id e := by rw [remove_fst, find?_changeAll]
  missing id h := by
    refine remove_of_find?_eq_none (Option.eq_none_iff_forall_ne_some.2 fun e he => ?_)
    exact h e (find?_changeAll.1 he)
  counted := size_eq_length_order _
  listed idp e := by rw [mem_ofIdp, find?_changeAll]
  listedOnce idp := (ids_ofIdp_sublist _ idp).nodup (Directory.distinct _)
  listedInOrder idp := List.pairwise_map.1 (order_changeAll.sublist (ids_ofIdp_sublist _ idp))

/-- Moving to another identity provider and back keeps the place of an entity; removing it and
adding it again does not. -/
example :
    let carol := (Entity.user "carol").withIdp "ldap"
    let bob := (Entity.user "bob").withIdp "ldap"
    let moved := [.add carol, .add bob, .add (carol.withIdp "saml"), .add carol]
    ((empty.changeAll moved).ofIdp "ldap").map Entity.id = ["carol", "bob"] ∧
      ((empty.changeAll (moved ++ [.remove "carol", .add carol])).ofIdp "ldap").map Entity.id =
        ["bob", "carol"] := by
  decide

end Directory
end Enrolment
