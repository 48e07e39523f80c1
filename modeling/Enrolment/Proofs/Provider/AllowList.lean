import Enrolment.Proofs.IdSet
import Enrolment.Registry
import Mathlib.Data.List.Dedup
import Mathlib.Data.List.Induction

/-!
The allow-list against its history of grants.

Granting does two things, each in one equation: it lists the entity if its id is new
(`listed_grant`), and it adds the groups to those of the id (`groupsOf_grant`).  The members of a
group are the listed entities that have it (`membersOf_eq_filter`).  The theorem this file is for is
`grants_recorded`: after any grants the listed entities are those first given for their ids, in the
order of these first grants, and an id has the groups of all its grants.
-/

namespace Enrolment

/-! ## One grant -/

theorem map_fst_grantTo (e : Entity) (ids : List String) (xs : List (Entity × IdSet)) :
    (grantTo e ids xs).map Prod.fst =
      if e.id ∈ xs.map (·.1.id) then xs.map Prod.fst else xs.map Prod.fst ++ [e] := by
  induction xs with
  | nil => rfl
  | cons x xs ih =>
    obtain ⟨x, set⟩ := x
    unfold grantTo
    by_cases h : x.id = e.id
    · simp [h]
    · have hne : e.id ≠ x.id := fun he => h he.symm
      rw [if_neg h, List.map_cons, ih]
      by_cases hm : e.id ∈ xs.map (·.1.id)
      · have hold : e.id ∈ ((x, set) :: xs).map (·.1.id) := List.mem_cons_of_mem _ hm
        rw [if_pos hm, if_pos hold, List.map_cons]
      · have hnew : e.id ∉ ((x, set) :: xs).map (·.1.id) := by
          intro hmem
          exact (List.mem_cons.1 hmem).elim hne hm
        rw [if_neg hm, if_neg hnew, List.map_cons, List.cons_append]

/-- The groups in the first row of an id. -/
def groupsUnder (id : String) (xs : List (Entity × IdSet)) : IdSet :=
  ((xs.find? (·.1.id == id)).map Prod.snd).getD Table.empty

theorem groupsUnder_cons (id : String) (x : Entity × IdSet) (xs : List (Entity × IdSet)) :
    groupsUnder id (x :: xs) = if x.1.id = id then x.2 else groupsUnder id xs := by
  unfold groupsUnder
  by_cases h : x.1.id = id
  · simp [h]
  · simp [h]

theorem groupsUnder_grantTo (e : Entity) (ids : List String) (id : String)
    (xs : List (Entity × IdSet)) :
    groupsUnder id (grantTo e ids xs) =
      if e.id = id then IdSet.insertAll (groupsUnder id xs) ids else groupsUnder id xs := by
  induction xs with
  | nil =>
    show groupsUnder id [(e, IdSet.ofList ids)] = _
    rw [groupsUnder_cons, IdSet.ofList_eq_insertAll]
    rfl
  | cons x xs ih =>
    obtain ⟨x, set⟩ := x
    unfold grantTo
    by_cases h : x.id = e.id
    · rw [if_pos h, groupsUnder_cons, groupsUnder_cons, h]
      by_cases hid : e.id = id
      · simp [hid]
      · simp [hid]
    · rw [if_neg h, groupsUnder_cons, groupsUnder_cons, ih]
      by_cases hid : x.id = id
      · have hother : e.id ≠ id := fun he => h (hid.trans he.symm)
        simp [hid, hother]
      · simp [hid]

namespace AllowList

open Registry (getElem?_concat_eq_some_iff)

/-- The listed entities. -/
def listed (l : AllowList) : List Entity := l.grants.map Prod.fst

theorem map_id_listed (l : AllowList) : l.listed.map Entity.id = l.grants.map (·.1.id) :=
  List.map_map

theorem nodup_ids_listed (l : AllowList) : (l.listed.map Entity.id).Nodup := by
  rw [map_id_listed]
  exact l.distinct

theorem nodup_listed (l : AllowList) : l.listed.Nodup := l.nodup_ids_listed.of_map _

theorem listed_grant (l : AllowList) (e : Entity) (ids : List String) :
    (l.grant e ids).listed =
      if e.id ∈ l.listed.map Entity.id then l.listed else l.listed ++ [e] := by
  rw [map_id_listed]
  exact map_fst_grantTo e ids l.grants

theorem groupsOf_eq (l : AllowList) (e : Entity) : l.groupsOf e = groupsUnder e.id l.grants := by
  unfold groupsOf groupsUnder
  cases l.grants.find? (·.1.id == e.id) <;> rfl

theorem groupsOf_grant (l : AllowList) (given : Entity) (ids : List String) (e : Entity) :
    (l.grant given ids).groupsOf e =
      if given.id = e.id then IdSet.insertAll (l.groupsOf e) ids else l.groupsOf e := by
  rw [groupsOf_eq, groupsOf_eq]
  exact groupsUnder_grantTo given ids e.id l.grants

/-! ## Members against groups -/

theorem filter_contains_eq (group : String) {xs : List (Entity × IdSet)}
    (h : (xs.map (·.1.id)).Nodup) :
    (xs.filter (·.2.contains group)).map Prod.fst =
      (xs.map Prod.fst).filter fun e => (groupsUnder e.id xs).contains group := by
  have hrow : ∀ x ∈ xs, groupsUnder x.1.id xs = x.2 := by
    induction xs with
    | nil => intro x hx; exact absurd hx List.not_mem_nil
    | cons first rest ih =>
      rw [List.map_cons, List.nodup_cons] at h
      intro x hx
      rw [groupsUnder_cons]
      rcases List.mem_cons.1 hx with heq | hrest
      · rw [heq, if_pos rfl]
      · have hne : first.1.id ≠ x.1.id := by
          intro heq
          exact h.1 (heq ▸ List.mem_map_of_mem hrest)
        rw [if_neg hne, ih h.2 x hrest]
  rw [List.filter_map]
  apply congrArg (List.map Prod.fst)
  apply List.filter_congr
  intro x hx
  show x.2.contains group = (groupsUnder x.1.id xs).contains group
  rw [hrow x hx]

/-- Each id has one row, so the row that is enumerated is the row that is looked up. -/
theorem membersOf_eq_filter (l : AllowList) (group : Entity) :
    l.membersOf group = l.listed.filter fun e => (l.groupsOf e).contains group.id := by
  have hrows := filter_contains_eq group.id l.distinct
  simp only [← groupsOf_eq] at hrows
  exact hrows

theorem mem_membersOf {l : AllowList} {group e : Entity} :
    e ∈ l.membersOf group ↔ e ∈ l.listed ∧ group.id ∈ (l.groupsOf e).ids := by
  rw [membersOf_eq_filter, List.mem_filter, Table.contains_iff_mem_keys]
  rfl

theorem nodup_ids_membersOf (l : AllowList) (group : Entity) :
    ((l.membersOf group).map Entity.id).Nodup := by
  rw [membersOf_eq_filter]
  exact l.nodup_ids_listed.sublist (List.filter_sublist.map _)

/-! ## Histories -/

/-- One of the grants gives the group to the id. -/
def Granted (history : List (Entity × List String)) (id group : String) : Prop :=
  ∃ g ∈ history, g.1.id = id ∧ group ∈ g.2

/-- The grant at a position is the first for its id, and is made to this entity. -/
def FirstAt (history : List (Entity × List String)) (e : Entity) (i : Nat) : Prop :=
  (∃ ids, history[i]? = some (e, ids)) ∧
    ∀ j < i, ∀ g, history[j]? = some g → g.1.id ≠ e.id

/-- One entity was first given before the other was. -/
def Before (history : List (Entity × List String)) (a b : Entity) : Prop :=
  ∃ i j, FirstAt history a i ∧ FirstAt history b j ∧ i < j

/-- The grants to each id are the same and in the same order; those to different ids may have
changed places. -/
def Rearranged (history other : List (Entity × List String)) : Prop :=
  ∀ id, history.filter (·.1.id == id) = other.filter (·.1.id == id)

variable {history other : List (Entity × List String)} {g : Entity × List String} {e : Entity}
  {id group : String} {i : Nat}

theorem ofList_concat (history : List (Entity × List String)) (g : Entity × List String) :
    ofList (history ++ [g]) = (ofList history).grant g.1 g.2 := List.foldl_concat ..

theorem granted_concat :
    Granted (history ++ [g]) id group ↔ Granted history id group ∨ (g.1.id = id ∧ group ∈ g.2) := by
  simp [Granted, or_and_right, exists_or]

theorem mem_groupsOf_ofList :
    group ∈ ((ofList history).groupsOf e).ids ↔ Granted history e.id group := by
  induction history using List.reverseRecOn with
  | nil => simp [Granted, ofList, groupsOf, empty, IdSet.ids, Table.keys, Table.empty]
  | append_singleton history g ih =>
    rw [ofList_concat, groupsOf_grant, granted_concat, ← ih]
    by_cases h : g.1.id = e.id
    · rw [if_pos h, IdSet.mem_insertAll, and_iff_right h]
    · rw [if_neg h, or_iff_left fun hgiven => h hgiven.1]

theorem mem_ids_listed_ofList :
    id ∈ (ofList history).listed.map Entity.id ↔ id ∈ history.map (·.1.id) := by
  induction history using List.reverseRecOn with
  | nil => rfl
  | append_singleton history g ih =>
    rw [ofList_concat, listed_grant, List.map_append, List.mem_append, ← ih]
    by_cases h : g.1.id ∈ (ofList history).listed.map Entity.id
    · rw [if_pos h, or_iff_left_of_imp]
      intro hid
      rw [List.map_singleton, List.mem_singleton] at hid
      rwa [hid]
    · rw [if_neg h, List.map_append, List.mem_append]
      rfl

theorem FirstAt.lt_length (h : FirstAt history e i) : i < history.length := by
  obtain ⟨ids, hids⟩ := h.1
  obtain ⟨hi, _⟩ := List.getElem?_eq_some_iff.1 hids
  exact hi

/-- A further grant is the first for its id if the id has none yet; the others stay what they
were. -/
theorem firstAt_concat :
    FirstAt (history ++ [g]) e i ↔ FirstAt history e i ∨
      (i = history.length ∧ e = g.1 ∧ e.id ∉ history.map (·.1.id)) := by
  constructor
  · intro h
    obtain ⟨⟨ids, hids⟩, hnone⟩ := h
    rcases getElem?_concat_eq_some_iff.1 hids with hold | ⟨hi, hg⟩
    · refine .inl ⟨⟨ids, hold⟩, ?_⟩
      intro j hj x hx
      exact hnone j hj x (getElem?_concat_eq_some_iff.2 (.inl hx))
    · refine .inr ⟨hi, by rw [hg], ?_⟩
      intro hmem
      obtain ⟨x, hx, hid⟩ := List.mem_map.1 hmem
      obtain ⟨j, hj⟩ := List.mem_iff_getElem?.1 hx
      obtain ⟨hlt, _⟩ := List.getElem?_eq_some_iff.1 hj
      exact hnone j (hi ▸ hlt) x (getElem?_concat_eq_some_iff.2 (.inl hj)) hid
  · intro h
    rcases h with hold | ⟨hi, he, hnew⟩
    · have hlt := hold.lt_length
      obtain ⟨⟨ids, hids⟩, hnone⟩ := hold
      refine ⟨⟨ids, getElem?_concat_eq_some_iff.2 (.inl hids)⟩, ?_⟩
      intro j hj x hx
      rcases getElem?_concat_eq_some_iff.1 hx with hx | ⟨hlength, _⟩
      · exact hnone j hj x hx
      · omega
    · have hlast : (history ++ [g])[i]? = some (e, g.2) := by
        rw [hi, List.getElem?_concat_length, he]
      refine ⟨⟨g.2, hlast⟩, ?_⟩
      intro j hj x hx
      rcases getElem?_concat_eq_some_iff.1 hx with hx | ⟨hlength, _⟩
      · intro hid
        exact hnew (hid ▸ List.mem_map_of_mem (List.mem_of_getElem? hx))
      · omega

theorem mem_listed_ofList : e ∈ (ofList history).listed ↔ ∃ i, FirstAt history e i := by
  induction history using List.reverseRecOn with
  | nil =>
    refine iff_of_false List.not_mem_nil ?_
    intro h
    obtain ⟨i, hi⟩ := h
    exact absurd hi.lt_length (Nat.not_lt_zero i)
  | append_singleton history g ih =>
    rw [ofList_concat, listed_grant]
    simp only [firstAt_concat, exists_or, exists_eq_left, mem_ids_listed_ofList, ← ih]
    by_cases h : g.1.id ∈ history.map (·.1.id)
    · rw [if_pos h, or_iff_left]
      intro hnew
      exact hnew.2 (hnew.1 ▸ h)
    · rw [if_neg h, List.mem_append, List.mem_singleton]
      refine or_congr_right ⟨fun he => ⟨he, he ▸ h⟩, And.left⟩

theorem Before.concat {a b : Entity} (h : Before history a b) : Before (history ++ [g]) a b := by
  obtain ⟨i, j, hi, hj, hij⟩ := h
  exact ⟨i, j, firstAt_concat.2 (.inl hi), firstAt_concat.2 (.inl hj), hij⟩

theorem listed_ofList_inOrder : (ofList history).listed.Pairwise (Before history) := by
  induction history using List.reverseRecOn with
  | nil => exact List.Pairwise.nil
  | append_singleton history g ih =>
    have hold := ih.imp fun h => Before.concat (g := g) h
    have hids : g.1.id ∈ (ofList history).listed.map Entity.id ↔ g.1.id ∈ history.map (·.1.id) :=
      mem_ids_listed_ofList
    rw [ofList_concat, listed_grant]
    by_cases h : g.1.id ∈ history.map (·.1.id)
    · rw [if_pos (hids.2 h)]
      exact hold
    · rw [if_neg (mt hids.1 h)]
      refine List.pairwise_append.2 ⟨hold, List.pairwise_singleton .., fun a ha b hb => ?_⟩
      -- What is listed already was given before what is given now.
      obtain ⟨i, hi⟩ := mem_listed_ofList.1 ha
      obtain rfl := List.mem_singleton.1 hb
      exact ⟨i, history.length, firstAt_concat.2 (.inl hi),
        firstAt_concat.2 (.inr ⟨rfl, rfl, h⟩), hi.lt_length⟩

/-! ## Grants in another order -/

theorem exists_firstAt_iff :
    (∃ i, FirstAt history e i) ↔
      ((history.filter (·.1.id == e.id)).head?).map Prod.fst = some e := by
  rw [List.head?_filter, Option.map_eq_some_iff]
  constructor
  · intro h
    obtain ⟨i, ⟨ids, hids⟩, hnone⟩ := h
    refine ⟨(e, ids), List.find?_eq_some_iff_getElem.2 ⟨beq_self_eq_true _, i, ?_⟩, rfl⟩
    obtain ⟨hi, hrow⟩ := List.getElem?_eq_some_iff.1 hids
    refine ⟨hi, hrow, fun j hj => ?_⟩
    have hne := hnone j hj _ (List.getElem?_eq_getElem (Nat.lt_trans hj hi))
    simpa using hne
  · intro h
    obtain ⟨⟨x, ids⟩, hfind, rfl⟩ := h
    obtain ⟨_, i, hi, hrow, hnone⟩ := List.find?_eq_some_iff_getElem.1 hfind
    refine ⟨i, ⟨ids, List.getElem?_eq_some_iff.2 ⟨hi, hrow⟩⟩, fun j hj g hg => ?_⟩
    obtain ⟨hlt, hrow⟩ := List.getElem?_eq_some_iff.1 hg
    have hne := hnone j hj
    rw [hrow] at hne
    simpa using hne

theorem granted_iff_mem_filter :
    Granted history id group ↔ ∃ g ∈ history.filter (·.1.id == id), group ∈ g.2 := by
  simp only [Granted, List.mem_filter, beq_iff_eq, and_assoc]

theorem Rearranged.groupsOf_eq (h : Rearranged history other) (e : Entity) :
    (ofList history).groupsOf e = (ofList other).groupsOf e := by
  apply IdSet.ext_ids
  intro id
  rw [mem_groupsOf_ofList, mem_groupsOf_ofList, granted_iff_mem_filter, granted_iff_mem_filter,
    h e.id]

theorem Rearranged.listed_perm (h : Rearranged history other) :
    (ofList history).listed.Perm (ofList other).listed := by
  refine (List.perm_ext_iff_of_nodup (nodup_listed _) (nodup_listed _)).2 fun e => ?_
  rw [mem_listed_ofList, mem_listed_ofList, exists_firstAt_iff, exists_firstAt_iff, h e.id]

theorem Rearranged.membersOf_perm (h : Rearranged history other) (group : Entity) :
    ((ofList history).membersOf group).Perm ((ofList other).membersOf group) := by
  rw [membersOf_eq_filter, membersOf_eq_filter]
  simp only [h.groupsOf_eq]
  exact h.listed_perm.filter _

/-! ## The record of the grants -/

/-- What an allow-list tells agrees with the grants that led to it. -/
structure Recorded (history : List (Entity × List String)) (l : AllowList) : Prop where
  once : (l.listed.map Entity.id).Nodup
  listed : ∀ e, e ∈ l.listed ↔ ∃ i, FirstAt history e i
  inOrder : l.listed.Pairwise (Before history)
  counted : l.size = (history.map (·.1.id)).dedup.length
  /-- The groups go by the id alone, and so are empty if it has no grant. -/
  groups : ∀ w e, ∃ ids, (Provider.allowList l).groupsOf w e = .ok ids ∧
    ∀ group, group ∈ ids.ids ↔ Granted history e.id group
  members : ∀ w group, ∃ es : List Entity,
    (Provider.allowList l).membersOf w group = pure (.ok (es.map .ok)) ∧
    (es.map Entity.id).Nodup ∧ es.Pairwise (Before history) ∧
    ∀ e, e ∈ es ↔ (∃ i, FirstAt history e i) ∧ Granted history e.id group.id
  /-- A listed entity is a member of a group exactly if the group is one of its groups. -/
  agree : ∀ e ∈ l.listed, ∀ group, e ∈ l.membersOf group ↔ group.id ∈ (l.groupsOf e).ids
  rearranged : ∀ other, Rearranged history other →
    (∀ e, (ofList other).groupsOf e = l.groupsOf e) ∧
      (ofList other).listed.Perm l.listed ∧
      ∀ group, ((ofList other).membersOf group).Perm (l.membersOf group)

theorem size_ofList : (ofList history).size = (history.map (·.1.id)).dedup.length := by
  have hperm : ((ofList history).listed.map Entity.id).Perm (history.map (·.1.id)).dedup := by
    refine (List.perm_ext_iff_of_nodup (nodup_ids_listed _) (List.nodup_dedup _)).2 fun id => ?_
    rw [mem_ids_listed_ofList, List.mem_dedup]
  rw [← hperm.length_eq, map_id_listed, List.length_map]
  rfl

theorem grants_recorded (history : List (Entity × List String)) :
    Recorded history (ofList history) where
  once := nodup_ids_listed _
  listed _ := mem_listed_ofList
  inOrder := listed_ofList_inOrder
  counted := size_ofList
  groups _ e := ⟨_, rfl, fun _ => mem_groupsOf_ofList⟩
  members _ group := by
    refine ⟨_, rfl, nodup_ids_membersOf _ _, ?_, fun e => ?_⟩
    · rw [membersOf_eq_filter]
      exact listed_ofList_inOrder.sublist List.filter_sublist
    · rw [mem_membersOf, mem_listed_ofList, mem_groupsOf_ofList]
  agree e he group := by rw [mem_membersOf, and_iff_right he]
  rearranged other h := by
    refine ⟨fun e => (h.groupsOf_eq e).symm, h.listed_perm.symm, fun group => ?_⟩
    exact (h.membersOf_perm group).symm

/-- A member that got its group by a later grant keeps its place, and is the entity given first. -/
example :
    (ofList [(Entity.user "alice", []), (Entity.user "bob", ["staff"]),
      (Entity.group "alice", ["guests", "staff"])]).membersOf (Entity.group "staff") =
        [Entity.user "alice", Entity.user "bob"] := by
  decide

end AllowList
end Enrolment
