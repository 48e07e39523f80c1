import Enrolment.Proofs.Enroller.CachedIdps
import Enrolment.Proofs.Enroller.Outage

/-!
Groups under one name.

Ids that denote groups of one name come to one principal.  Its name does not depend on the order in
which the ids are vetted, but its kind may, if the store takes principals of several kinds for group
principals.  The theorem of this file, `groups_collapsed_by_name`, says which principal stays and
that the names follow from the sets of ids alone.

The members of a set come in increasing order here.  Nothing promises this of the sets that
providers report, so the theorem is about any order in which they are read (`ReadingOrder`).
-/

namespace Enrolment

/-- The id denotes a group of this name. -/
def Store.Denotes (s : Store) (id name : String) : Prop :=
  ∃ p, s.judge id = .accepted p ∧ p.name = name

/-- An order in which to read the members of each set. -/
structure ReadingOrder where
  read : IdSet → List String
  perm : ∀ s, (read s).Perm s.ids

def ReadingOrder.increasing : ReadingOrder := ⟨IdSet.ids, fun _ => .refl _⟩

namespace GroupSet

/-- The names of the principals. -/
def names (s : GroupSet) : List String := s.toList.map Principal.name

theorem nodup_names (s : GroupSet) : s.names.Nodup := by
  have hkeys : s.names = s.kinds.keys := by
    unfold names toList Table.keys
    rw [List.map_map]
    rfl
  rw [hkeys]
  exact s.kinds.nodup_keys

theorem mem_names {s : GroupSet} {name : String} : name ∈ s.names ↔ s.hasName name = true := by
  unfold names
  rw [List.mem_map, hasName_iff]
  constructor
  · intro h
    obtain ⟨p, hp, rfl⟩ := h
    exact ⟨p, mem_toList.1 hp⟩
  · intro h
    obtain ⟨p, hp⟩ := h
    obtain rfl := name_of_find? hp
    exact ⟨p, mem_toList.2 hp, rfl⟩

end GroupSet

/-! ## Vetted ids -/

namespace Store

theorem denotes_iff {s : Store} {id name : String} :
    s.Denotes id name ↔ (s.judge id).principal?.any (·.name == name) = true := by
  unfold Denotes
  cases s.judge id <;> simp [Verdict.principal?]

theorem exists_name_vetAll {s : Store} {ids : List String} {name : String} :
    (∃ p ∈ (s.vetAll ids).value, p.name = name) ↔ ∃ id ∈ ids, s.Denotes id name := by
  simp only [Enroller.mem_vetAll, Denotes]
  constructor
  · intro h
    obtain ⟨p, ⟨id, hid, hp⟩, hname⟩ := h
    exact ⟨id, hid, p, hp, hname⟩
  · intro h
    obtain ⟨id, hid, p, hp, hname⟩ := h
    exact ⟨p, ⟨id, hid, hp⟩, hname⟩

/-- The first principal of a name is that of the first id that denotes a group of this name. -/
theorem find?_vetAll {s : Store} {ids : List String} {name : String}
    (h : ∃ id ∈ ids, s.Denotes id name) :
    ∃ before id after p, ids = before ++ id :: after ∧ s.judge id = .accepted p ∧
      p.name = name ∧ (∀ other ∈ before, ¬ s.Denotes other name) ∧
      (s.vetAll ids).value.find? (·.name == name) = some p := by
  have hfind : (ids.find? fun id => (s.judge id).principal?.any (·.name == name)).isSome := by
    obtain ⟨id, hid, hdenotes⟩ := h
    exact List.find?_isSome.2 ⟨id, hid, denotes_iff.1 hdenotes⟩
  obtain ⟨id, hid⟩ := Option.isSome_iff_exists.1 hfind
  obtain ⟨hdenotes, before, after, heq, hbefore⟩ := List.find?_eq_some_iff_append.1 hid
  obtain ⟨p, hp, hname⟩ := denotes_iff.2 hdenotes
  refine ⟨before, id, after, p, heq, hp, hname, ?_, ?_⟩
  · intro other hother hdenoted
    have hnot := hbefore other hother
    rw [denotes_iff.1 hdenoted] at hnot
    cases hnot
  · rw [value_vetAll, List.find?_filterMap, hid, Option.bind_some, hp]
    rfl

end Store

namespace Enroller

/-- The question for the groups of an entity, if what a provider reports is read in this order. -/
def groupsReading (n : Enroller) (order : ReadingOrder) (w : World) (idp : String) (e : Entity)
    (c : Cache) : Traced (Except ProviderFault GroupSet × Cache) := do
  let (set, c) ← n.standingSet w.store idp c
  match n.registry.get? idp with
  | none => return (.ok set, c)
  | some p =>
    match ← w.askGroups idp p e with
    | .error fault => return (.error fault, c)
    | .ok ids => return (.ok (set.insertAll (← w.store.vetAll (order.read ids))), c)

theorem groups_eq_groupsReading (n : Enroller) (w : World) (idp : String) (e : Entity)
    (c : Cache) : n.groups w idp e c = n.groupsReading .increasing w idp e c := rfl

/-- What is answered while nothing is kept for the IDP. -/
def ColdAnswer (n : Enroller) (order : ReadingOrder) (w : World) (idp : String) (e : Entity)
    (set : GroupSet) : Prop :=
  ∀ c : Cache, c.contains idp = false → (n.groupsReading order w idp e c).value.1 = .ok set

theorem standingOver_of_cold (n : Enroller) (s : Store) {idp : String} {c : Cache}
    (h : c.contains idp = false) : n.standingOver c s idp = n.vetted s idp := by
  rw [c.contains_eq_isSome, Option.isSome_eq_false_iff, Option.isNone_iff_eq_none] at h
  unfold standingOver
  rw [h, Option.none_or]
  cases hm : n.standing.hasIdp idp with
  | true => rw [fresh?_of_mapped hm]; rfl
  | false => rw [fresh?_of_unmapped hm, vetted_of_unmapped n s hm]; rfl

theorem coldAnswer (n : Enroller) (order : ReadingOrder) {w : World} {idp : String} {e : Entity}
    {ids : IdSet} (h : n.reported w idp e = .ok ids) :
    n.ColdAnswer order w idp e
      ((n.vetted w.store idp).insertAll (w.store.vetAll (order.read ids)).value) := by
  intro c hcold
  unfold groupsReading
  rw [Traced.value_bind]
  have hset : (n.standingSet w.store idp c).value.1 = n.vetted w.store idp := by
    rw [value_standingSet]
    exact n.standingOver_of_cold w.store hcold
  unfold reported at h
  cases hp : n.registry.get? idp with
  | none =>
    rw [hp] at h
    -- Without a provider nothing is reported, in whatever order it is read.
    have hnone : order.read ids = [] := by
      rw [← Except.ok.inj h]
      exact List.perm_nil.1 (order.perm Table.empty)
    rw [hnone]
    show Except.ok _ = _
    rw [hset]
    rfl
  | some p =>
    rw [hp] at h
    simp only [Traced.value_bind, World.askGroups, h]
    show Except.ok _ = _
    rw [hset]

theorem ColdAnswer.unique {n : Enroller} {order : ReadingOrder} {w : World} {idp : String}
    {e : Entity} {s t : GroupSet} (hs : n.ColdAnswer order w idp e s)
    (ht : n.ColdAnswer order w idp e t) : s = t :=
  Except.ok.inj ((hs Cache.empty rfl).symm.trans (ht Cache.empty rfl))

/-! ## The names and the principals that stay -/

/-- A set of groups made of configured and reported ids: it has one principal for each name, the
names are those of all ids, and under a name that is configured the first configured id wins, over
the other configured ids and over what is reported. -/
structure Collapsed (s : Store) (configured : List String) (reported : IdSet) (set : GroupSet) :
    Prop where
  once : set.names.Nodup
  names : ∀ name, name ∈ set.names ↔
    ∃ id, (id ∈ configured ∨ id ∈ reported.ids) ∧ s.Denotes id name
  first : ∀ name, (∃ id ∈ configured, s.Denotes id name) →
    ∃ before id after p, configured = before ++ id :: after ∧ s.judge id = .accepted p ∧
      p.name = name ∧ (∀ other ∈ before, ¬ s.Denotes other name) ∧
      ∀ q, q ∈ set.toList ∧ q.name = name ↔ q = p

theorem collapsed (n : Enroller) (s : Store) (idp : String) (order : ReadingOrder) (ids : IdSet) :
    Collapsed s (n.standing.groupIds idp) ids
      ((n.vetted s idp).insertAll (s.vetAll (order.read ids)).value) where
  once := GroupSet.nodup_names _
  names name := by
    rw [GroupSet.mem_names, GroupSet.hasName_insertAll, vetted, GroupSet.hasName_ofList,
      Store.exists_name_vetAll, Store.exists_name_vetAll]
    simp only [(order.perm ids).mem_iff, or_and_right, exists_or]
  first name h := by
    obtain ⟨before, id, after, p, heq, hp, hname, hbefore, hfind⟩ := Store.find?_vetAll h
    refine ⟨before, id, after, p, heq, hp, hname, hbefore, fun q => ?_⟩
    have hstays : ((n.vetted s idp).insertAll (s.vetAll (order.read ids)).value).find? name =
        some p := by
      rw [GroupSet.find?_insertAll, vetted, GroupSet.find?_ofList, hfind, Option.some_or]
    rw [GroupSet.mem_toList]
    constructor
    · intro hq
      rw [hq.2, hstays] at hq
      exact (Option.some.inj hq.1).symm
    · intro hq
      rw [hq, hname]
      exact ⟨hstays, rfl⟩

/-- While nothing is kept for the IDP, the groups of an entity are collapsed by name, whatever the
order in which the provider's ids are read.  Their names are those of any other call with the same
configured ids, in any order and number, and the same reported ids; and those for two lists one
after the other are the names for the one and for the other.  The question for the groups of an
entity is the case of the increasing order. -/
theorem groups_collapsed_by_name (n : Enroller) (order : ReadingOrder) (w : World) (idp : String)
    (e : Entity) (ids : IdSet) (hids : n.reported w idp e = .ok ids) :
    (∀ (m : Enroller) (v : World) (idp' : String) (e' : Entity) (c : Cache),
      m.groups v idp' e' c = m.groupsReading .increasing v idp' e' c) ∧
    ∃ set, n.ColdAnswer order w idp e set ∧
      Collapsed w.store (n.standing.groupIds idp) ids set ∧
      (∀ (m : Enroller) (other : ReadingOrder) (idp' : String) (e' : Entity) (set' : GroupSet),
        (∀ id, id ∈ m.standing.groupIds idp' ↔ id ∈ n.standing.groupIds idp) →
        m.reported w idp' e' = .ok ids → m.ColdAnswer other w idp' e' set' →
          ∀ name, name ∈ set'.names ↔ name ∈ set.names) ∧
      ∀ (a b : Enroller) (s t : GroupSet),
        n.standing.groupIds idp = a.standing.groupIds idp ++ b.standing.groupIds idp →
        a.reported w idp e = .ok ids → b.reported w idp e = .ok ids →
        a.ColdAnswer order w idp e s → b.ColdAnswer order w idp e t →
          ∀ name, name ∈ set.names ↔ name ∈ s.names ∨ name ∈ t.names := by
  have hset := n.collapsed w.store idp order ids
  refine ⟨groups_eq_groupsReading, _, n.coldAnswer order hids, hset, ?_, ?_⟩
  · intro m other idp' e' set' hsame hreported hanswer name
    have hset' := m.collapsed w.store idp' other ids
    rw [hanswer.unique (m.coldAnswer other hreported), hset'.names, hset.names]
    simp only [hsame]
  · intro a b s t happend hreporteda hreportedb ha hb name
    have hs := a.collapsed w.store idp order ids
    have ht := b.collapsed w.store idp order ids
    rw [ha.unique (a.coldAnswer order hreporteda), hb.unique (b.coldAnswer order hreportedb),
      hset.names, hs.names, ht.names, happend, ← exists_or]
    apply exists_congr
    intro id
    rw [List.mem_append, ← or_and_right, or_or_distrib_right]

/-- A store in which two ids denote groups of one name, by principals of different kinds, and an
outside provider that reports the second of them. -/
def twoKinds : World where
  store :=
    { directory := Directory.ofList
        [(Entity.group "a").withPrincipal ⟨"staff", .other⟩, Entity.group "staff"]
      policy := Policy.listed ["a", "staff"] ["group", "other"]
      outages := Outages.none }
  sources _ := ⟨fun _ => .ok (IdSet.ofList ["staff"]), fun _ => .ok []⟩

/-- The configured id comes first, and so its principal stays. -/
theorem groups_collapsed_by_name_two_kinds :
    let n := oneProvider "ldap" "a" rfl
    let alice := Entity.user "alice"
    n.reported twoKinds "ldap" alice = .ok (IdSet.ofList ["staff"]) ∧
      ∃ set, (n.groups twoKinds "ldap" alice Cache.empty).value.1 = .ok set ∧
        set.names.Nodup ∧ ⟨"staff", .other⟩ ∈ set.toList := by
  intro n alice
  obtain ⟨hgroups, set, hanswer, hset, -, -⟩ :=
    groups_collapsed_by_name n .increasing twoKinds "ldap" alice (IdSet.ofList ["staff"]) rfl
  have hdenotes : twoKinds.store.Denotes "a" "staff" := ⟨⟨"staff", .other⟩, rfl, rfl⟩
  obtain ⟨before, id, after, p, heq, hp, -, -, hstays⟩ :=
    hset.first "staff" ⟨"a", List.mem_singleton.2 rfl, hdenotes⟩
  have hid : id = "a" := by
    have hmem : id ∈ n.standing.groupIds "ldap" := by
      rw [heq]
      exact List.mem_append_right before List.mem_cons_self
    exact List.mem_singleton.1 hmem
  rw [hid] at hp
  obtain rfl : ⟨"staff", .other⟩ = p := Verdict.accepted.inj hp
  refine ⟨rfl, set, ?_, hset.once, ((hstays _).2 rfl).1⟩
  rw [hgroups]
  exact hanswer Cache.empty rfl

/-- In the other order the other principal stays. -/
example :
    (((oneProvider "ldap" "staff" rfl).groups twoKinds "ldap" (Entity.user "alice")
      Cache.empty).value.1.map GroupSet.toList).toOption = some [⟨"staff", .group⟩] := by
  decide

end Enroller
end Enrolment
