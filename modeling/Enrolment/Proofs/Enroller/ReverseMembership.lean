import Enrolment.Proofs.Directory
import Enrolment.Proofs.Enroller.PointMembership
import Enrolment.Proofs.Provider.AllowList
import Enrolment.Proofs.Provider.RuleBook
import Enrolment.Proofs.Registry
import Mathlib.Data.List.Forall2

/-!
Point membership against the members of a group.

An enroller finds the members of a group by going through the list of its providers, and tells
whether an entity is in a group by looking one provider up.  The theorem of this file,
`members_agree_isMember`, ties the two together for the providers of this library: the members that
the provider of an IDP contributes are, each once, the entities it can enumerate that are in the
group for this IDP.
-/

namespace Enrolment

/-- A provider of this library under the IDP it is for: an allow-list is for any, a rule book for
the one whose entities it enumerates. -/
def Provider.IsFor (idp : String) : Provider → Prop
  | .allowList _ => True
  | .ruleBook b => b.idp = idp
  | .outside _ => False

/-- The entities that a provider can enumerate: those that an allow-list lists, and for a rule book
those that the store has from the IDP. -/
def Provider.CanEnumerate (idp : String) (w : World) (e : Entity) : Provider → Prop
  | .allowList l => e ∈ l.listed
  | .ruleBook _ => w.store.directory.find? e.id = some e ∧ e.idp? = some idp
  | .outside _ => False

theorem Provider.contribution_ruleBook {b : RuleBook} {w : World} {group : Entity}
    {es : List Entity} (h : (b.membersOf w.store group).value = .ok es) :
    (Provider.ruleBook b).contribution w group = es.map .ok := by
  have hvalue : ((Provider.ruleBook b).membersOf w group).value = .ok (es.map .ok) := by
    show Except.map _ (b.membersOf w.store group).value = _
    rw [h]
    rfl
  unfold contribution
  rw [hvalue]

namespace Enroller

variable {n : Enroller} {w : World} {group : Entity}

/-- What the provider in a row of the registry contributes to the members of a group agrees with
point membership for its IDP. -/
structure Agrees (n : Enroller) (w : World) (group : Entity) (row : String × Provider)
    (members : List Entity) : Prop where
  contributed : row.2.contribution w group = members.map .ok
  isMember : ∀ e ∈ members, (n.isMember w row.1 group.id e).value = .ok true
  once : (members.map Entity.id).Nodup
  /-- A configured group has every entity as a member, and so says nothing of the provider. -/
  complete : group.id ∉ n.standing.groupIds row.1 → ∀ e, row.2.CanEnumerate row.1 w e →
    (n.isMember w row.1 group.id e).value = .ok true → e ∈ members

/-! ## One provider -/

theorem reported_of_row {idp : String} {p : Provider} (h : (idp, p) ∈ n.registry.providers)
    (w : World) (e : Entity) : n.reported w idp e = p.groupsOf w e := by
  unfold reported
  rw [Registry.get?_eq_some_iff.2 h]

/-- It is enough that the members are the entities enumerated that have the group. -/
theorem Agrees.of_groups {idp : String} {p : Provider} (hrow : (idp, p) ∈ n.registry.providers)
    {groups : Entity → IdSet} (hgroups : ∀ e, p.groupsOf w e = .ok (groups e))
    {members : List Entity} (hcontributed : p.contribution w group = members.map .ok)
    (honce : (members.map Entity.id).Nodup)
    (hmembers : ∀ e, e ∈ members ↔ p.CanEnumerate idp w e ∧ group.id ∈ (groups e).ids) :
    Agrees n w group (idp, p) members where
  contributed := hcontributed
  once := honce
  isMember e he := by
    have hreported := (reported_of_row hrow w e).trans (hgroups e)
    exact (isMember_iff n w hreported group.id).2 (.inr ((hmembers e).1 he).2)
  complete hunlisted e hcan hmember := by
    have hreported := (reported_of_row hrow w e).trans (hgroups e)
    have hgroup := (isMember_iff n w hreported group.id).1 hmember
    exact (hmembers e).2 ⟨hcan, hgroup.resolve_left hunlisted⟩

theorem agrees_allowList {idp : String} {l : AllowList}
    (hrow : (idp, .allowList l) ∈ n.registry.providers) (w : World) (group : Entity) :
    Agrees n w group (idp, .allowList l) (l.membersOf group) :=
  .of_groups hrow (fun _ => rfl) rfl (l.nodup_ids_membersOf group)
    fun _ => AllowList.mem_membersOf

theorem agrees_ruleBook {b : RuleBook} (hrow : (b.idp, .ruleBook b) ∈ n.registry.providers)
    (henumerates : w.store.policy.enumerates = true)
    (hcalm : w.store.outages.enumeration = none) (group : Entity) :
    Agrees n w group (b.idp, .ruleBook b)
      ((w.store.directory.ofIdp b.idp).filter fun e => (b.groupsOf e).contains group.id) := by
  have hread : (w.store.list b.idp).value = .ok (w.store.directory.ofIdp b.idp) := by
    show w.store.enumerate b.idp = _
    unfold Store.enumerate
    rw [if_pos henumerates, hcalm]
  apply Agrees.of_groups hrow fun _ => rfl
  · exact Provider.contribution_ruleBook (RuleBook.value_membersVia hread group)
  · have hids := (w.store.directory.ids_ofIdp_sublist b.idp).nodup w.store.directory.distinct
    exact hids.sublist (List.filter_sublist.map _)
  · intro e
    rw [List.mem_filter, Directory.mem_ofIdp, Table.contains_iff_mem_keys]
    rfl

theorem exists_agrees {row : String × Provider} (hrow : row ∈ n.registry.providers)
    (hfor : row.2.IsFor row.1) (henumerates : w.store.policy.enumerates = true)
    (hcalm : w.store.outages.enumeration = none) (group : Entity) :
    ∃ members, Agrees n w group row members := by
  obtain ⟨idp, p⟩ := row
  cases p with
  | allowList l => exact ⟨_, agrees_allowList hrow w group⟩
  | ruleBook b =>
    obtain rfl : b.idp = idp := hfor
    exact ⟨_, agrees_ruleBook hrow henumerates hcalm group⟩
  | outside source => exact hfor.elim

/-! ## All providers -/

theorem exists_forall_agrees {rows : List (String × Provider)}
    (h : ∀ row ∈ rows, ∃ members, Agrees n w group row members) :
    ∃ parts, List.Forall₂ (Agrees n w group) rows parts := by
  induction rows with
  | nil => exact ⟨[], .nil⟩
  | cons row rows ih =>
    obtain ⟨members, hmembers⟩ := h row List.mem_cons_self
    obtain ⟨parts, hparts⟩ := ih fun other hother => h other (List.mem_cons_of_mem _ hother)
    exact ⟨members :: parts, .cons hmembers hparts⟩

theorem flatMap_contribution {rows : List (String × Provider)} {parts : List (List Entity)}
    (h : List.Forall₂ (Agrees n w group) rows parts) :
    rows.flatMap (·.2.contribution w group) = parts.flatten.map .ok := by
  induction h with
  | nil => rfl
  | cons hrow _ ih =>
    rw [List.flatMap_cons, hrow.contributed, ih, List.flatten_cons, List.map_append]

theorem count_ids_le {rows : List (String × Provider)} {parts : List (List Entity)}
    (h : List.Forall₂ (Agrees n w group) rows parts) (id : String) :
    (parts.flatten.map Entity.id).count id ≤ rows.length := by
  induction h with
  | nil => exact Nat.le_refl 0
  | cons hrow _ ih =>
    have hone := List.nodup_iff_count_le_one.1 hrow.once id
    rw [List.flatten_cons, List.map_append, List.count_append, List.length_cons]
    omega

/-- Over a store that can be enumerated, and with allow-lists and rule books for providers, the
members of a group are what the providers contribute, without a fault, and each provider's part
agrees with point membership for its IDP.  An id occurs at most once for each provider. -/
theorem members_agree_isMember (n : Enroller) (w : World) (group : Entity)
    (henumerates : w.store.policy.enumerates = true)
    (hcalm : w.store.outages.enumeration = none)
    (hfor : ∀ row ∈ n.registry.providers, row.2.IsFor row.1) :
    ∃ parts : List (List Entity), List.Forall₂ (Agrees n w group) n.registry.providers parts ∧
      ((n.members group).rest w).value = parts.flatten.map .ok ∧
      ∀ id, (parts.flatten.map Entity.id).count id ≤ n.registry.size := by
  obtain ⟨parts, hparts⟩ := exists_forall_agrees fun row hrow =>
    exists_agrees hrow (hfor row hrow) henumerates hcalm group
  refine ⟨parts, hparts, ?_, count_ids_le hparts⟩
  rw [Cursor.value_rest, ← flatMap_contribution hparts]
  rfl

/-- An enroller with an allow-list for one IDP, which lists alice, and a rule book for another. -/
def listedAndRuled : Enroller where
  standing := Standing.empty
  registry :=
    (Registry.empty.push "local" (.allowList (AllowList.ofList [(Entity.user "alice", ["staff"])]))
      rfl rfl).push "saml" (.ruleBook ⟨"saml", [⟨"team", "core", "staff"⟩]⟩) rfl rfl

def teammate (id : String) : Entity :=
  ((Entity.user id).withIdp "saml").withAttribute "team" "core"

def team : World where
  store := ⟨Directory.ofList [teammate "alice", teammate "bob"], Policy.byKind, Outages.none⟩
  sources _ := ⟨fun _ => .ok Table.empty, fun _ => .ok []⟩

/-- Alice is listed and fits the rule, so she is a member twice; bob is one by the rule alone. -/
theorem members_agree_isMember_listed_and_ruled :
    let n := listedAndRuled
    team.store.policy.enumerates = true ∧ team.store.outages.enumeration = none ∧
      (∀ row ∈ n.registry.providers, row.2.IsFor row.1) ∧
      ∃ members : List Entity,
        ((n.members (Entity.group "staff")).rest team).value = members.map .ok ∧
        Entity.user "alice" ∈ members ∧ teammate "alice" ∈ members ∧ teammate "bob" ∈ members ∧
        ∀ id, (members.map Entity.id).count id ≤ 2 := by
  intro n
  have hfor : ∀ row ∈ n.registry.providers, row.2.IsFor row.1 := by
    intro row hrow
    obtain rfl | hrow := List.mem_cons.1 hrow
    · trivial
    · rw [List.mem_singleton.1 hrow]
      rfl
  obtain ⟨parts, hparts, hrest, hcount⟩ :=
    members_agree_isMember n team (Entity.group "staff") rfl rfl hfor
  obtain ⟨listed, _, hlisted, hothers, rfl⟩ := List.forall₂_cons_left_iff.1 hparts
  obtain ⟨ruled, _, hruled, hnil, rfl⟩ := List.forall₂_cons_left_iff.1 hothers
  obtain rfl := List.forall₂_nil_left_iff.1 hnil
  rw [List.flatten_cons, List.flatten_cons, List.flatten_nil, List.append_nil] at hrest hcount
  refine ⟨rfl, rfl, hfor, listed ++ ruled, hrest, ?_, ?_, ?_, hcount⟩
  · have hmember := hlisted.complete List.not_mem_nil (Entity.user "alice")
    exact List.mem_append_left _ (hmember List.mem_cons_self rfl)
  · have hmember := hruled.complete List.not_mem_nil (teammate "alice")
    exact List.mem_append_right _ (hmember ⟨rfl, rfl⟩ rfl)
  · have hmember := hruled.complete List.not_mem_nil (teammate "bob")
    exact List.mem_append_right _ (hmember ⟨rfl, rfl⟩ rfl)

end Enroller
end Enrolment
