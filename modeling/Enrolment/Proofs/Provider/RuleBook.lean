import Enrolment.Proofs.IdSet
import Enrolment.Provider

/-!
Rule books: the members of a group against the groups of an entity.

The groups of an entity are those of all rules that it fits; the members of a group are found by
enumerating entities and trying on each the rules that grant the group.  An entity fits one of these
rules exactly if the group is among its groups (`any_fits_granting`), and so the members are the
entities enumerated that have the group, in the same order and as often
(`members_invert_groups`).

A store of this library enumerates each entity once.  The theorem asks less of it: whatever is
enumerated, or goes wrong, in place of the store's own answer.
-/

namespace Enrolment

theorem Rule.fits_iff {r : Rule} {e : Entity} :
    r.fits e = true ↔ e.attributes.get? r.key = some r.value := by
  unfold fits
  exact beq_iff_eq

/-- The answer to a question for all entities of an identity provider, with its trace. -/
abbrev Enumeration := String → Traced (Except StoreFault (List Entity))

namespace RuleBook

/-- The members of a group, with this enumeration in place of the store's. -/
def membersVia (b : RuleBook) (list : Enumeration) (group : Entity) :
    Traced (Except ProviderFault (List Entity)) := do
  let rules := b.granting group
  if rules.isEmpty then return .ok []
  else match ← list b.idp with
    | .error fault => return .error (b.enumerationFault fault)
    | .ok candidates => return .ok (candidates.filter fun e => rules.any (·.fits e))

/-- What a rule book offers as a provider, with this enumeration in place of the store's. -/
def offeredVia (b : RuleBook) (list : Enumeration) (group : Entity) :
    Traced (Except ProviderFault (List (Except ProviderFault Entity))) :=
  (fun r => r.map (List.map .ok)) <$> b.membersVia list group

variable (b : RuleBook) (list : Enumeration) (group : Entity)

/-! ## Rules -/

theorem mem_groupsOf {b : RuleBook} {e : Entity} {id : String} :
    id ∈ (b.groupsOf e).ids ↔
      ∃ r ∈ b.rules, e.attributes.get? r.key = some r.value ∧ r.group = id := by
  unfold groupsOf
  rw [IdSet.mem_ofList, List.mem_map]
  simp only [List.mem_filter, Rule.fits_iff, and_assoc]

theorem isEmpty_granting :
    (b.granting group).isEmpty = true ↔ ∀ r ∈ b.rules, r.group ≠ group.id := by
  unfold granting
  rw [List.isEmpty_iff, List.filter_eq_nil_iff]
  simp only [beq_iff_eq]

/-- To try the rules of one group on an entity comes to looking the group up among the groups of all
rules that the entity fits. -/
theorem any_fits_granting (e : Entity) :
    (b.granting group).any (·.fits e) = (b.groupsOf e).contains group.id := by
  rw [Bool.eq_iff_iff, Table.contains_iff_mem_keys, List.any_eq_true]
  show _ ↔ group.id ∈ (b.groupsOf e).ids
  rw [mem_groupsOf]
  unfold granting
  simp only [List.mem_filter, beq_iff_eq, Rule.fits_iff, and_assoc]
  exact exists_congr fun r => and_congr_right fun _ => and_comm

/-! ## Members -/

theorem membersVia_of_ungranted {b : RuleBook} {group : Entity}
    (h : ∀ r ∈ b.rules, r.group ≠ group.id) : b.membersVia list group = ⟨.ok [], []⟩ := by
  unfold membersVia
  rw [if_pos ((b.isEmpty_granting group).2 h)]
  rfl

theorem membersVia_of_granted {b : RuleBook} {group : Entity}
    (h : ∃ r ∈ b.rules, r.group = group.id) :
    b.membersVia list group =
      ⟨match (list b.idp).value with
        | .error fault => .error (b.enumerationFault fault)
        | .ok es => .ok (es.filter fun e => (b.groupsOf e).contains group.id),
        (list b.idp).events⟩ := by
  have hsome : ¬ (b.granting group).isEmpty = true := by
    intro hnone
    obtain ⟨r, hr, hgroup⟩ := h
    exact (b.isEmpty_granting group).1 hnone r hr hgroup
  unfold membersVia
  simp only [if_neg hsome, any_fits_granting]
  generalize list b.idp = answer
  obtain ⟨value, events⟩ := answer
  cases value with
  | error fault => exact congrArg (Traced.mk _) (List.append_nil events)
  | ok es => exact congrArg (Traced.mk _) (List.append_nil events)

/-- Where nothing goes wrong the early end makes no difference: if no rule grants the group then no
entity has it. -/
theorem value_membersVia {b : RuleBook} {list : Enumeration} {es : List Entity}
    (h : (list b.idp).value = .ok es) (group : Entity) :
    (b.membersVia list group).value =
      .ok (es.filter fun e => (b.groupsOf e).contains group.id) := by
  by_cases hg : ∃ r ∈ b.rules, r.group = group.id
  · rw [membersVia_of_granted list hg, h]
  · have hnone : ∀ r ∈ b.rules, r.group ≠ group.id := fun r hr hgroup => hg ⟨r, hr, hgroup⟩
    have hempty : (es.filter fun e => (b.groupsOf e).contains group.id) = [] := by
      apply List.filter_eq_nil_iff.2
      intro e _ hcontains
      obtain ⟨r, hr, _, hgroup⟩ := mem_groupsOf.1 (Table.contains_iff_mem_keys.1 hcontains)
      exact hnone r hr hgroup
    rw [membersVia_of_ungranted list hnone, hempty]

theorem offeredVia_eq :
    b.offeredVia list group =
      ⟨(b.membersVia list group).value.map (List.map .ok), (b.membersVia list group).events⟩ := by
  show (⟨_, (b.membersVia list group).events ++ []⟩ : Traced _) = _
  rw [List.append_nil]
  rfl

/-! ## The two questions to a rule book -/

/-- What a rule book tells of members agrees with what it tells of groups. -/
structure Inverse (b : RuleBook) : Prop where
  /-- The question for groups never fails, and does not ask which IDP the entity is from. -/
  answered : ∀ w e, (Provider.ruleBook b).groupsOf w e = .ok (b.groupsOf e)
  groups : ∀ e id, id ∈ (b.groupsOf e).ids ↔
    ∃ r ∈ b.rules, e.attributes.get? r.key = some r.value ∧ r.group = id
  offered : ∀ w group, (Provider.ruleBook b).membersOf w group = b.offeredVia w.store.list group
  /-- Nothing is enumerated for a group that no rule grants. -/
  ungranted : ∀ list group, (∀ r ∈ b.rules, r.group ≠ group.id) →
    b.offeredVia list group = ⟨.ok [], []⟩
  failed : ∀ list group fault, (∃ r ∈ b.rules, r.group = group.id) →
    (list b.idp).value = .error fault →
      b.offeredVia list group =
        ⟨.error (.unavailable
          ("Failed to enumerate identities of " ++ b.idp ++ ": " ++ fault.message)),
          (list b.idp).events⟩
  enumerated : ∀ list group es, (∃ r ∈ b.rules, r.group = group.id) →
    (list b.idp).value = .ok es →
      b.offeredVia list group =
        ⟨.ok ((es.filter fun e => (b.groupsOf e).contains group.id).map .ok),
          (list b.idp).events⟩

theorem members_invert_groups (b : RuleBook) : Inverse b where
  answered _ _ := rfl
  groups _ _ := mem_groupsOf
  offered _ _ := rfl
  ungranted list group h := by
    rw [offeredVia_eq, membersVia_of_ungranted list h]
    rfl
  failed list group fault h hfault := by
    rw [offeredVia_eq, membersVia_of_granted list h, hfault]
    rfl
  enumerated list group es h hes := by
    rw [offeredVia_eq, membersVia_of_granted list h, hes]
    rfl

/-- Two rules that fit an entity make it a member once, and an entity enumerated twice is a member
twice. -/
example :
    let alice := (Entity.user "alice").withAttribute "team" "core"
    let book : RuleBook := ⟨"ldap", [⟨"team", "core", "staff"⟩, ⟨"team", "core", "staff"⟩]⟩
    (book.membersVia (fun _ => pure (.ok [alice, Entity.user "bob", alice]))
      (Entity.group "staff")).value.toOption = some [alice, alice] := by
  decide

end RuleBook
end Enrolment
