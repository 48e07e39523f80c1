import Enrolment.Proofs.Enroller.Outlook
import Enrolment.Proofs.Registry.Registration
import Enrolment.Proofs.Session.History

/-!
The part of a session that its enrollers and caches have no influence on: the world, the standing
groups and the registry that the next enroller will be made from.

Outside providers are numbered as they are registered, so no two names share one (`Numbered`), and
a provider that is registered later is new to every enroller made before.
-/

namespace Enrolment

/-- What a step makes of the store. -/
def StoreStep.after : StoreStep → Store → Store
  | .add e, s => { s with directory := s.directory.add e }
  | .remove id, s => { s with directory := (s.directory.remove id).2 }
  | .failId id fault?, s => { s with outages := s.outages.setId id fault? }
  | .failOthers fault?, s => { s with outages := { s.outages with otherIds := fault? } }
  | .failEnumeration fault?, s => { s with outages := { s.outages with enumeration := fault? } }
  | _, s => s

/-- What a step makes of the standing groups. -/
def StandingStep.after : StandingStep → Standing → Standing
  | .assign idp ids, m => m.assign idp ids
  | .replace rows, _ => Standing.ofList rows
  | .configure text, m =>
    match Configuration.ofText text with
    | .ok c => Standing.ofConfiguration c
    | .error _ => m
  | .query _ _, m => m

namespace Session

/-- The session without its enrollers and caches. -/
def ambient (s : Session) : Session := fresh s.world s.sources s.standing s.registry

theorem ambient_eq_iff {s t : Session} :
    t.ambient = s.ambient ↔ t.world = s.world ∧ t.sources = s.sources ∧
      t.standing = s.standing ∧ t.registry = s.registry := by
  simp [ambient, fresh]

/-! ## Steps on the store, the standing groups and the registry -/

theorem storeStep_eq (s : Session) (x : StoreStep) :
    (s.storeStep x).value.2 = s.setStore (x.after s.store) := by
  cases x with
  | remove id =>
    simp only [storeStep, StoreStep.after]
    cases h : s.store.directory.find? id with
    | none => rw [Directory.remove_of_find?_eq_none h]; rfl
    | some e => rw [Directory.remove_of_find?_eq_some h]; rfl
  | get id =>
    simp only [storeStep, Traced.value_bind]
    split <;> rfl
  | list idp =>
    simp only [storeStep, Traced.value_bind]
    split <;> rfl
  | vet id =>
    simp only [storeStep, Traced.value_bind]
    split <;> rfl
  | compare a b =>
    simp only [storeStep, Traced.value_bind]
    split <;> rfl
  | _ => rfl

theorem standingStep_eq (s : Session) (x : StandingStep) :
    (s.standingStep x).2 = { s with standing := x.after s.standing } := by
  cases x with
  | configure text =>
    simp only [standingStep, StandingStep.after]
    cases Configuration.ofText text <;> rfl
  | _ => rfl

/-- What a registration does to a session. -/
theorem registryStep_register (s : Session) (idp : String) (p : NewProvider) :
    (s.registryStep (.register idp p)).value.2 =
      match (s.registry.register idp (s.prepare p).1).1 with
      | .ok _ => { (s.prepare p).2.2 with
          registry := (s.registry.register idp (s.prepare p).1).2 }
      | .error _ => { s with registry := (s.registry.register idp (s.prepare p).1).2 } := by
  simp only [registryStep]
  generalize s.registry.register idp (s.prepare p).1 = result
  obtain ⟨outcome, r⟩ := result
  cases outcome <;> rfl

theorem registryStep_setGroups (s : Session) (idp : String)
    (groups : Except ProviderFault IdSet) :
    (s.registryStep (.setGroups idp groups)).value.2 =
      s.changeSource idp ({ · with groupsOf := fun _ => groups }) := rfl

theorem registryStep_setMembers (s : Session) (idp : String)
    (members : Except ProviderFault (List Item)) :
    (s.registryStep (.setMembers idp members)).value.2 =
      s.changeSource idp ({ · with membersOf := fun _ => members }) := rfl

theorem registryStep_groupsOf (s : Session) (idp : String) (e : Entity) :
    (s.registryStep (.groupsOf idp e)).value.2 = s := by
  simp only [registryStep]
  split
  · rfl
  · simp only [Traced.value_bind]
    split <;> rfl

theorem registryStep_membersOf (s : Session) (idp : String) (group : Entity) :
    (s.registryStep (.membersOf idp group)).value.2 = s := by
  simp only [registryStep]
  split
  · rfl
  · simp only [Traced.value_bind]
    split <;> rfl

/-- A step on the registry that registers nothing only changes what a provider answers, if
anything. -/
theorem registryStep_cases (s : Session) (x : RegistryStep) :
    (∃ idp p, x = .register idp p) ∨ (∃ idp f, (s.registryStep x).value.2 = s.changeSource idp f) ∨
      (s.registryStep x).value.2 = s := by
  cases x with
  | register idp p => exact .inl ⟨idp, p, rfl⟩
  | setGroups idp groups => exact .inr (.inl ⟨idp, _, s.registryStep_setGroups idp groups⟩)
  | setMembers idp members => exact .inr (.inl ⟨idp, _, s.registryStep_setMembers idp members⟩)
  | groupsOf idp e => exact .inr (.inr (s.registryStep_groupsOf idp e))
  | membersOf idp group => exact .inr (.inr (s.registryStep_membersOf idp group))
  | _ => exact .inr (.inr rfl)

theorem ambient_changeSource (s : Session) (idp : String) (f : Source → Source) :
    s.ambient.changeSource idp f = (s.changeSource idp f).ambient := by
  simp only [changeSource, ambient, fresh]
  cases s.registry.get? idp with
  | none => rfl
  | some p => cases p <;> rfl

theorem ambient_registryStep (s : Session) (x : RegistryStep) :
    (s.ambient.registryStep x).value.2 = (s.registryStep x).value.2.ambient := by
  cases x with
  | register idp p =>
    have hprepare : (s.ambient.prepare p).1 = (s.prepare p).1 ∧
        (s.ambient.prepare p).2.2 = (s.prepare p).2.2.ambient := by
      cases p <;> exact ⟨rfl, rfl⟩
    have hregistry : s.ambient.registry = s.registry := rfl
    rw [registryStep_register, registryStep_register, hprepare.1, hprepare.2, hregistry]
    cases (s.registry.register idp (s.prepare p).1).1 <;> rfl
  | groupsOf idp e => rw [registryStep_groupsOf, registryStep_groupsOf]
  | membersOf idp group => rw [registryStep_membersOf, registryStep_membersOf]
  | setGroups idp groups =>
    rw [registryStep_setGroups, registryStep_setGroups, ambient_changeSource]
  | setMembers idp members =>
    rw [registryStep_setMembers, registryStep_setMembers, ambient_changeSource]
  | _ => rfl

theorem ambient_standingStep (s : Session) (x : StandingStep) :
    (s.ambient.standingStep x).2 = (s.standingStep x).2.ambient := by
  rw [standingStep_eq, standingStep_eq]
  rfl

/-! ## Steps on enrollers and caches -/

theorem ambient_enrollerStep (s : Session) (x : EnrollerStep) :
    (s.enrollerStep x).value.2.ambient = s.ambient := by
  cases x with
  | create config? =>
    cases config? with
    | none => rfl
    | some text =>
      simp only [enrollerStep]
      split <;> rfl
  | copy on =>
    simp only [enrollerStep]
    split <;> rfl
  | call on c =>
    simp only [enrollerStep]
    split <;> rfl
  | stats on =>
    simp only [enrollerStep]
    split <;> rfl

theorem ambient_cacheStep (s : Session) (x : CacheStep) :
    (s.cacheStep x).value.2.ambient = s.ambient := by
  cases x with
  | create => rfl
  | _ =>
    simp only [cacheStep, withCache]
    split <;> rfl

/-! ## Numbers of outside providers -/

/-- The outside providers of a registry have different numbers, all of them given out. -/
structure Numbered (s : Session) : Prop where
  given : ∀ {idp k}, (idp, .outside k) ∈ s.registry.providers → k < s.sources
  single : ∀ {idp idp' k}, (idp, .outside k) ∈ s.registry.providers →
    (idp', .outside k) ∈ s.registry.providers → idp = idp'

/-- A registration is refused, or it adds a row and, for an outside provider, its number. -/
theorem register_cases (s : Session) (idp : String) (p : NewProvider) :
    (s.registryStep (.register idp p)).value.2 = s ∨
      ((s.registryStep (.register idp p)).value.2.registry.providers =
          s.registry.providers ++ [(idp, (s.prepare p).1)] ∧
        (s.registryStep (.register idp p)).value.2.world = (s.prepare p).2.2.world ∧
        (s.registryStep (.register idp p)).value.2.sources = (s.prepare p).2.2.sources) := by
  rw [registryStep_register]
  rcases s.registry.register_cases idp (s.prepare p).1 with ⟨_, h⟩ | ⟨_, _, h⟩ | ⟨_, _, h, hrows⟩
  · rw [h]
    exact .inl rfl
  · rw [h]
    exact .inl rfl
  · rw [h]
    exact .inr ⟨hrows, rfl, rfl⟩

theorem Numbered.of_eq {s t : Session} (h : Numbered s)
    (hregistry : t.registry = s.registry) (hsources : t.sources = s.sources) : Numbered t := by
  constructor
  · rw [hregistry, hsources]; exact h.given
  · rw [hregistry]; exact h.single

theorem Numbered.changeSource {s : Session} (h : Numbered s) (idp : String)
    (f : Source → Source) : Numbered (s.changeSource idp f) := by
  rw [Session.changeSource]
  split
  · exact h.of_eq rfl rfl
  · exact h

/-- An outside provider gets the next number, and no other provider has one. -/
theorem prepare_outside {s : Session} {p : NewProvider} {k : Nat}
    (h : (s.prepare p).1 = .outside k) :
    k = s.sources ∧ (s.prepare p).2.2.sources = s.sources + 1 := by
  cases p with
  | outside source => exact ⟨(Provider.outside.inj h).symm, rfl⟩
  | allowList l => cases h
  | ruleBook b => cases h

theorem sources_le_prepare (s : Session) (p : NewProvider) :
    s.sources ≤ (s.prepare p).2.2.sources := by
  cases p with
  | outside source => exact Nat.le_succ _
  | allowList l => exact Nat.le_refl _
  | ruleBook b => exact Nat.le_refl _

theorem Numbered.register {s : Session} (h : Numbered s) (idp : String) (p : NewProvider) :
    Numbered (s.registryStep (.register idp p)).value.2 := by
  rcases s.register_cases idp p with hsame | ⟨hrows, _, hsources⟩
  · rw [hsame]
    exact h
  · have hcases : ∀ {name k}, (name, Provider.outside k) ∈
        s.registry.providers ++ [(idp, (s.prepare p).1)] →
        (name, .outside k) ∈ s.registry.providers ∨
          (name = idp ∧ (s.prepare p).1 = .outside k) := by
      intro name k hmem
      rcases List.mem_append.1 hmem with hold | hlast
      · exact .inl hold
      · obtain ⟨hname, hk⟩ := Prod.mk.inj (List.mem_singleton.1 hlast)
        exact .inr ⟨hname, hk.symm⟩
    constructor
    · intro name k hmem
      rw [hrows] at hmem
      rw [hsources]
      rcases hcases hmem with hold | ⟨_, hk⟩
      · exact Nat.lt_of_lt_of_le (h.given hold) (s.sources_le_prepare p)
      · obtain ⟨rfl, hnext⟩ := prepare_outside hk
        rw [hnext]
        exact Nat.lt_succ_self _
    · intro name name' k hmem hmem'
      rw [hrows] at hmem hmem'
      rcases hcases hmem with hold | ⟨hname, hk⟩ <;> rcases hcases hmem' with hold' | ⟨hname', hk'⟩
      · exact h.single hold hold'
      · exact absurd (h.given hold) ((prepare_outside hk').1 ▸ Nat.lt_irrefl _)
      · exact absurd (h.given hold') ((prepare_outside hk).1 ▸ Nat.lt_irrefl _)
      · exact hname.trans hname'.symm

theorem Numbered.move {s : Session} (h : Numbered s) (m : Move) : Numbered (s.move m) := by
  cases m with
  | world w => exact h.of_eq rfl rfl
  | step x =>
    cases x with
    | store x =>
      show Numbered (s.storeStep x).value.2
      rw [storeStep_eq]
      exact h.of_eq rfl rfl
    | standing x =>
      show Numbered (s.standingStep x).2
      rw [standingStep_eq]
      exact h.of_eq rfl rfl
    | enroller x =>
      have hsame := ambient_eq_iff.1 (s.ambient_enrollerStep x)
      exact h.of_eq hsame.2.2.2 hsame.2.1
    | cache x =>
      have hsame := ambient_eq_iff.1 (s.ambient_cacheStep x)
      exact h.of_eq hsame.2.2.2 hsame.2.1
    | registry x =>
      show Numbered (s.registryStep x).value.2
      rcases s.registryStep_cases x with ⟨idp, p, rfl⟩ | ⟨idp, f, hx⟩ | hx
      · exact h.register idp p
      · rw [hx]
        exact h.changeSource idp f
      · rw [hx]
        exact h

end Session
end Enrolment
