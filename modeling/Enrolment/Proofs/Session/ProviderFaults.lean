import Enrolment.Proofs.Enroller.Faults
import Enrolment.Proofs.Session.History

/-!
Faults of providers in a session: they are the answer, and the session goes on as after a success
(`provider_faults_in_session`).
-/

namespace Enrolment
namespace Session

/-- What becomes of a provider's fault in a call for the groups of an entity. -/
structure FaultPassedOn (s : Session) (on cell : Nat) (n : Enroller) (past : List (World × Call))
    (idp : String) (e : Entity) : Prop where
  /-- The answer is a fault exactly if it is that of the provider registered under this name,
  whatever the store holds and whichever of its look-ups fail. -/
  fault : ∀ store fault,
    ((s.setStore store).step (findGroups on idp e)).value.1 = .providerFault fault ↔
      ∃ p, (idp, p) ∈ n.registry.providers ∧ p.groupsOf s.world e = .error fault
  success : ∀ store,
    (¬ ∃ p fault, (idp, p) ∈ n.registry.providers ∧ p.groupsOf s.world e = .error fault) →
      ∃ all, ((s.setStore store).step (findGroups on idp e)).value.1 = .principals all
  /-- After a fault nothing but the configured ids has been looked up. -/
  unvetted : ∀ {p fault}, (idp, p) ∈ n.registry.providers → p.groupsOf s.world e = .error fault →
    Event.lookups (s.step (findGroups on idp e)).events =
      if (s.cell cell).contains idp then [] else n.standing.groupIds idp
  /-- The session is left as by the same call in a world where the provider reports. -/
  alike : ∀ {p fault now ids}, (idp, p) ∈ n.registry.providers →
    p.groupsOf s.world e = .error fault → now.store = s.store → p.groupsOf now e = .ok ids →
      ({ s with world := now }).move (.step (findGroups on idp e)) =
        { s.move (.step (findGroups on idp e)) with world := now }
  unchanged : (s.move (.step (findGroups on idp e))).world = s.world
  /-- When the provider reports again, however much later, the configured groups are there in full,
  and only what it reports is looked up. -/
  recovered : ∀ {p fault}, (idp, p) ∈ n.registry.providers → p.groupsOf s.world e = .error fault →
    ∀ (moves : List Move) (on' : Nat) (n' : Enroller) (e' : Entity) (ids : IdSet),
      ((s.move (.step (findGroups on idp e))).play moves).enrollers[on']? = some (n', cell) →
      p.groupsOf ((s.move (.step (findGroups on idp e))).play moves).world e' = .ok ids →
      let later := (s.move (.step (findGroups on idp e))).play moves
      (later.step (findGroups on' idp e')).value.1 = .principals
          ((n.standingSince (past ++ [(s.world, .groups idp e)]) idp).insertAll
            (later.store.vetAll ids.ids).value).toList ∧
        Event.lookups (later.step (findGroups on' idp e')).events = ids.ids

theorem ofReply_eq_providerFault_iff {r : Except ProviderFault GroupSet} {fault : ProviderFault} :
    ofReply (.groups r) = .providerFault fault ↔ r = .error fault := by
  cases r with
  | error other => simp only [ofReply, Answer.providerFault.injEq, Except.error.injEq]
  | ok set => simp only [ofReply, reduceCtorEq]

variable {past : Nat → List (World × Call)} {s : Session} {n : Enroller} {k on : Nat}

theorem findGroups_eq_fault_iff (hon : s.enrollers[on]? = some (n, k)) {idp : String} {e : Entity}
    {fault : ProviderFault} :
    (s.step (findGroups on idp e)).value.1 = .providerFault fault ↔
      ∃ p, (idp, p) ∈ n.registry.providers ∧ p.groupsOf s.world e = .error fault := by
  rw [answer_findGroups hon, ofReply_eq_providerFault_iff, Enroller.groups_eq_error_iff]

theorem findGroups_cases (hon : s.enrollers[on]? = some (n, k)) (idp : String) (e : Entity) :
    (∃ fault, (s.step (findGroups on idp e)).value.1 = .providerFault fault) ∨
      ∃ all, (s.step (findGroups on idp e)).value.1 = .principals all := by
  rw [answer_findGroups hon]
  cases (n.groups s.world idp e (s.cell k)).value.1 with
  | error fault => exact .inl ⟨fault, rfl⟩
  | ok set => exact .inr ⟨set.toList, rfl⟩

/-- What a call for groups leaves behind depends on the store alone, not on the providers. -/
theorem move_findGroups_congr (hon : s.enrollers[on]? = some (n, k)) (idp : String) (e : Entity)
    {now : World} (hstore : now.store = s.store) :
    ({ s with world := now }).move (.step (findGroups on idp e)) =
      { s.move (.step (findGroups on idp e)) with world := now } := by
  have hon' : ({ s with world := now } : Session).enrollers[on]? = some (n, k) := hon
  have hcache : (n.perform now (s.cell k) (.groups idp e)).value.2 =
      (n.perform s.world (s.cell k) (.groups idp e)).value.2 := by
    rw [(n.perform_groups _ _ idp e).1, (n.perform_groups _ _ idp e).1, hstore]
    rfl
  rw [findGroups, move_call hon', move_call hon]
  show ({ s with world := now } : Session).setCell k
    (n.perform now (s.cell k) (.groups idp e)).value.2 = _
  rw [hcache]
  rfl

theorem lookups_findGroups (hon : s.enrollers[on]? = some (n, k)) {idp : String} {p : Provider}
    (h : (idp, p) ∈ n.registry.providers) (e : Entity) :
    Event.lookups (s.step (findGroups on idp e)).events =
      (if (s.cell k).contains idp then [] else n.standing.groupIds idp) ++
        p.idsFor s.world e := by
  rw [findGroups, (step_call hon _).2, Enroller.lookups_groups, Enroller.reportedIds_groups h]

/-- Once a call has used the standing groups of an IDP, only what its provider reports is looked
up. -/
theorem Sharing.lookups_findGroups_later (h : Sharing past s)
    (hon : s.enrollers[on]? = some (n, k)) {c : Call} {idp : String} (hu : c.uses idp = true)
    (moves : List Move) {on' : Nat}
    (hon' : ((s.move (.step (.enroller (.call on c)))).play moves).enrollers[on']? = some (n, k))
    {p : Provider} (hp : (idp, p) ∈ n.registry.providers) (e : Entity) :
    let later := (s.move (.step (.enroller (.call on c)))).play moves
    Event.lookups (later.step (findGroups on' idp e)).events = p.idsFor later.world e := by
  intro later
  rw [lookups_findGroups hon' hp]
  cases hm : n.standing.hasIdp idp with
  | true =>
    have hentry : (later.cell k).contains idp = true := h.contains_later hon hu hm moves
    rw [if_pos hentry, List.nil_append]
  | false => rw [Standing.groupIds_of_unmapped hm, ite_self, List.nil_append]

theorem answer_findGroups_of_row (hon : s.enrollers[on]? = some (n, k)) {idp : String}
    {p : Provider} (hp : (idp, p) ∈ n.registry.providers) {e : Entity} {ids : IdSet}
    (hids : p.groupsOf s.world e = .ok ids) :
    (s.step (findGroups on idp e)).value.1 = .principals
      ((n.standingOver (s.cell k) s.world.store idp).insertAll
        (s.store.vetAll ids.ids).value).toList := by
  rw [answer_findGroups hon, Enroller.groups_of_row hp, hids]
  rfl

theorem provider_faults_in_session (w : World) (sources : Nat) (m : Standing) (r : Registry)
    (moves : List Move) {on cell : Nat} {n : Enroller}
    (hon : ((fresh w sources m r).play moves).enrollers[on]? = some (n, cell)) (idp : String)
    (e : Entity) :
    FaultPassedOn ((fresh w sources m r).play moves) on cell n
      (callsOn cell (fresh w sources m r) moves) idp e := by
  have hsharing := sharing_play w sources m r moves
  generalize (fresh w sources m r).play moves = s at hon hsharing ⊢
  have hn : (n, cell) ∈ s.enrollers := List.mem_of_getElem? hon
  have hu : Call.uses idp (.groups idp e) = true := beq_self_eq_true idp
  have hfault : ∀ store fault,
      ((s.setStore store).step (findGroups on idp e)).value.1 = .providerFault fault ↔
        ∃ p, (idp, p) ∈ n.registry.providers ∧ p.groupsOf s.world e = .error fault := by
    intro store fault
    -- The store has no part in what providers report.
    have hreport : ∀ p : Provider,
        p.groupsOf (s.setStore store).world e = p.groupsOf s.world e := fun p =>
      p.groupsOf_congr rfl e
    have hon' : (s.setStore store).enrollers[on]? = some (n, cell) := hon
    rw [findGroups_eq_fault_iff hon']
    simp only [hreport]
  constructor
  · exact hfault
  · intro store hnone
    have hon' : (s.setStore store).enrollers[on]? = some (n, cell) := hon
    refine (findGroups_cases hon' idp e).resolve_left ?_
    rintro ⟨fault, hanswer⟩
    obtain ⟨p, hp⟩ := (hfault store fault).1 hanswer
    exact hnone ⟨p, fault, hp⟩
  · intro p fault hp hr
    rw [lookups_findGroups hon hp, Provider.idsFor_of_error hr, List.append_nil]
  · intro p fault now ids _ _ hstore _
    exact move_findGroups_congr hon idp e hstore
  · rw [findGroups, move_call hon]
    rfl
  · intro p fault hp hr more on' n' e' ids hon' hids later
    obtain rfl := hsharing.alike_later hon (.groups idp e) more hon'
    have hfound : n'.standingOver (later.cell cell) later.store idp =
        n'.standingSince (callsOn cell (fresh w sources m r) moves ++ [(s.world, .groups idp e)])
          idp := by
      rw [← n'.standingOver_eq_standingSince _ _ hu]
      exact (hsharing.standingOver_later hon hu more _).trans (by rw [hsharing.cell_eq hn])
    constructor
    · rw [answer_findGroups_of_row hon' hp hids]
      exact congrArg (fun set : GroupSet => Answer.principals (set.insertAll _).toList) hfound
    -- The call that failed has made the entry, if the IDP is mapped at all.
    · exact (hsharing.lookups_findGroups_later hon hu more hon' hp e').trans
        (Provider.idsFor_of_ok hids)

def providerDown : Session :=
  oneProvider { World.oneGroup "staff" with
    sources := fun _ => ⟨fun _ => .error (.unavailable "down"), fun _ => .ok []⟩ }

def enrollerCopied : List Move := [.step (.enroller (.create none)), .step (.enroller (.copy 0))]

/-- The provider recovers when the group is gone: the copy still grants what was vetted in the call
that failed, and looks up only the report. -/
theorem provider_faults_while_down :
    let n := Enroller.oneProvider "ldap" "staff" rfl
    let s := providerDown.play enrollerCopied
    let alice := Entity.user "alice"
    let later := (s.move (.step (findGroups 0 "ldap" alice))).play
      [.step (.store (.remove "staff")),
        .step (.registry (.setGroups "ldap" (.ok (IdSet.ofList ["guests"]))))]
    s.enrollers[0]? = some (n, 0) ∧
      FaultPassedOn s 0 0 n (callsOn 0 providerDown enrollerCopied) "ldap" alice ∧
      (s.step (findGroups 0 "ldap" alice)).value.1 = .providerFault (.unavailable "down") ∧
      (later.step (findGroups 1 "ldap" alice)).value.1 = .principals [⟨"staff", .group⟩] ∧
      Event.lookups (later.step (findGroups 1 "ldap" alice)).events = ["guests"] := by
  intro n s alice later
  have hon : s.enrollers[0]? = some (n, 0) := rfl
  have hpassed := provider_faults_in_session _ _ _ _ enrollerCopied hon "ldap" alice
  have hrow : ("ldap", .outside 0) ∈ n.registry.providers := List.mem_singleton.2 rfl
  obtain ⟨hanswer, hlookups⟩ := hpassed.recovered hrow rfl
    [.step (.store (.remove "staff")),
      .step (.registry (.setGroups "ldap" (.ok (IdSet.ofList ["guests"]))))] 1 n alice
    (IdSet.ofList ["guests"]) rfl rfl
  exact ⟨hon, hpassed, (hpassed.fault s.store _).2 ⟨_, hrow, rfl⟩, hanswer, hlookups⟩

end Session
end Enrolment
