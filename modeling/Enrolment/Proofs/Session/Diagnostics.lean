import Enrolment.Proofs.Enroller.Diagnostics
import Enrolment.Proofs.Session.History

/-!
What an enroller of a session notes about the ids that it drops (`drops_noted`).

Nobody who asks for groups hears of an id that vetting drops, so the notices are all there is to
tell a mistake in the configuration from a failure that passes.
-/

namespace Enrolment
namespace Session

/-- The notices of a call for the groups of an entity, each of them accounted for. -/
structure DropsNoted (s : Session) (on cell : Nat) (n : Enroller) (idp : String) (e : Entity) :
    Prop where
  /-- At the first use of a mapped IDP, every position of its list has its own part, and the last
  notice tells the length of the list and the number of names that are kept. -/
  first : n.standing.hasIdp idp = true → (s.cell cell).contains idp = false →
    ∃ parts kept reported,
      List.Forall₂ s.store.Examined (n.standing.groupIds idp) parts ∧
      ((s.move (.step (findGroups on idp e))).cell cell).sets.get? idp = some kept ∧
      kept.names.Nodup ∧
      (∀ name, name ∈ kept.names ↔ ∃ id ∈ n.standing.groupIds idp, s.store.Denotes id name) ∧
      n.Reported s.world idp e reported ∧
      Event.notices (s.step (findGroups on idp e)).events = parts.flatten ++
        ⟨.debug, "Populated auto-membership cache entry",
          [("idp_name", idp), ("configured", Nat.repr (n.standing.groupIds idp).length),
            ("verified", Nat.repr kept.names.length)]⟩ :: reported
  /-- Later the configured ids are passed over. -/
  later : (s.cell cell).contains idp = true →
    ∃ reported, n.Reported s.world idp e reported ∧
      Event.notices (s.step (findGroups on idp e)).events =
        ⟨.trace, "Auto-membership cache hit", [("idp_name", idp)]⟩ :: reported
  unmapped : n.standing.hasIdp idp = false →
    n.Reported s.world idp e (Event.notices (s.step (findGroups on idp e)).events)

variable {past : Nat → List (World × Call)} {s : Session} {n : Enroller} {k on : Nat}

theorem notices_findGroups (hon : s.enrollers[on]? = some (n, k)) (idp : String) (e : Entity) :
    Event.notices (s.step (findGroups on idp e)).events =
      Event.notices (n.standingSet s.world.store idp (s.cell k)).events ++
        Event.notices (n.providerEvents s.world idp e) := by
  rw [findGroups, (step_call hon _).2, (n.perform_groups _ _ idp e).2, Event.notices_append]

/-- Only mapped IDPs have an entry. -/
theorem Sharing.hasIdp_of_contains (h : Sharing past s) (hn : (n, k) ∈ s.enrollers) {idp : String}
    (hc : (s.cell k).contains idp = true) : n.standing.hasIdp idp = true := by
  rw [h.cell_eq hn, Cache.contains_iff] at hc
  exact Standing.mem_idps_iff.1 (n.keys_run_subset _ hc)

/-- The first use of a mapped IDP leaves its groups behind as they were vetted. -/
theorem Sharing.get?_findGroups (h : Sharing past s) (hon : s.enrollers[on]? = some (n, k))
    {idp : String} (hm : n.standing.hasIdp idp = true) (hc : (s.cell k).contains idp = false)
    (e : Entity) :
    ((s.move (.step (findGroups on idp e))).cell k).sets.get? idp =
      some (n.vetted s.world.store idp) := by
  have hnone : (s.cell k).sets.get? idp = none := by
    rw [Cache.contains_eq_isSome, Option.isSome_eq_false_iff, Option.isNone_iff_eq_none] at hc
    exact hc
  have hu : Call.uses idp (.groups idp e) = true := beq_self_eq_true idp
  rw [findGroups, h.cell_move_call hon, Enroller.get?_perform, hnone, hu, if_pos rfl,
    Option.none_or, Enroller.fresh?_of_mapped hm]

theorem drops_noted (w : World) (sources : Nat) (m : Standing) (r : Registry) (moves : List Move)
    {on cell : Nat} {n : Enroller}
    (hon : ((fresh w sources m r).play moves).enrollers[on]? = some (n, cell)) (idp : String)
    (e : Entity) : DropsNoted ((fresh w sources m r).play moves) on cell n idp e := by
  have hsharing := sharing_play w sources m r moves
  generalize (fresh w sources m r).play moves = s at hon hsharing ⊢
  have hreported := n.reported_providerEvents s.world idp e
  constructor
  · intro hm hc
    obtain ⟨parts, hparts, hnotices⟩ := n.notices_standingSet_first (s := s.world.store) hm hc
    refine ⟨parts, n.vetted s.world.store idp, _, hparts, ?_, ?_, ?_, hreported, ?_⟩
    · exact hsharing.get?_findGroups hon hm hc e
    · exact GroupSet.nodup_names _
    · exact fun name => n.mem_names_vetted
    · rw [notices_findGroups hon, hnotices, List.append_assoc]
      rfl
  · intro hc
    refine ⟨_, hreported, ?_⟩
    rw [notices_findGroups hon, n.notices_standingSet_cached hc]
    rfl
  · intro hm
    have hc : (s.cell cell).contains idp = false := by
      apply Bool.eq_false_iff.2
      intro hcontains
      rw [hsharing.hasIdp_of_contains (List.mem_of_getElem? hon) hcontains] at hm
      cases hm
    rw [notices_findGroups hon, n.notices_standingSet_unmapped hm hc]
    exact hreported

/-- A store in which of four ids one is no group, one is no group's principal, one cannot be read
and one is a group, and a provider that reports an id that nothing bears. -/
def troubled : World where
  store :=
    { directory := Directory.ofList [Entity.group "staff", Entity.user "alice",
        (Entity.group "odd").withPrincipal ⟨"Odd", .other⟩, Entity.group "down"]
      policy := Policy.byKind
      outages := Outages.none.setId "down" (some (.io "timed out")) }
  sources _ := ⟨fun _ => .ok (IdSet.ofList ["guests", "staff"]), fun _ => .ok []⟩

def troubledSession : Session :=
  fresh troubled 1
    (Standing.empty.assign "ldap" ["staff", "alice", "odd", "down", "ghost", "alice", "staff"])
    (Registry.empty.register "ldap" (.outside 0)).2

/-- Seven ids of which two are the same group, and one of two reported: the repeated user is noted
twice, and the two positions of the group are kept as one. -/
theorem drops_noted_troubled :
    let s := troubledSession.move (.step (.enroller (.create none)))
    let n : Enroller := ⟨troubledSession.standing, troubledSession.registry⟩
    s.enrollers[0]? = some (n, 0) ∧
      DropsNoted s 0 0 n "ldap" (Entity.user "bob") ∧
      n.standing.hasIdp "ldap" = true ∧ (s.cell 0).contains "ldap" = false ∧
      (Event.notices (s.step (findGroups 0 "ldap" (Entity.user "bob"))).events).map Notice.fields =
        [[("group_id", "alice")], [("group_id", "odd"), ("principal", "Odd")],
          [("group_id", "down"), ("error", "I/O error: timed out")], [("group_id", "ghost")],
          [("group_id", "alice")], [("idp_name", "ldap"), ("configured", "7"), ("verified", "1")],
          [("group_id", "guests")]] := by
  intro s n
  have hon : s.enrollers[0]? = some (n, 0) := rfl
  have hnoted := drops_noted troubled 1 troubledSession.standing troubledSession.registry
    [.step (.enroller (.create none))] hon "ldap" (Entity.user "bob")
  exact ⟨hon, hnoted, rfl, rfl, by decide⟩

end Session
end Enrolment
