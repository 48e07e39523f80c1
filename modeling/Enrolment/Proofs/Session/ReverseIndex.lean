import Enrolment.Proofs.Enroller.ReverseIndex
import Enrolment.Proofs.Session.Answers
import Enrolment.Proofs.Session.History
import Mathlib.Data.List.Nodup

/-!
The IDPs that grant a principal, asked of an enroller in a session.

Two things are shown of the question, in `idpsGranting_in_session`.  It agrees with the groups found
for the IDPs by the calls around it, and it fixes its own answers for the rest of the session,
whatever becomes of the store: from then on it reads nothing.
-/

namespace Enrolment
namespace Session

/-- The part of an answer for groups that the standing groups of the IDP account for: it is found or
vetted before a provider is asked, it is the whole answer if there is no provider, and the report of
a provider adds to it. -/
structure StandingPart (s : Session) (on cell : Nat) (n : Enroller) (idp : String) (e : Entity)
    (part : GroupSet) : Prop where
  found : (n.standingSet s.world.store idp (s.cell cell)).value.1 = part
  alone : n.registry.get? idp = none →
    (s.step (findGroups on idp e)).value.1 = .principals part.toList
  contained : ∀ p ids, n.registry.get? idp = some p → p.groupsOf s.world e = .ok ids →
    ∃ all, (s.step (findGroups on idp e)).value.1 = .principals all ∧ ∀ q ∈ part.toList, q ∈ all

/-- What the question for the IDPs that grant a principal answers and does in a session, and what it
means for the questions after it. -/
structure ReverseIndex (s : Session) (on cell : Nat) (n : Enroller) (p : Principal) : Prop where
  /-- A call for groups before the question finds the principal's name among the standing groups
  exactly if the IDP is in the answer. -/
  before : ∀ idp e now, ∃ part, StandingPart s on cell n idp e part ∧
    ∃ names,
      (((s.move (.step (findGroups on idp e))).move (.world now)).step (findIdps on p)).value.1 =
          .texts names ∧
        (idp ∈ names ↔ n.standing.hasIdp idp = true ∧ part.hasName p.name = true)
  /-- So does a call for groups after the question. -/
  after : ∀ idp e now, ∃ part,
    StandingPart ((s.move (.step (findIdps on p))).move (.world now)) on cell n idp e part ∧
      ∃ names, (s.step (findIdps on p)).value.1 = .texts names ∧
        (idp ∈ names ↔ n.standing.hasIdp idp = true ∧ part.hasName p.name = true)
  anyKind : ∀ kind, s.step (findIdps on ⟨p.name, kind⟩) = s.step (findIdps on p)
  filled : ∀ idp, n.standing.hasIdp idp = true →
    ((s.move (.step (findIdps on p))).cell cell).sets.keys.count idp = 1
  /-- The sizes of the cache and of the mapping differ exactly if an entry is missing. -/
  sizes : (s.cell cell).size < n.standing.size ↔
    ∃ idp, n.standing.hasIdp idp = true ∧ (s.cell cell).contains idp = false
  announced : (∃ d ∈ Event.notes (s.step (findIdps on p)).events,
      d.message = "Populating auto-membership cache for all configured IDPs") ↔
    ∃ idp, n.standing.hasIdp idp = true ∧ (s.cell cell).contains idp = false
  /-- Once the question was put, for whatever principal, the answers are settled. -/
  frozen : ∀ (q : Principal) (moves : List Move) (on' : Nat) (n' : Enroller),
    ((s.move (.step (findIdps on q))).play moves).enrollers[on']? = some (n', cell) →
      let later := ((s.move (.step (findIdps on q))).play moves).step (findIdps on' p)
      later.value.1 = (s.step (findIdps on p)).value.1 ∧
        Event.lookups later.events = [] ∧ Event.enumerations later.events = []

variable {past : Nat → List (World × Call)} {s : Session} {n : Enroller} {k on : Nat}

theorem answer_findIdps (hon : s.enrollers[on]? = some (n, k)) (p : Principal) :
    (s.step (findIdps on p)).value.1 = .texts (n.standing.idps.filter fun idp =>
      (n.standingOver (s.cell k) s.world.store idp).hasName p.name) := by
  rw [findIdps, (step_call hon _).1, Enroller.value_perform_over]
  rfl

theorem standingPart (hon : s.enrollers[on]? = some (n, k)) (idp : String) (e : Entity) :
    StandingPart s on k n idp e (n.standingOver (s.cell k) s.world.store idp) where
  found := n.value_standingSet s.world.store idp (s.cell k)
  alone h := by
    rw [answer_findGroups hon, Enroller.groups_of_no_provider h]
    rfl
  contained p ids hp hids := by
    rw [answer_findGroups hon, Enroller.groups_of_answer hp, hids]
    refine ⟨_, rfl, fun q hq => ?_⟩
    rw [GroupSet.mem_toList, GroupSet.find?_insertAll, GroupSet.mem_toList.1 hq, Option.some_or]

theorem mem_granting {standing : String → GroupSet} {p : Principal} {idp : String} :
    (idp ∈ n.standing.idps.filter fun idp => (standing idp).hasName p.name) ↔
      n.standing.hasIdp idp = true ∧ (standing idp).hasName p.name = true := by
  rw [List.mem_filter, Standing.mem_idps_iff]

theorem events_findIdps (hon : s.enrollers[on]? = some (n, k)) (p : Principal) :
    (s.step (findIdps on p)).events = (n.idpsGranting s.world.store p (s.cell k)).events := by
  rw [findIdps, (step_call hon _).2, (n.perform_idpsGranting _ _ p).2]

theorem Sharing.size_lt_iff (h : Sharing past s) (hn : (n, k) ∈ s.enrollers) :
    (s.cell k).size < n.standing.size ↔
      ∃ idp, n.standing.hasIdp idp = true ∧ (s.cell k).contains idp = false := by
  rw [h.cell_eq hn]
  exact n.size_run_lt_iff _

/-- With an entry for every mapped IDP, the question does nothing but find them. -/
theorem Sharing.events_findIdps_of_filled (h : Sharing past s)
    (hon : s.enrollers[on]? = some (n, k))
    (hfilled : ∀ {idp}, n.standing.hasIdp idp = true → (s.cell k).contains idp = true)
    (p : Principal) :
    (s.step (findIdps on p)).events = n.standing.idps.map fun idp => .note (.hit idp) := by
  have hsize : ¬ (s.cell k).size < n.standing.size := by
    rw [h.size_lt_iff (List.mem_of_getElem? hon)]
    rintro ⟨idp, hm, hmissing⟩
    rw [hfilled hm] at hmissing
    cases hmissing
  rw [events_findIdps hon, Enroller.events_idpsGranting, if_neg hsize, List.nil_append]
  exact n.events_standingSets_of_cached _ fun idp hidp =>
    hfilled (Standing.mem_idps_iff.1 hidp)

theorem idpsGranting_in_session (w : World) (sources : Nat) (m : Standing) (r : Registry)
    (moves : List Move) {on cell : Nat} {n : Enroller}
    (hon : ((fresh w sources m r).play moves).enrollers[on]? = some (n, cell)) (p : Principal) :
    ReverseIndex ((fresh w sources m r).play moves) on cell n p := by
  have hsharing := sharing_play w sources m r moves
  generalize (fresh w sources m r).play moves = s at hon hsharing ⊢
  have hn : (n, cell) ∈ s.enrollers := List.mem_of_getElem? hon
  have hu : ∀ (q : Principal) idp, Call.uses idp (.idpsGranting q) = true := fun _ _ => rfl
  constructor
  · intro idp e now
    refine ⟨n.standingOver (s.cell cell) s.world.store idp, standingPart hon idp e, _,
      answer_findIdps (getElem?_enrollers_call hon (.groups idp e) [.world now]) p, ?_⟩
    have hu : Call.uses idp (.groups idp e) = true := beq_self_eq_true idp
    rw [← hsharing.standingOver_later hon hu [.world now] now.store]
    exact mem_granting
  · intro idp e now
    have hlater : n.standingOver ((s.move (.step (findIdps on p))).cell cell) now.store idp =
        n.standingOver (s.cell cell) s.world.store idp :=
      hsharing.standingOver_later hon (hu p idp) [] now.store
    have hon' : ((s.move (.step (findIdps on p))).move (.world now)).enrollers[on]? =
        some (n, cell) := getElem?_enrollers_call hon (.idpsGranting p) [.world now]
    refine ⟨n.standingOver ((s.move (.step (findIdps on p))).cell cell) now.store idp,
      standingPart hon' idp e, _, answer_findIdps hon p, ?_⟩
    rw [hlater]
    exact mem_granting
  · intro kind
    rfl
  · intro idp hm
    have hcontains := hsharing.contains_later hon (hu p idp) hm []
    exact List.count_eq_one_of_mem (Table.nodup_keys _) (Cache.contains_iff.1 hcontains)
  · exact hsharing.size_lt_iff hn
  · rw [events_findIdps hon, n.announced_iff]
    exact hsharing.size_lt_iff hn
  · intro q more on' n' hon'
    obtain rfl := hsharing.alike_later hon (.idpsGranting q) more hon'
    intro later
    have hlater : n'.standingOver (((s.move (.step (findIdps on q))).play more).cell cell)
        ((s.move (.step (findIdps on q))).play more).world.store =
          n'.standingOver (s.cell cell) s.world.store :=
      funext fun idp => hsharing.standingOver_later hon (hu q idp) more _
    have hevents : later.events = n'.standing.idps.map fun idp => .note (.hit idp) :=
      ((hsharing.move _).play more).events_findIdps_of_filled hon'
        (fun hm => hsharing.contains_later hon (hu q _) hm more) p
    rw [hevents]
    refine ⟨?_, Enroller.reads_of_hits _⟩
    rw [answer_findIdps hon' p, answer_findIdps hon p, hlater]

/-- The group is no longer in the store, but its IDP is found through the copy, by name alone. -/
theorem idpsGranting_after_removal :
    (staffed.play staffRemoved).enrollers[1]? = some (Enroller.oneGroup "ldap" "staff", 0) ∧
      ((staffed.play staffRemoved).step (findIdps 1 ⟨"staff", .other⟩)).value.1 =
        .texts ["ldap"] ∧
      ReverseIndex (staffed.play staffRemoved) 1 0 (Enroller.oneGroup "ldap" "staff")
        ⟨"staff", .other⟩ :=
  ⟨rfl, rfl, idpsGranting_in_session _ _ _ _ staffRemoved rfl _⟩

end Session
end Enrolment
