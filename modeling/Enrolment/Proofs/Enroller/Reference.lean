import Enrolment.Proofs.Enroller.FirstUse
import Enrolment.Proofs.Enroller.Members

/-!
An enroller without a cache.

The reference answers a call from the calls up to it, each with the world at its time.  The standing
groups of an IDP are vetted again at every call, in the world in which the run used them first; the
groups that a provider reports are vetted in the world of the call.  `value_perform` says that the
enroller with its cache answers the same.
-/

namespace Enrolment
namespace Enroller

/-- The standing groups of an IDP as a run sees them; none if the IDP is not mapped. -/
def standingSince (n : Enroller) (calls : List (World × Call)) (idp : String) : GroupSet :=
  (n.kept? calls idp).getD GroupSet.empty

/-- The answer to a call if the standing groups of the IDPs are as given. -/
def answerFrom (n : Enroller) (standing : String → GroupSet) (w : World) : Call → Reply
  | .groups idp e => .groups <|
    match n.registry.get? idp with
    | none => .ok (standing idp)
    | some p => (p.groupsOf w e).map fun ids =>
        (standing idp).insertAll (w.store.vetAll ids.ids).value
  | .isMember idp group e => .isMember <|
    if n.standing.hasGroup idp group then .ok true
    else match n.registry.get? idp with
      | none => .ok false
      | some p => (p.groupsOf w e).map (·.contains group)
  | .members group => .members (n.registry.providers.flatMap (·.2.contribution w group))
  | .idpsGranting p => .idps (n.standing.idps.filter fun idp => (standing idp).hasName p.name)

/-- The answer to a call after some others, without a cache. -/
def reference (n : Enroller) (past : List (World × Call)) (w : World) (call : Call) : Reply :=
  n.answerFrom (n.standingSince (past ++ [(w, call)])) w call

/-- The standing groups that a call in a world finds over a cache. -/
def standingOver (n : Enroller) (c : Cache) (s : Store) (idp : String) : GroupSet :=
  ((c.sets.get? idp).or (n.fresh? s idp)).getD GroupSet.empty

theorem value_groups (n : Enroller) (w : World) (idp : String) (e : Entity) (c : Cache) :
    Reply.groups (n.groups w idp e c).value.1 =
      n.answerFrom (n.standingOver c w.store) w (.groups idp e) := by
  rw [answerFrom, groups, Traced.value_bind, standingOver, ← value_standingSet]
  cases n.registry.get? idp with
  | none => rfl
  | some p =>
    simp only [Traced.value_bind, World.askGroups]
    cases p.groupsOf w e <;> rfl

theorem value_isMember (n : Enroller) (w : World) (idp group : String) (e : Entity)
    (standing : String → GroupSet) :
    Reply.isMember (n.isMember w idp group e).value =
      n.answerFrom standing w (.isMember idp group e) := by
  rw [answerFrom, isMember]
  split
  · rfl
  · cases n.registry.get? idp <;> rfl

theorem value_idpsGranting (n : Enroller) (w : World) (p : Principal) (c : Cache) :
    Reply.idps (n.idpsGranting w.store p c).value.1 =
      n.answerFrom (n.standingOver c w.store) w (.idpsGranting p) := by
  have hnames : (n.idpsGranting w.store p c).value.1 =
      ((n.standingSets w.store n.standing.idps c).value.1.filter (·.2.hasName p.name)).map
        Prod.fst := by
    rw [idpsGranting]
    split <;> rfl
  rw [hnames, value_standingSets, List.filter_map, List.map_map, answerFrom]
  exact congrArg Reply.idps (List.map_id _)

theorem value_perform_over (n : Enroller) (w : World) (c : Cache) (call : Call) :
    (n.perform w c call).value.1 = n.answerFrom (n.standingOver c w.store) w call := by
  cases call with
  | groups idp e => exact value_groups n w idp e c
  | isMember idp group e => exact value_isMember n w idp group e _
  | members group =>
    show Reply.members ((n.members group).rest w).value = _
    rw [Cursor.value_rest]
    rfl
  | idpsGranting p => exact value_idpsGranting n w p c

/-- An answer needs the standing groups of those IDPs only that the call uses. -/
theorem answerFrom_congr (n : Enroller) {standing other : String → GroupSet} (w : World)
    {call : Call} (h : ∀ idp, call.uses idp = true → standing idp = other idp) :
    n.answerFrom standing w call = n.answerFrom other w call := by
  cases call with
  | groups idp e => rw [answerFrom, answerFrom, h idp (beq_self_eq_true idp)]
  | isMember idp group e => rfl
  | members group => rfl
  | idpsGranting p =>
    have hsame : standing = other := funext fun idp => h idp rfl
    rw [hsame]

/-- What a call finds after a run is what the reference takes for it: the call itself is a use, and
counts as the first one if there was none before. -/
theorem standingOver_eq_standingSince (n : Enroller) (past : List (World × Call)) (w : World)
    {call : Call} {idp : String} (hu : call.uses idp = true) :
    n.standingOver (n.run past Cache.empty).value.2 w.store idp =
      n.standingSince (past ++ [(w, call)]) idp := by
  have hkept : n.kept? (past ++ [(w, call)]) idp =
      (n.kept? past idp).or (n.fresh? w.store idp) := by
    rw [← get?_run_empty, run_append, get?_run, get?_run_empty, kept?_cons, if_pos hu]
    exact congrArg _ (Option.or_none ..)
  rw [standingOver, get?_run_empty, standingSince, hkept]

/-- After a run from an empty cache, a call is answered as without a cache. -/
theorem value_perform (n : Enroller) (past : List (World × Call)) (w : World) (call : Call) :
    (n.perform w (n.run past Cache.empty).value.2 call).value.1 = n.reference past w call := by
  rw [value_perform_over, reference]
  exact answerFrom_congr n w fun idp hu => standingOver_eq_standingSince n past w hu

/-- What a call finds stays what every later call finds, whatever happens in between. -/
theorem standingOver_later (n : Enroller) (w : World) (c : Cache) {call : Call} {idp : String}
    (hu : call.uses idp = true) (more : List (World × Call)) (s : Store) :
    n.standingOver (n.run more (n.perform w c call).value.2).value.2 s idp =
      n.standingOver c w.store idp := by
  rw [standingOver, standingOver, get?_run, get?_perform, if_pos hu]
  cases hm : n.standing.hasIdp idp with
  | true => rw [fresh?_of_mapped hm w.store, Option.or_assoc, Option.or_assoc, Option.some_or]
  | false =>
    rw [kept?_of_unmapped hm, fresh?_of_unmapped hm, fresh?_of_unmapped hm, Option.or_none,
      Option.or_none]

/-! ## The standing groups that a call finds -/

theorem vetted_of_unmapped (n : Enroller) (s : Store) {idp : String}
    (h : n.standing.hasIdp idp = false) : n.vetted s idp = GroupSet.empty := by
  rw [vetted, Standing.groupIds_of_unmapped h]
  rfl

theorem vetted_congr (n : Enroller) {s t : Store} (h : ∀ id, s.judge id = t.judge id)
    (idp : String) : n.vetted s idp = n.vetted t idp := by
  simp only [vetted, Store.value_vetAll, h]

/-- After a run a call finds the standing groups as they were at the first use, else as they are. -/
theorem standingOver_run (n : Enroller) (past : List (World × Call)) (s : Store) (idp : String) :
    n.standingOver (n.run past Cache.empty).value.2 s idp =
      n.vetted (((firstUse? past idp).map World.store).getD s) idp := by
  rw [standingOver, get?_run_empty]
  cases hm : n.standing.hasIdp idp with
  | true =>
    simp only [kept?, fresh?_of_mapped hm]
    cases firstUse? past idp <;> rfl
  | false =>
    rw [vetted_of_unmapped n _ hm, kept?_of_unmapped hm, fresh?_of_unmapped hm]
    rfl

end Enroller

/-! ## A small world -/

/-- A store with one group, which can be read, and outside providers that have nothing to say. -/
def World.oneGroup (id : String) : World where
  store := ⟨Directory.ofList [Entity.group id], Policy.byKind, Outages.none⟩
  sources _ := ⟨fun _ => .ok Table.empty, fun _ => .ok []⟩

/-- An enroller that gives one group to every entity of one IDP. -/
def Enroller.oneGroup (idp id : String) : Enroller :=
  ⟨Standing.empty.assign idp [id], Registry.empty⟩

end Enrolment
