import Enrolment.Entity

/-!
Allow-lists: entities with the groups granted to each by name.

Entities are told apart by their id.  Granting to an id again extends its groups and changes
neither its place nor the entity that was given first.
-/

namespace Enrolment

namespace IdSet

def insertAll (s : IdSet) (ids : List String) : IdSet :=
  ids.foldl (fun s id => s.insert id ()) s

end IdSet

/-- The list with the groups added to the entity of this id, which goes to the end if it is new. -/
def grantTo (e : Entity) (ids : List String) : List (Entity × IdSet) → List (Entity × IdSet)
  | [] => [(e, IdSet.ofList ids)]
  | (x, set) :: rest =>
    if x.id = e.id then (x, IdSet.insertAll set ids) :: rest else (x, set) :: grantTo e ids rest

theorem map_id_grantTo (e : Entity) (ids : List String) (xs : List (Entity × IdSet)) :
    (grantTo e ids xs).map (·.1.id) =
      if e.id ∈ xs.map (·.1.id) then xs.map (·.1.id) else xs.map (·.1.id) ++ [e.id] := by
  induction xs with
  | nil => rfl
  | cons x xs ih =>
    obtain ⟨x, set⟩ := x
    rw [grantTo]
    split
    · next h => simp [h]
    · next h =>
      rw [List.map_cons, ih, List.map_cons]
      have hne : e.id ≠ x.id := fun he => h he.symm
      by_cases hm : e.id ∈ xs.map (·.1.id)
      · rw [if_pos hm, if_pos (List.mem_cons_of_mem _ hm)]
      · rw [if_neg hm, if_neg fun hc => (List.mem_cons.1 hc).elim hne hm]
        rfl

structure AllowList where
  grants : List (Entity × IdSet)
  distinct : (grants.map (·.1.id)).Nodup

namespace AllowList

def empty : AllowList := ⟨[], by simp⟩

def grant (l : AllowList) (e : Entity) (ids : List String) : AllowList where
  grants := grantTo e ids l.grants
  distinct := by
    rw [map_id_grantTo]
    split
    · exact l.distinct
    · next h =>
      refine List.nodup_append.2 ⟨l.distinct, List.pairwise_singleton .., fun a ha b hb hab => ?_⟩
      rw [List.mem_singleton.1 hb] at hab
      exact h (hab ▸ ha)

def ofList (grants : List (Entity × List String)) : AllowList :=
  grants.foldl (fun l g => l.grant g.1 g.2) empty

/-- The number of entities listed. -/
def size (l : AllowList) : Nat := l.grants.length

/-- The groups granted to the entity of this id. -/
def groupsOf (l : AllowList) (e : Entity) : IdSet :=
  match l.grants.find? (·.1.id == e.id) with
  | some (_, set) => set
  | none => Table.empty

/-- The entities to which a group is granted, in the order in which they were first listed. -/
def membersOf (l : AllowList) (group : Entity) : List Entity :=
  (l.grants.filter (·.2.contains group.id)).map Prod.fst

end AllowList

end Enrolment
