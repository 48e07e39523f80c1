import Enrolment.Proofs.Session.History

/-!
What a session answers to the calls on its enrollers: the answers of an enroller without a cache.
-/

namespace Enrolment
namespace Session

/-- Whatever a session did before, the reply to a call on an enroller is that without a cache, and
this is what the session answers.  The past of the call are the calls on all enrollers over the same
cell, that is on the enroller and on its copies. -/
theorem call_answers_reference (w : World) (sources : Nat) (m : Standing) (r : Registry)
    (moves : List Move) {on cell : Nat} {n : Enroller}
    (hon : ((fresh w sources m r).play moves).enrollers[on]? = some (n, cell)) (c : Call) :
    (n.perform ((fresh w sources m r).play moves).world
          (((fresh w sources m r).play moves).cell cell) c).value.1 =
        n.reference (callsOn cell (fresh w sources m r) moves)
          ((fresh w sources m r).play moves).world c ∧
      (((fresh w sources m r).play moves).step (.enroller (.call on c))).value.1 =
        ofReply (n.reference (callsOn cell (fresh w sources m r) moves)
          ((fresh w sources m r).play moves).world c) := by
  have hsharing := sharing_play w sources m r moves
  -- How the session came about no longer matters.
  generalize (fresh w sources m r).play moves = s at hon hsharing ⊢
  have hreply : (n.perform s.world (s.cell cell) c).value.1 =
      n.reference (callsOn cell (fresh w sources m r) moves) s.world c := by
    rw [hsharing.cell_eq (List.mem_of_getElem? hon), Enroller.value_perform]
  refine ⟨hreply, ?_⟩
  rw [(step_call hon c).1, hreply]

/-- A session over one group, which is a standing group of an IDP. -/
def staffed : Session :=
  fresh (World.oneGroup "staff") 0 (Standing.empty.assign "ldap" ["staff"]) Registry.empty

/-- An enroller is made, copied and asked, and then the group is removed. -/
def staffRemoved : List Move :=
  [.step (.enroller (.create none)), .step (.enroller (.copy 0)),
    .step (.enroller (.call 0 (.groups "ldap" (Entity.user "alice")))),
    .step (.store (.remove "staff"))]

/-- The copy still grants the group that the enroller found. -/
theorem copy_answers_reference :
    let alice := Entity.user "alice"
    let answer :=
      ((staffed.play staffRemoved).step (.enroller (.call 1 (.groups "ldap" alice)))).value.1
    (staffed.play staffRemoved).enrollers[1]? = some (Enroller.oneGroup "ldap" "staff", 0) ∧
      answer = ofReply ((Enroller.oneGroup "ldap" "staff").reference
        (callsOn 0 staffed staffRemoved) (staffed.play staffRemoved).world (.groups "ldap" alice)) ∧
      answer = .principals [⟨"staff", .group⟩] := by
  intro alice answer
  have hon : (staffed.play staffRemoved).enrollers[1]? =
      some (Enroller.oneGroup "ldap" "staff", 0) := rfl
  obtain ⟨-, hanswer⟩ :=
    call_answers_reference _ _ _ _ staffRemoved hon (.groups "ldap" alice)
  exact ⟨hon, hanswer, hanswer.trans rfl⟩

end Session
end Enrolment
