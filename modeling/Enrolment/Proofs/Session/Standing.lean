import Enrolment.Proofs.Session.Copies
import Enrolment.Proofs.Standing

/-!
Enrollers whose standing groups come from different sources (`standing_sources_alike`).

Standing groups are assigned one by one, collected from a map or taken from a configuration, and an
enroller is made with them, from the configuration or from a text of it.  Since standing groups are
equal if they answer alike, none of this leaves a trace: the sessions are the same, and so is
everything that comes after.

A configuration need not have a text.  One that is not read but put together may map blank names,
and then no text is accepted for it.
-/

namespace Enrolment
namespace Session

/-- Moves that give a session the standing groups of a configuration. -/
inductive Sets (c : Configuration) : List Move → Prop
  | assigned {order : List (String × List String)} : order.Perm c.mapping.rows →
      Sets c (.step (.standing (.replace [])) ::
        order.map fun row => .step (.standing (.assign row.1 row.2)))
  | collected {order : List (String × List String)} : order.Perm c.mapping.rows →
      Sets c [.step (.standing (.replace order))]
  | configured {text : String} : Configuration.ofText text = .ok c →
      Sets c [.step (.standing (.configure text))]

/-- What an enroller is made of in a session that has the standing groups of a configuration: of
these, or of a text of the configuration. -/
inductive Origin (c : Configuration) : Option String → Prop
  | session : Origin c none
  | text {text : String} : Configuration.ofText text = .ok c → Origin c (some text)

variable {s : Session} {c : Configuration}

theorem play_assigned (s : Session) (m : Standing) (order : List (String × List String)) :
    ({ s with standing := m } : Session).play
        (order.map fun row => .step (.standing (.assign row.1 row.2))) =
      { s with standing := order.foldl (fun m row => m.assign row.1 row.2) m } := by
  induction order generalizing m with
  | nil => rfl
  | cons row order ih => exact ih (m.assign row.1 row.2)

theorem play_sets {moves : List Move} (h : Sets c moves) (s : Session) :
    s.play moves = { s with standing := Standing.ofConfiguration c } := by
  cases h with
  | assigned horder =>
    show ({ s with standing := Standing.empty } : Session).play _ = _
    rw [play_assigned]
    exact congrArg (fun m => { s with standing := m }) (Standing.ofList_of_perm horder)
  | collected horder =>
    exact congrArg (fun m => { s with standing := m }) (Standing.ofList_of_perm horder)
  | configured hc =>
    show (s.standingStep (.configure _)).2 = _
    rw [standingStep, hc]

/-- Whatever it is made of, the enroller is one made from the configuration. -/
theorem step_create (hs : s.standing = Standing.ofConfiguration c) {config? : Option String}
    (horigin : Origin c config?) :
    s.step (.enroller (.create config?)) = return s.create (Standing.ofConfiguration c) := by
  cases horigin with
  | session =>
    rw [← hs]
    rfl
  | text hc => simp only [step, enrollerStep, hc]

theorem results_create (hs : s.standing = Standing.ofConfiguration c) {config? : Option String}
    (horigin : Origin c config?) (moves : List Move) :
    let made := s.create (Standing.ofConfiguration c)
    s.results (.step (.enroller (.create config?)) :: moves) =
        ⟨made.1, []⟩ :: made.2.results moves ∧
      s.play (.step (.enroller (.create config?)) :: moves) = made.2.play moves := by
  intro made
  have hstep := step_create hs horigin
  have hmove : s.move (.step (.enroller (.create config?))) = made.2 := by
    rw [move, hstep]
    rfl
  constructor
  · rw [results, hstep, hmove]
    rfl
  · show (s.move _).play moves = _
    rw [hmove]

/-- Whatever the sources of the standing groups, and whichever way the enroller is made. -/
structure SourcesAlike (c : Configuration) (s : Session) : Prop where
  standing : ∀ {before}, Sets c before →
    s.play before = { s with standing := Standing.ofConfiguration c }
  enroller : ∀ {before config?}, Sets c before → Origin c config? →
    (s.play before).making? config? = some ⟨Standing.ofConfiguration c, s.registry⟩
  /-- An enroller made from the configuration itself has the same answers and traces from then on,
  those of statistics among them. -/
  configuration : ∀ {before config?}, Sets c before → Origin c config? → ∀ moves,
    let made := (s.play before).create (Standing.ofConfiguration c)
    (s.play before).results (.step (.enroller (.create config?)) :: moves) =
        ⟨made.1, []⟩ :: made.2.results moves ∧
      (s.play before).play (.step (.enroller (.create config?)) :: moves) = made.2.play moves
  /-- And so have any two enrollers, whatever each is made of. -/
  results : ∀ {before before' config? config?'}, Sets c before → Sets c before' →
    Origin c config? → Origin c config?' → ∀ moves,
      (s.play before).results (.step (.enroller (.create config?)) :: moves) =
          (s.play before').results (.step (.enroller (.create config?')) :: moves) ∧
        (s.play before).play (.step (.enroller (.create config?)) :: moves) =
          (s.play before').play (.step (.enroller (.create config?')) :: moves)
  /-- The session itself may have other standing groups. -/
  apart : ∀ {order : List (String × List String)}, order.Perm c.mapping.rows →
    s.create (Standing.ofList order) = s.create (Standing.ofConfiguration c)

theorem sourcesAlike (c : Configuration) (s : Session) : SourcesAlike c s where
  standing h := play_sets h s
  enroller h horigin := by
    rw [play_sets h]
    cases horigin with
    | session => rfl
    | text hc => rw [making?, hc]
  configuration h horigin moves := by
    rw [play_sets h]
    exact results_create rfl horigin moves
  results h h' horigin horigin' moves := by
    rw [play_sets h, play_sets h']
    have hready : ({ s with standing := Standing.ofConfiguration c } : Session).standing =
        Standing.ofConfiguration c := rfl
    obtain ⟨hresults, hplay⟩ := results_create hready horigin moves
    obtain ⟨hresults', hplay'⟩ := results_create hready horigin' moves
    exact ⟨hresults.trans hresults'.symm, hplay.trans hplay'.symm⟩
  apart horder := by rw [Standing.ofList_of_perm horder, Standing.ofConfiguration]

theorem standing_sources_alike : Standing.Extensional ∧ ∀ c s, SourcesAlike c s :=
  ⟨Standing.extensional, sourcesAlike⟩

/-- A configuration of two IDPs, one of them mapped to no group, and a text of it. -/
def twoIdps : Configuration := ⟨Table.ofList [("ad", []), ("ldap", ["staff"])]⟩

def twoIdpsText : String := "[mapping]\nldap = [\"staff\"]\nad = []\n"

/-- Both IDPs are asked for, and then the statistics. -/
def twoIdpsAsked : List Move :=
  [.step (.enroller (.call 0 (.groups "ldap" (Entity.user "alice")))),
    .step (.enroller (.call 0 (.groups "ad" (Entity.user "alice")))),
    .step (.enroller (.stats 0))]

/-- An enroller made of the text answers as one made after the rows were assigned in the other
order, and the IDP without groups is counted as well. -/
theorem standing_sources_alike_two_idps :
    let s := start Policy.byKind [Entity.group "staff"]
    let assigned : List Move :=
      .step (.standing (.replace [])) ::
        [("ldap", ["staff"]), ("ad", [])].map fun row => .step (.standing (.assign row.1 row.2))
    let results := (s.play assigned).results (.step (.enroller (.create none)) :: twoIdpsAsked)
    Configuration.ofText twoIdpsText = .ok twoIdps ∧
      results = (s.play [.step (.standing (.configure twoIdpsText))]).results
        (.step (.enroller (.create (some twoIdpsText))) :: twoIdpsAsked) ∧
      results.map Traced.value =
        [.count 0, .principals [⟨"staff", .group⟩], .principals [], .stats ⟨0, 2, 2⟩] := by
  have htext : Configuration.ofText twoIdpsText = .ok twoIdps := by decide +kernel
  have hperm : [("ldap", ["staff"]), ("ad", [])].Perm twoIdps.mapping.rows :=
    .swap ("ad", []) ("ldap", ["staff"]) []
  obtain ⟨-, halike⟩ := standing_sources_alike
  exact ⟨htext, ((halike twoIdps _).results (.assigned hperm) (.configured htext) .session
    (.text htext) twoIdpsAsked).1, rfl⟩

end Session
end Enrolment
