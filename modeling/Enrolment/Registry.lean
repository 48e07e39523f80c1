import Enrolment.Provider
import Enrolment.Text.Blank

/-!
The registry of providers: at most one for an identity provider, in the order of registration.

The providers stand in a list, and an index gives the position of each name.  Registering is
refused for a blank name and for a name that is taken, and then changes nothing.  Calls of
registered providers leave a trace under the name they are registered for.
-/

namespace Enrolment

structure Registry where
  providers : List (String × Provider)
  /-- The position of each registered name. -/
  index : Table Nat
  indexed : ∀ idp i, index.get? idp = some i ↔ (providers.map Prod.fst)[i]? = some idp
  notBlank : ∀ row ∈ providers, Text.isBlank row.1 = false

namespace Registry

def empty : Registry where
  providers := []
  index := Table.empty
  indexed _ _ := ⟨fun h => absurd h (Option.some_ne_none _).symm,
    fun h => absurd h (Option.some_ne_none _).symm⟩
  notBlank := fun _ h => absurd h (List.not_mem_nil)

instance : Inhabited Registry := ⟨empty⟩

def names (r : Registry) : List String := r.providers.map Prod.fst

def has (r : Registry) (idp : String) : Bool := r.names.contains idp

/-- The index points into the list. -/
theorem lt_of_index (r : Registry) {idp : String} {i : Nat} (h : r.index.get? idp = some i) :
    i < r.providers.length := by
  obtain ⟨hlt, _⟩ := List.getElem?_eq_some_iff.1 ((r.indexed idp i).1 h)
  rwa [List.length_map] at hlt

def get? (r : Registry) (idp : String) : Option Provider :=
  match h : r.index.get? idp with
  | some i => some (r.providers.get ⟨i, r.lt_of_index h⟩).2
  | none => none

def size (r : Registry) : Nat := r.providers.length

/-- A name that is new to the index is not in the list. -/
theorem not_mem_names_of_new (r : Registry) {idp : String} (h : r.index.contains idp = false) :
    idp ∉ r.names := by
  intro hmem
  obtain ⟨i, hi⟩ := List.mem_iff_getElem?.1 hmem
  rw [Table.contains, (r.indexed idp i).2 hi] at h
  exact absurd h.symm Bool.false_ne_true

theorem getElem?_concat_eq_some_iff {α : Type} {xs : List α} {x y : α} {i : Nat} :
    (xs ++ [x])[i]? = some y ↔ xs[i]? = some y ∨ (i = xs.length ∧ x = y) := by
  grind

/-- Puts a provider at the end. -/
def push (r : Registry) (idp : String) (p : Provider) (hblank : Text.isBlank idp = false)
    (hnew : r.index.contains idp = false) : Registry where
  providers := r.providers ++ [(idp, p)]
  index := r.index.insert idp r.providers.length
  indexed := by
    intro name i
    rw [Table.get?_insert, List.map_append, List.map_singleton, getElem?_concat_eq_some_iff,
      List.length_map]
    split
    · next hname =>
      -- The name is new, so it stands nowhere but at the end.
      have hold : (r.providers.map Prod.fst)[i]? ≠ some name := fun h =>
        r.not_mem_names_of_new hnew (hname ▸ List.mem_of_getElem? h)
      rw [Option.some.injEq, or_iff_right hold, and_iff_left hname.symm, eq_comm]
    · next hname =>
      have hlast : ¬ (i = r.providers.length ∧ idp = name) := fun h => hname h.2.symm
      rw [or_iff_left hlast, r.indexed]
  notBlank := by
    intro row hrow
    rcases List.mem_append.1 hrow with h | h
    · exact r.notBlank row h
    · rw [List.mem_singleton.1 h, hblank]

/-- Registers a provider for an IDP, unless the name is blank or taken. -/
def register (r : Registry) (idp : String) (p : Provider) : Except ConfigFault Unit × Registry :=
  if hb : Text.isBlank idp = true then (.error (.blankIdpName idp), r)
  else if hm : r.index.contains idp = true then (.error (.duplicateProvider idp), r)
  else (.ok (), r.push idp p (Bool.eq_false_iff.2 hb) (Bool.eq_false_iff.2 hm))

/-- Registers a provider in a new registry, which a refusal keeps from being made. -/
def withProvider (r : Registry) (idp : String) (p : Provider) : Except ConfigFault Registry :=
  match r.register idp p with
  | (.ok (), r) => .ok r
  | (.error fault, _) => .error fault

/-- The registry in words: the quoted names, in order. -/
def describe (r : Registry) : String :=
  "ProviderRegistry \x7b idp_names: [" ++ ", ".intercalate (r.names.map Text.quoted) ++ "] \x7d"

end Registry

/-! ## Calls of registered providers -/

namespace World

/-- Asks a registered provider for the groups of an entity. -/
def askGroups (w : World) (idp : String) (p : Provider) (e : Entity) :
    Traced (Except ProviderFault IdSet) :=
  ⟨p.groupsOf w e, [.call idp .forward]⟩

/-- Asks a registered provider for the members of a group. -/
def askMembers (w : World) (idp : String) (p : Provider) (group : Entity) :
    Traced (Except ProviderFault (List (Except ProviderFault Entity))) := do
  Traced.emit (.call idp .reverse)
  p.membersOf w group

end World

end Enrolment
