import Enrolment.Enroller.Cursor

/-!
What a cursor over members gives, advance by advance.

In a fixed world every provider has its contribution: its items, or its fault as the one item.  A
cursor owes its pending items and then the contributions of the waiting providers (`owed`).  An
advance takes the first item owed, and asks a provider only when everything before its
contribution has been taken; `reach` counts the providers that are asked.
-/

namespace Enrolment

/-- What a provider has for the members of a group: its items, or its fault as the one item. -/
def Provider.contribution (p : Provider) (w : World) (group : Entity) : List Item :=
  match (p.membersOf w group).value with
  | .ok items => items
  | .error fault => [.error fault]

theorem Provider.membersOf_events (p : Provider) (w : World) (group : Entity) :
    Event.calls (p.membersOf w group).events = [] ∧
      Event.lookups (p.membersOf w group).events = [] := by
  cases p with
  | allowList l => exact ⟨rfl, rfl⟩
  | outside source => exact ⟨rfl, rfl⟩
  | ruleBook b =>
    have hevents : (membersOf (.ruleBook b) w group).events =
        (b.membersOf w.store group).events := by
      show (b.membersOf w.store group).events ++ [] = _
      exact List.append_nil _
    rw [hevents, RuleBook.membersOf]
    by_cases hr : (b.granting group).isEmpty = true
    · rw [if_pos hr]
      exact ⟨rfl, rfl⟩
    · rw [if_neg hr, Traced.events_bind]
      have hread : (w.store.list b.idp).events = [] ∨
          (w.store.list b.idp).events = [.enumeration b.idp] := by
        rw [Store.list]
        cases w.store.policy.enumerates
        · exact .inl rfl
        · exact .inr rfl
      cases (w.store.list b.idp).value <;> rcases hread with h | h <;> rw [h] <;> exact ⟨rfl, rfl⟩

namespace Cursor

variable (w : World) (group : Entity)

theorem value_ask (row : String × Provider) :
    (ask w group row).value = row.2.contribution w group := by
  rw [Provider.contribution]
  show (match (row.2.membersOf w group).value with
    | .ok items => (pure items : Traced (List Item))
    | .error fault => pure [.error fault]).value = _
  cases (row.2.membersOf w group).value <;> rfl

theorem ask_events (row : String × Provider) :
    Event.calls (ask w group row).events = [(row.1, .reverse)] ∧
      Event.lookups (ask w group row).events = [] := by
  obtain ⟨hcalls, hlookups⟩ := row.2.membersOf_events w group
  have hevents : (ask w group row).events =
      .note (.enumerating row.1 group.id) :: .call row.1 .reverse ::
        (row.2.membersOf w group).events := by
    show _ :: ((_ :: (row.2.membersOf w group).events) ++ _) = _
    cases hv : (row.2.membersOf w group).value <;>
      simp [World.askMembers, hv]
  rw [hevents]
  constructor
  · show (row.1, Direction.reverse) :: Event.calls _ = _
    rw [hcalls]
  · exact hlookups

/-! ## The items of all providers -/

theorem value_mapM_ask (rows : List (String × Provider)) :
    (rows.mapM (ask w group)).value = rows.map (·.2.contribution w group) := by
  induction rows with
  | nil => rfl
  | cons row rows ih =>
    rw [List.mapM_cons, List.map_cons, ← ih, ← value_ask w group row]
    rfl

theorem events_mapM_ask (rows : List (String × Provider)) :
    (rows.mapM (ask w group)).events = rows.flatMap fun row => (ask w group row).events := by
  induction rows with
  | nil => rfl
  | cons row rows ih =>
    rw [List.mapM_cons, List.flatMap_cons, ← ih]
    show (ask w group row).events ++ ((rows.mapM (ask w group)).events ++ []) = _
    rw [List.append_nil]

/-- What a cursor still has to give. -/
def owed (c : Cursor) : List Item :=
  c.pending ++ c.waiting.flatMap (·.2.contribution w c.group)

theorem value_rest (c : Cursor) : (c.rest w).value = c.owed w := by
  show c.pending ++ (c.waiting.mapM (ask w c.group)).value.flatten = _
  rw [value_mapM_ask, owed, List.flatMap_def]

/-! ## Advances -/

/-- A number of advances, each with its own trace. -/
def advances : Nat → Cursor → List (Traced (Option Item))
  | 0, _ => []
  | k + 1, c => ⟨(c.next w).value.1, (c.next w).events⟩ :: advances k (c.next w).value.2

/-- How many providers are asked in the course of `k` advances, if `pending` items are at hand and
the providers have these contributions. -/
def reach (pending k : Nat) : List (List Item) → Nat
  | [] => 0
  | part :: parts => if pending < k then reach (pending + part.length) k parts + 1 else 0

theorem advance_cons (row : String × Provider) (rows : List (String × Provider)) :
    advance w group (row :: rows) = do
      match ← ask w group row with
      | [] => advance w group rows
      | item :: items => return (some item, ⟨group, items, rows⟩) := rfl

theorem advance_of_nil {row : String × Provider} (rows : List (String × Provider))
    (h : row.2.contribution w group = []) :
    (advance w group (row :: rows)).value = (advance w group rows).value ∧
      (advance w group (row :: rows)).events =
        (ask w group row).events ++ (advance w group rows).events := by
  rw [advance_cons, Traced.value_bind, Traced.events_bind, value_ask, h]
  exact ⟨rfl, rfl⟩

theorem advance_of_cons {row : String × Provider} (rows : List (String × Provider)) {item : Item}
    {items : List Item} (h : row.2.contribution w group = item :: items) :
    (advance w group (row :: rows)).value = (some item, ⟨group, items, rows⟩) ∧
      (advance w group (row :: rows)).events = (ask w group row).events := by
  rw [advance_cons, Traced.value_bind, Traced.events_bind, value_ask, h]
  exact ⟨rfl, List.append_nil _⟩

theorem value_advance (rows : List (String × Provider)) :
    (advance w group rows).value.1 = (rows.flatMap (·.2.contribution w group)).head? ∧
      (advance w group rows).value.2.owed w =
        (rows.flatMap (·.2.contribution w group)).tail := by
  induction rows with
  | nil => exact ⟨rfl, rfl⟩
  | cons row rows ih =>
    rw [List.flatMap_cons]
    cases hpart : row.2.contribution w group with
    | nil => rw [(advance_of_nil w group rows hpart).1]; exact ih
    | cons item items => rw [(advance_of_cons w group rows hpart).1]; exact ⟨rfl, rfl⟩

theorem value_next (c : Cursor) :
    (c.next w).value.1 = (c.owed w).head? ∧ (c.next w).value.2.owed w = (c.owed w).tail := by
  obtain ⟨group, pending, waiting⟩ := c
  cases pending with
  | nil => exact value_advance w group waiting
  | cons item items => exact ⟨rfl, rfl⟩

/-- The advances give the items owed, in order, and then nothing. -/
theorem map_value_advances (k : Nat) (c : Cursor) :
    (advances w k c).map Traced.value =
      ((c.owed w).take k).map some ++ List.replicate (k - (c.owed w).length) none := by
  induction k generalizing c with
  | zero => rw [List.take_zero, Nat.zero_sub]; rfl
  | succ k ih =>
    obtain ⟨hitem, howed⟩ := value_next w c
    rw [advances, List.map_cons, ih, howed, hitem]
    cases c.owed w with
    | nil =>
      simp only [List.head?_nil, List.tail_nil, List.take_nil, List.map_nil, List.nil_append,
        List.length_nil, Nat.sub_zero, List.replicate_succ]
    | cons item items =>
      rw [List.take_succ_cons, List.length_cons, Nat.add_sub_add_right]
      rfl

/-! ## Events -/

theorem reach_of_le {pending k : Nat} (h : k ≤ pending) (parts : List (List Item)) :
    reach pending k parts = 0 := by
  cases parts with
  | nil => rfl
  | cons part parts => rw [reach, if_neg (Nat.not_lt.2 h)]

theorem reach_succ_succ (pending k : Nat) (parts : List (List Item)) :
    reach (pending + 1) (k + 1) parts = reach pending k parts := by
  induction parts generalizing pending with
  | nil => rfl
  | cons part parts ih =>
    rw [reach, reach, Nat.add_right_comm pending 1, ih]
    simp only [Nat.add_lt_add_iff_right]

theorem reach_of_lt {pending k : Nat} {parts : List (List Item)}
    (h : pending + parts.flatten.length < k) : reach pending k parts = parts.length := by
  induction parts generalizing pending with
  | nil => rfl
  | cons part parts ih =>
    rw [List.flatten_cons, List.length_append] at h
    rw [reach, if_pos (by omega), ih (by omega), List.length_cons]

/-- The last provider asked is the one that has the last item taken. -/
theorem reach_eq_succ {pending k m : Nat} {parts : List (List Item)} (hm : m < parts.length)
    (hlo : pending + (parts.take m).flatten.length < k)
    (hhi : k ≤ pending + (parts.take (m + 1)).flatten.length) :
    reach pending k parts = m + 1 := by
  induction parts generalizing pending m with
  | nil => exact absurd hm (Nat.not_lt_zero m)
  | cons part parts ih =>
    rw [List.take_succ_cons, List.flatten_cons, List.length_append] at hhi
    cases m with
    | zero =>
      rw [List.take_zero, List.flatten_nil, List.length_nil] at hlo hhi
      rw [reach, if_pos (by omega), reach_of_le (by omega)]
    | succ m =>
      rw [List.take_succ_cons, List.flatten_cons, List.length_append] at hlo
      rw [reach, if_pos (by omega),
        ih (Nat.lt_of_succ_lt_succ hm) (by omega) (by omega)]

/-- If enough items are left, some provider has the last one taken. -/
theorem exists_part {pending k : Nat} {parts : List (List Item)} (hlo : pending < k)
    (hhi : k ≤ pending + parts.flatten.length) :
    ∃ m < parts.length, pending + (parts.take m).flatten.length < k ∧
      k ≤ pending + (parts.take (m + 1)).flatten.length := by
  induction parts generalizing pending with
  | nil =>
    rw [List.flatten_nil, List.length_nil] at hhi
    omega
  | cons part parts ih =>
    rw [List.flatten_cons, List.length_append] at hhi
    by_cases hk : k ≤ pending + part.length
    · refine ⟨0, Nat.succ_pos _, hlo, ?_⟩
      rw [List.take_succ_cons, List.take_zero, List.flatten_cons, List.flatten_nil,
        List.append_nil]
      exact hk
    · obtain ⟨m, hm, hmlo, hmhi⟩ :=
        ih (Nat.not_le.1 hk) (by omega)
      refine ⟨m + 1, Nat.succ_lt_succ hm, ?_, ?_⟩
      · rw [List.take_succ_cons, List.flatten_cons, List.length_append]
        omega
      · rw [List.take_succ_cons, List.flatten_cons, List.length_append]
        omega

/-- The events of an advance that finds nothing at hand, and of `k` further ones.  The induction is
on the providers, inside the one on the advances, whose hypothesis is therefore a premise here. -/
theorem events_advance {k : Nat}
    (ih : ∀ c : Cursor, (advances w k c).flatMap Traced.events =
      (c.waiting.take (reach c.pending.length k
        (c.waiting.map (·.2.contribution w c.group)))).flatMap
          fun row => (ask w c.group row).events)
    (rows : List (String × Provider)) :
    (advance w group rows).events ++
        (advances w k (advance w group rows).value.2).flatMap Traced.events =
      (rows.take (reach 0 (k + 1) (rows.map (·.2.contribution w group)))).flatMap
        fun row => (ask w group row).events := by
  induction rows with
  | nil =>
    show [] ++ (advances w k ⟨group, [], []⟩).flatMap Traced.events = _
    rw [ih]
    rfl
  | cons row rows ihrows =>
    have hasked : 0 < k + 1 := Nat.succ_pos k
    rw [List.map_cons, reach, if_pos hasked, List.take_succ_cons, List.flatMap_cons, Nat.zero_add]
    cases hpart : row.2.contribution w group with
    | nil =>
      -- The provider has nothing, so the same advance goes on to the next one.
      obtain ⟨hvalue, hevents⟩ := advance_of_nil w group rows hpart
      rw [hvalue, hevents, List.append_assoc, ihrows, List.length_nil]
    | cons item items =>
      obtain ⟨hvalue, hevents⟩ := advance_of_cons w group rows hpart
      rw [hvalue, hevents, ih, List.length_cons, reach_succ_succ]

/-- What `k` advances do is to ask the providers within reach, each once and in order. -/
theorem events_advances (k : Nat) (c : Cursor) :
    (advances w k c).flatMap Traced.events =
      (c.waiting.take (reach c.pending.length k
        (c.waiting.map (·.2.contribution w c.group)))).flatMap
          fun row => (ask w c.group row).events := by
  induction k generalizing c with
  | zero => rw [reach_of_le (Nat.zero_le _)]; rfl
  | succ k ih =>
    obtain ⟨group, pending, waiting⟩ := c
    rw [advances, List.flatMap_cons]
    cases pending with
    | nil => exact events_advance w group ih waiting
    | cons item items =>
      show [] ++ (advances w k ⟨group, items, waiting⟩).flatMap Traced.events = _
      rw [ih, List.length_cons, reach_succ_succ]
      rfl

theorem flatMap_ask_events (rows : List (String × Provider)) :
    Event.calls (rows.flatMap fun row => (ask w group row).events) =
        rows.map (fun row => (row.1, .reverse)) ∧
      Event.lookups (rows.flatMap fun row => (ask w group row).events) = [] := by
  induction rows with
  | nil => exact ⟨rfl, rfl⟩
  | cons row rows ih =>
    obtain ⟨hcalls, hlookups⟩ := ask_events w group row
    rw [List.flatMap_cons, Event.calls_append, Event.lookups_append, hcalls, hlookups, ih.1, ih.2]
    exact ⟨rfl, rfl⟩

theorem events_rest (c : Cursor) :
    (c.rest w).events = c.waiting.flatMap fun row => (ask w c.group row).events := by
  show (c.waiting.mapM (ask w c.group)).events ++ [] = _
  rw [List.append_nil, events_mapM_ask]

/-- An advance looks up no id and asks providers for members only. -/
theorem events_next (c : Cursor) :
    Event.lookups (c.next w).events = [] ∧
      ∀ x ∈ Event.calls (c.next w).events, x.2 = .reverse := by
  have hone := events_advances w 1 c
  have hevents : (advances w 1 c).flatMap Traced.events = (c.next w).events := by
    show (c.next w).events ++ [] = _
    rw [List.append_nil]
  rw [hevents] at hone
  obtain ⟨hcalls, hlookups⟩ := flatMap_ask_events w c.group
    (c.waiting.take (reach c.pending.length 1 (c.waiting.map (·.2.contribution w c.group))))
  rw [hone, hlookups, hcalls]
  refine ⟨rfl, fun x hx => ?_⟩
  obtain ⟨row, _, rfl⟩ := List.mem_map.1 hx
  rfl

end Cursor
end Enrolment
