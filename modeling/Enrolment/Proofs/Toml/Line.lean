import Enrolment.Proofs.Toml.Spelling
import Enrolment.Toml.Document
import Enrolment.Toml.Page

/-!
The lines of a page are read as they were written: `Spells` says of a part of a page which lines it
adds in front of those of what follows it, and the parts of a page put together spell its lines
(`Spells.intercalate`).
-/

namespace Enrolment.Toml

/-! ## Keys in front of an equals sign or a bracket -/

theorem skipBlanks_cons {c : Char} (h : isBlank c = false) (rest : List Char) :
    skipBlanks (c :: rest) = c :: rest :=
  List.dropWhile_cons_of_neg (Bool.eq_false_iff.1 h)

theorem not_blank_of_class {p : Char → Bool} {c : Char} (h : p c = true) (hspace : p ' ' = false)
    (htab : p '\t' = false) : isBlank c = false := by
  have hspace : c ≠ ' ' := ne_of_class h hspace
  have htab : c ≠ '\t' := ne_of_class h htab
  rw [isBlank, beq_eq_false_iff_ne.2 hspace, beq_eq_false_iff_ne.2 htab, Bool.or_self]

theorem skipBlanks_spellKey (key : String) (rest : List Char) :
    skipBlanks (spellKey key ++ rest) = spellKey key ++ rest := by
  obtain ⟨c, t, hkey, hc⟩ := spellKey_head key
  rw [hkey]
  exact skipBlanks_cons (not_blank_of_class hc (by decide) (by decide)) _

theorem path_spellKey (key : String) {rest more : List Char} {a : Char}
    (hbare : StartsWithout isBareChar rest) (hrest : skipBlanks rest = a :: more) (hdot : a ≠ '.') :
    path depthLimit (spellKey key ++ rest) = some (⟨[], key⟩, a :: more) := by
  rw [depthLimit, path, skipBlanks_spellKey, simpleKey_spellKey key hbare]
  simp only [Option.bind_eq_bind, Option.bind_some, hrest]
  split
  · next heq => exact absurd (List.head_eq_of_cons_eq heq) hdot
  · rfl

/-! ## Values -/

/-- What a simple value is read as. -/
def Simple.node : Simple → Node
  | .text s => .scalar (.text s)
  | .texts items => .array (items.map fun s => .scalar (.text s))

theorem scalar_spellText (s : String) {rest : List Char}
    (hbasic : StartsWithout (· == '"') rest) (hliteral : StartsWithout (· == '\'') rest) :
    scalar (spellText s ++ rest) = some (.scalar (.text s), rest) := by
  obtain ⟨q, t, hspell, hq⟩ := spellText_head s
  have hany := anyText_spellText s hbasic hliteral
  rw [hspell, List.cons_append] at hany ⊢
  rw [scalar]
  simp only [hq, if_true, hany]
  rfl

theorem value_spellText (depth : Nat) (s : String) {rest : List Char}
    (hbasic : StartsWithout (· == '"') rest) (hliteral : StartsWithout (· == '\'') rest) :
    value depth (spellText s ++ rest) = some (.scalar (.text s), rest) := by
  have hscalar := scalar_spellText s hbasic hliteral
  cases depth with
  | zero => exact hscalar
  | succ depth =>
    obtain ⟨q, t, hspell, hq⟩ := spellText_head s
    rw [hspell, List.cons_append] at hscalar ⊢
    rw [value.eq_def]
    rcases hq with rfl | rfl
    · exact hscalar
    · exact hscalar

theorem skipFiller_cons {c : Char} (hbreak : c ≠ '\n') (hreturn : c ≠ '\r')
    (hblank : isBlank c = false) (hcomment : c ≠ '#') (rest : List Char) :
    skipFiller false (c :: rest) = c :: rest := by
  have hline : ¬ (c = '\n' ∨ (c = '\r' ∧ rest.head? = some '\n')) := by
    rintro (h | h)
    · exact hbreak h
    · exact hreturn h.1
  rw [skipFiller, if_neg hline, if_neg Bool.false_ne_true, if_neg (Bool.eq_false_iff.1 hblank),
    if_neg hcomment]

theorem skipFiller_spellText (s : String) (rest : List Char) :
    skipFiller false (spellText s ++ rest) = spellText s ++ rest := by
  obtain ⟨q, t, hspell, hq⟩ := spellText_head s
  rw [hspell]
  rcases hq with rfl | rfl
  · exact skipFiller_cons (by decide) (by decide) (by decide) (by decide) _
  · exact skipFiller_cons (by decide) (by decide) (by decide) (by decide) _

theorem arrayItems_text (depth n : Nat) (a : String) {rest : List Char}
    (hbasic : StartsWithout (· == '"') rest) (hliteral : StartsWithout (· == '\'') rest) :
    arrayItems (value depth) (n + 1) (spellText a ++ rest) =
      match skipFiller false rest with
      | ']' :: rest => some ([.scalar (.text a)], rest)
      | ',' :: s => do
        let (items, rest) ← arrayItems (value depth) n s
        return (.scalar (.text a) :: items, rest)
      | _ => none := by
  have hvalue := value_spellText depth a hbasic hliteral
  rw [arrayItems, skipFiller_spellText]
  obtain ⟨q, t, hspell, hq⟩ := spellText_head a
  rw [hspell, List.cons_append] at hvalue ⊢
  split
  · next heq =>
    rw [List.head_eq_of_cons_eq heq] at hq
    exact absurd hq (by decide)
  · rw [hvalue, Option.bind_eq_bind, Option.bind_some]
    rfl

theorem arrayItems_blank (read : Reader Node) (n : Nat) (s : List Char) :
    arrayItems read n (' ' :: s) = arrayItems read n s := by
  cases n with
  | zero => rfl
  | succ n => rw [arrayItems, arrayItems, skipFiller]; rfl

theorem startsWithout_cons {p : Char → Bool} {c : Char} (h : p c = false) (rest : List Char) :
    StartsWithout p (c :: rest) := by
  rintro a ha
  rw [← Option.some.inj ha, h]

/-- The texts of a list, from behind its bracket or a comma. -/
theorem arrayItems_spell (depth n : Nat) {items : List String} (hlen : items.length ≤ n)
    (hpos : 0 < n) (rest : List Char) :
    arrayItems (value depth) n
        ([',', ' '].intercalate (items.map spellText) ++ ']' :: rest) =
      some (items.map fun s => .scalar (.text s), rest) := by
  induction n generalizing items with
  | zero => exact absurd hpos (Nat.lt_irrefl 0)
  | succ n ih =>
    match items with
    | [] => rfl
    | [a] =>
      rw [List.map_singleton, List.intercalate_singleton,
        arrayItems_text depth n a (startsWithout_cons rfl _) (startsWithout_cons rfl _)]
      rfl
    | a :: b :: more =>
      have hmore : (b :: more).length ≤ n := Nat.le_of_succ_le_succ hlen
      have hrest := ih hmore (Nat.lt_of_lt_of_le (Nat.succ_pos _) hmore)
      rw [List.map_cons] at hrest
      rw [List.map_cons, List.map_cons, List.intercalate_cons_cons, List.append_assoc,
        List.append_assoc, List.cons_append, List.cons_append, List.nil_append,
        arrayItems_text depth n a (startsWithout_cons rfl _) (startsWithout_cons rfl _)]
      show (arrayItems (value depth) n (' ' :: _)).bind _ = _
      rw [arrayItems_blank, hrest]
      rfl

theorem length_le_intercalate (items : List String) :
    items.length ≤ ([',', ' '].intercalate (items.map spellText)).length + 1 := by
  match items with
  | [] => exact Nat.zero_le _
  | [a] => exact Nat.le_add_left 1 _
  | a :: b :: more =>
    have hmore := length_le_intercalate (b :: more)
    rw [List.map_cons] at hmore
    rw [List.map_cons, List.map_cons, List.intercalate_cons_cons, List.length_append,
      List.length_append]
    have hsep : [',', ' '].length = 2 := rfl
    have hlen : (a :: b :: more).length = (b :: more).length + 1 := rfl
    omega

/-- A value that no quote follows is read as it was written. -/
theorem value_spell (v : Simple) {rest : List Char} (hbasic : StartsWithout (· == '"') rest)
    (hliteral : StartsWithout (· == '\'') rest) :
    value depthLimit (v.spell ++ rest) = some (v.node, rest) := by
  cases v with
  | text s => exact value_spellText _ s hbasic hliteral
  | texts items =>
    have hspell : (Simple.texts items).spell ++ rest =
        '[' :: ([',', ' '].intercalate (items.map spellText) ++ ']' :: rest) := by
      simp [Simple.spell]
    have hlen : items.length ≤
        ([',', ' '].intercalate (items.map spellText) ++ ']' :: rest).length + 1 := by
      have hitems := length_le_intercalate items
      rw [List.length_append]
      omega
    rw [hspell, depthLimit, value, arrayItems_spell _ _ hlen (Nat.succ_pos _)]
    rfl

/-! ## Lines -/

theorem endLine_break (rest : List Char) : endLine ('\n' :: rest) = some rest := rfl

/-- A line of a page, from its key to what follows its end. -/
theorem spellLine_append (field : String × Simple) (rest : List Char) :
    spellLine field ++ rest =
      spellKey field.1 ++ ' ' :: '=' :: ' ' :: (field.2.spell ++ '\n' :: rest) := by
  simp [spellLine]

theorem Simple.spell_head (v : Simple) : ∃ c t, v.spell = c :: t ∧ isBlank c = false := by
  cases v with
  | text s =>
    obtain ⟨q, t, hspell, rfl | rfl⟩ := spellText_head s
    · exact ⟨_, t, hspell, by decide⟩
    · exact ⟨_, t, hspell, by decide⟩
  | texts items => exact ⟨'[', _, rfl, by decide⟩

theorem entry_spellLine (field : String × Simple) (rest : List Char) :
    entry (value depthLimit) (spellLine field ++ rest) =
      some ((⟨[], field.1⟩, field.2.node), '\n' :: rest) := by
  have hpath : path depthLimit (spellLine field ++ rest) =
      some (⟨[], field.1⟩, '=' :: ' ' :: (field.2.spell ++ '\n' :: rest)) := by
    rw [spellLine_append]
    exact path_spellKey _ (startsWithout_cons (by decide) _) rfl (by decide)
  have hblanks : skipBlanks (' ' :: (field.2.spell ++ '\n' :: rest)) =
      field.2.spell ++ '\n' :: rest := by
    obtain ⟨c, t, hspell, hc⟩ := field.2.spell_head
    rw [hspell]
    exact skipBlanks_cons hc _
  rw [entry, hpath]
  show (value depthLimit (skipBlanks (' ' :: _))).bind _ = _
  rw [hblanks, value_spell _ (startsWithout_cons rfl _) (startsWithout_cons rfl _)]
  rfl

/-- What a line that says something starts with. -/
def isLineStart (c : Char) : Bool := isKeyStart c || c == '['

theorem isLineStart_of_isKeyStart {c : Char} (h : isKeyStart c = true) : isLineStart c = true := by
  rw [isLineStart, h, Bool.true_or]

theorem spellLine_head (field : String × Simple) :
    ∃ c t, spellLine field = c :: t ∧ isKeyStart c = true := by
  obtain ⟨c, t, hkey, hc⟩ := spellKey_head field.1
  rw [spellLine, hkey]
  exact ⟨c, _, rfl, hc⟩

theorem line_spellLine (field : String × Simple) (rest : List Char) :
    line (spellLine field ++ rest) = some (.entry ⟨[], field.1⟩ field.2.node, '\n' :: rest) := by
  have hentry : entryLine (spellLine field ++ rest) =
      some (.entry ⟨[], field.1⟩ field.2.node, '\n' :: rest) := by
    rw [entryLine, entry_spellLine]
    rfl
  obtain ⟨c, t, hspell, hc⟩ := spellLine_head field
  have hbracket : c ≠ '[' := ne_of_class hc (by decide)
  rw [hspell, List.cons_append] at hentry ⊢
  rw [line.eq_def]
  split
  · next heq => exact absurd (List.head_eq_of_cons_eq heq) hbracket
  · next heq => exact absurd (List.head_eq_of_cons_eq heq) hbracket
  · exact hentry

/-- The header of a table of a page. -/
def spellHeader (name : String) : List Char := '[' :: spellKey name ++ [']', '\n']

theorem line_spellHeader (name : String) (rest : List Char) :
    line (spellHeader name ++ rest) = some (.header false ⟨[], name⟩, '\n' :: rest) := by
  have hpath : path depthLimit (spellKey name ++ ']' :: '\n' :: rest) =
      some (⟨[], name⟩, ']' :: '\n' :: rest) :=
    path_spellKey _ (startsWithout_cons (by decide) _) rfl (by decide)
  have hheader : headerLine false (spellKey name ++ ']' :: '\n' :: rest) =
      some (.header false ⟨[], name⟩, '\n' :: rest) := by
    rw [headerLine, hpath]
    rfl
  have hspell : spellHeader name ++ rest = '[' :: (spellKey name ++ ']' :: '\n' :: rest) := by
    simp [spellHeader]
  obtain ⟨c, t, hkey, hc⟩ := spellKey_head name
  have hbracket : c ≠ '[' := ne_of_class hc (by decide)
  rw [hspell]
  rw [hkey, List.cons_append] at hheader ⊢
  rw [line.eq_def]
  split
  · next heq =>
    exact absurd (List.head_eq_of_cons_eq (List.tail_eq_of_cons_eq heq)) hbracket
  · next heq =>
    rw [← List.tail_eq_of_cons_eq heq]
    exact hheader
  · next hne => exact absurd rfl (hne _)

/-! ## Lines one after the other -/

/-- A text says some lines, however many are allowed beyond its length. -/
def Reads (s : List Char) (ls : List Line) : Prop := ∀ n, s.length < n → lines n s = some ls

/-- A text adds some lines in front of what follows it. -/
def Spells (s : List Char) (ls : List Line) : Prop :=
  ∀ more rest, Reads more rest → Reads (s ++ more) (ls ++ rest)

theorem lines_line {c : Char} (hc : isLineStart c = true) {t more : List Char} {l : Line}
    (hline : line (c :: t) = some (l, '\n' :: more)) (n : Nat) :
    lines (n + 1) (c :: t) = (lines n more).map (l :: ·) := by
  have hblank : isBlank c = false := not_blank_of_class hc (by decide) (by decide)
  have hcomment : c ≠ '#' := ne_of_class hc (by decide)
  have hbreak : c ≠ '\n' := ne_of_class hc (by decide)
  have hreturn : c ≠ '\r' := ne_of_class hc (by decide)
  rw [lines, skipBlanks_cons hblank]
  split
  · next heq => cases heq
  · next heq => exact absurd (List.head_eq_of_cons_eq heq) hcomment
  · rw [afterBreak?_eq_none hbreak hreturn, hline]
    show (do let ls ← endLine ('\n' :: more) >>= lines n; return l :: ls) = _
    rw [endLine_break]
    show (lines n more).bind _ = _
    cases lines n more <;> rfl

theorem Spells.nil : Spells [] [] := fun _ _ h => h

theorem Spells.append {s t : List Char} {ls ms : List Line} (hs : Spells s ls)
    (ht : Spells t ms) : Spells (s ++ t) (ls ++ ms) := by
  intro more rest hmore
  rw [List.append_assoc, List.append_assoc]
  exact hs _ _ (ht _ _ hmore)

theorem Spells.emptyLine : Spells ['\n'] [] := by
  intro more rest hmore n hn
  match n with
  | n + 1 => exact hmore n (Nat.lt_of_succ_lt_succ hn)

/-- A line that is read, whatever follows it. -/
theorem Spells.of_line {c : Char} (hc : isLineStart c = true) {t : List Char} {l : Line}
    (hline : ∀ rest, line (c :: (t ++ rest)) = some (l, '\n' :: rest)) : Spells (c :: t) [l] := by
  intro more rest hmore n hn
  match n with
  | n + 1 =>
    have hlen : more.length < n := by
      rw [List.cons_append, List.length_cons, List.length_append] at hn
      omega
    rw [List.cons_append, lines_line hc (hline more), hmore n hlen]
    rfl

theorem Spells.field (field : String × Simple) :
    Spells (spellLine field) [.entry ⟨[], field.1⟩ field.2.node] := by
  have hline := line_spellLine field
  obtain ⟨c, t, hspell, hc⟩ := spellLine_head field
  rw [hspell] at hline ⊢
  exact Spells.of_line (isLineStart_of_isKeyStart hc) hline

theorem Spells.header (name : String) : Spells (spellHeader name) [.header false ⟨[], name⟩] :=
  Spells.of_line rfl (line_spellHeader name)

theorem Spells.flatMap {α : Type} {spell : α → List Char} {line : α → Line}
    (h : ∀ a, Spells (spell a) [line a]) (xs : List α) :
    Spells (xs.flatMap spell) (xs.map line) := by
  induction xs with
  | nil => exact Spells.nil
  | cons x xs ih => exact (h x).append ih

/-- Parts with empty lines between them. -/
theorem Spells.intercalate {parts : List (List Char × List Line)}
    (h : ∀ part ∈ parts, Spells part.1 part.2) :
    Spells (['\n'].intercalate (parts.map Prod.fst)) (parts.flatMap Prod.snd) := by
  match parts with
  | [] => exact Spells.nil
  | [part] =>
    rw [List.map_singleton, List.intercalate_singleton, List.flatMap_singleton]
    exact h part List.mem_cons_self
  | part :: next :: more =>
    have hrest : ∀ x ∈ next :: more, Spells x.1 x.2 := fun x hx => h x (List.mem_cons_of_mem _ hx)
    have hmore := Spells.intercalate hrest
    rw [List.map_cons] at hmore
    rw [List.map_cons, List.map_cons, List.intercalate_cons_cons, List.flatMap_cons]
    have hpart := ((h part List.mem_cons_self).append Spells.emptyLine).append hmore
    rwa [List.append_nil] at hpart

end Enrolment.Toml
