import Enrolment.Proofs.Toml.Text

/-!
Texts and keys are read as they were written, whichever form they take (`anyText_spellText`,
`simpleKey_spellKey`).

A form that knows no escapes is only taken where none is needed.
-/

namespace Enrolment.Toml

/-! ## Which form a text is given -/

theorem plain_of_free {s : List Char}
    (h : (s.any fun c => isControl c && c != '\t' && c != '\n') = false) :
    ∀ c ∈ s, c = '\n' ∨ isPlain c = true := by
  intro c hc
  have hfree := List.any_eq_false.1 h c hc
  by_cases hbreak : c = '\n'
  · exact .inl hbreak
  · rw [bne_iff_ne.2 hbreak, Bool.and_true] at hfree
    rw [isPlain_eq, Bool.eq_false_iff.2 hfree]
    exact .inr rfl

theorem isLiteralChar_of_plain {c : Char} (h : isPlain c = true) (hquote : c ≠ '\'') :
    isLiteralChar c = true := by
  rw [isLiteralChar, h, Bool.true_and, bne_iff_ne]
  exact hquote

/-- A text that is put in single quotes on one line can do without escapes. -/
theorem literal_of_formOf {s : List Char} (h : formOf s = .literal) :
    ∀ c ∈ s, isLiteralChar c = true := by
  simp only [formOf] at h
  split at h
  · cases h
  split at h
  · next hliteral =>
    simp only [Bool.and_eq_true, Bool.not_eq_true'] at hliteral
    obtain ⟨⟨hfree, hbreak⟩, hquote⟩ := hliteral
    intro c hc
    have hneBreak : c ≠ '\n' := by
      rintro rfl
      exact Bool.false_ne_true (hbreak.symm.trans (List.contains_iff_mem.2 hc))
    have hneQuote : c ≠ '\'' := by
      rintro rfl
      exact Bool.false_ne_true (hquote.symm.trans (List.contains_iff_mem.2 hc))
    exact isLiteralChar_of_plain ((plain_of_free hfree c hc).resolve_left hneBreak) hneQuote
  · split at h
    · cases h
    · split at h
      · cases h
      · split at h <;> cases h

/-- So can one that is put in single quotes on several lines, where three never meet. -/
theorem longLiteral_of_formOf {s : List Char} (h : formOf s = .longLiteral) :
    (∀ c ∈ s, c = '\n' ∨ isPlain c = true) ∧ hasTriple '\'' s = false := by
  simp only [formOf] at h
  split at h
  · cases h
  split at h
  · cases h
  split at h
  · cases h
  split at h
  · next hliteral =>
    simp only [Bool.and_eq_true, Bool.not_eq_true'] at hliteral
    exact ⟨plain_of_free hliteral.1, hliteral.2⟩
  · split at h <;> cases h

/-! ## Any text -/

theorem anyText_eq_shortText {s : List Char} (hbasic : ∀ t, s ≠ '"' :: '"' :: '"' :: t)
    (hliteral : ∀ t, s ≠ '\'' :: '\'' :: '\'' :: t) : anyText s = shortText s := by
  rw [anyText.eq_def]
  split
  · exact absurd rfl (hbasic _)
  · exact absurd rfl (hliteral _)
  · rfl

/-- On one line, three quotes never stand in front. -/
theorem not_triple {quote : Char} {body rest : List Char}
    (hbody : body = [] ∨ ∃ a more, body = a :: more ∧ a ≠ quote)
    (h : StartsWithout (· == quote) rest) (t : List Char) :
    quote :: (body ++ quote :: rest) ≠ quote :: quote :: quote :: t := by
  intro heq
  rcases hbody with rfl | ⟨a, more, rfl, ha⟩
  · have hrest : rest = quote :: t := List.tail_eq_of_cons_eq (List.tail_eq_of_cons_eq heq)
    have hfalse := h quote (by rw [hrest]; rfl)
    exact absurd hfalse (by simp)
  · exact ha (List.head_eq_of_cons_eq (List.tail_eq_of_cons_eq heq))

theorem spellBasic_head (s : List Char) :
    spellBasic false 0 s = [] ∨ ∃ a more, spellBasic false 0 s = a :: more ∧ a ≠ '"' := by
  cases s with
  | nil => exact .inl rfl
  | cons c s =>
    refine .inr ?_
    rw [spellBasic]
    split
    · rw [if_neg (fun h => Bool.false_ne_true h.1)]
      exact ⟨_, _, rfl, by decide⟩
    · next h =>
      obtain ⟨a, more, hspell, ha, _⟩ := spellChar_head false h
      rw [hspell]
      exact ⟨a, _, rfl, ha⟩

/-- The line break in front of a text with line breaks is skipped, and nothing else is. -/
theorem skipFirstBreak_first {s t : List Char} (h : '\n' ∉ s → afterBreak? t = none) :
    skipFirstBreak ((if s.contains '\n' then ['\n'] else []) ++ t) = t := by
  split
  · rfl
  · next hbreak =>
    have hnone := h fun hmem => hbreak (List.contains_iff_mem.2 hmem)
    rw [List.nil_append, skipFirstBreak, hnone]
    rfl

theorem afterBreak?_eq_none {c : Char} (hbreak : c ≠ '\n') (hreturn : c ≠ '\r')
    (rest : List Char) : afterBreak? (c :: rest) = none := by
  rw [afterBreak?.eq_def]
  split
  · next heq => exact absurd (List.head_eq_of_cons_eq heq) hbreak
  · next heq => exact absurd (List.head_eq_of_cons_eq heq) hreturn
  · rfl

theorem afterBreak?_spellBasic {s : List Char} (h : '\n' ∉ s) (rest : List Char) :
    afterBreak? (closed '"' (spellBasic true 0 s) rest) = none := by
  cases s with
  | nil => rfl
  | cons c s =>
    rw [spellBasic]
    split
    · rw [if_pos (by decide)]
      rfl
    · next hquote =>
      obtain ⟨a, more, hspell, _, hreturn, hbreak⟩ := spellChar_head true hquote
      rw [hspell]
      refine afterBreak?_eq_none (fun ha => h ?_) hreturn _
      exact List.mem_cons.2 (.inl (hbreak ha).symm)

theorem afterBreak?_literal {s : List Char} (hchars : ∀ c ∈ s, c = '\n' ∨ isPlain c = true)
    (h : '\n' ∉ s) (rest : List Char) : afterBreak? (closed '\'' s rest) = none := by
  cases s with
  | nil => rfl
  | cons c s =>
    have hbreak : c ≠ '\n' := fun hc => h (List.mem_cons.2 (.inl hc.symm))
    refine afterBreak?_eq_none hbreak ?_ _
    rintro rfl
    exact absurd ((hchars _ List.mem_cons_self).resolve_left hbreak) (by decide)

/-! ## Any text -/

theorem shortText_basic (s rest : List Char) :
    shortText ('"' :: (spellBasic false 0 s ++ '"' :: rest)) = some (String.ofList s, rest) := by
  rw [shortText, basicBody_spellBasic]
  rfl

theorem shortText_literal {s : List Char} (h : ∀ c ∈ s, isLiteralChar c = true)
    (rest : List Char) :
    shortText ('\'' :: (s ++ '\'' :: rest)) = some (String.ofList s, rest) := by
  rw [shortText, literalBody_append h]
  rfl

theorem spellAs_basic_append (s rest : List Char) :
    spellAs .basic s ++ rest = '"' :: (spellBasic false 0 s ++ '"' :: rest) := by
  simp [spellAs]

theorem spellAs_literal_append (s rest : List Char) :
    spellAs .literal s ++ rest = '\'' :: (s ++ '\'' :: rest) := by
  simp [spellAs]

theorem spellAs_longBasic_append (s rest : List Char) :
    spellAs .longBasic s ++ rest = '"' :: '"' :: '"' ::
      ((if s.contains '\n' then ['\n'] else []) ++ closed '"' (spellBasic true 0 s) rest) := by
  simp [spellAs, closed]

theorem spellAs_longLiteral_append (s rest : List Char) :
    spellAs .longLiteral s ++ rest = '\'' :: '\'' :: '\'' ::
      ((if s.contains '\n' then ['\n'] else []) ++ closed '\'' s rest) := by
  simp [spellAs, closed]

/-- A text that no quote follows is read as it was written. -/
theorem anyText_spellText (s : String) {rest : List Char}
    (hbasic : StartsWithout (· == '"') rest) (hliteral : StartsWithout (· == '\'') rest) :
    anyText (spellText s ++ rest) = some (s, rest) := by
  have hwhole : String.ofList s.toList = s := String.ofList_toList
  rw [spellText]
  cases hform : formOf s.toList with
  | basic =>
    have hdistinct : ∀ t, '"' :: (spellBasic false 0 s.toList ++ '"' :: rest) ≠
        '\'' :: '\'' :: '\'' :: t := fun t h => absurd (List.head_eq_of_cons_eq h) (by decide)
    rw [spellAs_basic_append,
      anyText_eq_shortText (not_triple (spellBasic_head _) hbasic) hdistinct, shortText_basic,
      hwhole]
  | literal =>
    have hchars := literal_of_formOf hform
    have hdistinct : ∀ t, '\'' :: (s.toList ++ '\'' :: rest) ≠ '"' :: '"' :: '"' :: t :=
      fun t h => absurd (List.head_eq_of_cons_eq h) (by decide)
    have hbody : s.toList = [] ∨ ∃ a more, s.toList = a :: more ∧ a ≠ '\'' := by
      cases hs : s.toList with
      | nil => exact .inl rfl
      | cons a more =>
        have ha : isLiteralChar a = true := hchars a (hs ▸ List.mem_cons_self)
        exact .inr ⟨a, more, rfl, ne_of_class ha (by decide)⟩
    rw [spellAs_literal_append, anyText_eq_shortText hdistinct (not_triple hbody hliteral),
      shortText_literal hchars, hwhole]
  | longBasic =>
    rw [spellAs_longBasic_append, anyText, skipFirstBreak_first (afterBreak?_spellBasic · rest),
      longBasicBody_spellBasic hbasic]
    exact congrArg (fun t => some (t, rest)) hwhole
  | longLiteral =>
    obtain ⟨hchars, htriple⟩ := longLiteral_of_formOf hform
    rw [spellAs_longLiteral_append, anyText,
      skipFirstBreak_first (afterBreak?_literal hchars · rest),
      longLiteralBody_closed hliteral hchars htriple]
    exact congrArg (fun t => some (t, rest)) hwhole

theorem spellText_head (s : String) : ∃ q t, spellText s = q :: t ∧ (q = '"' ∨ q = '\'') := by
  rw [spellText]
  cases formOf s.toList with
  | basic => exact ⟨_, _, rfl, .inl rfl⟩
  | literal => exact ⟨_, _, rfl, .inr rfl⟩
  | longBasic => exact ⟨_, _, rfl, .inl rfl⟩
  | longLiteral => exact ⟨_, _, rfl, .inr rfl⟩

/-! ## Keys -/

/-- A key stands bare, or in double quotes, or in single quotes and then without escapes. -/
theorem spellKey_cases (key : String) :
    (key.toList ≠ [] ∧ (∀ c ∈ key.toList, isBareChar c = true) ∧ spellKey key = key.toList) ∨
      spellKey key = spellAs .basic key.toList ∨
      ((∀ c ∈ key.toList, isLiteralChar c = true) ∧
        spellKey key = spellAs .literal key.toList) := by
  simp only [spellKey]
  split
  · next hbare =>
    simp only [Bool.and_eq_true, Bool.not_eq_true', List.isEmpty_eq_false_iff, List.all_eq_true]
      at hbare
    exact .inl ⟨hbare.1, hbare.2, rfl⟩
  split
  · exact .inr (.inl rfl)
  split
  · next hliteral =>
    simp only [Bool.and_eq_true, Bool.not_eq_true'] at hliteral
    refine .inr (.inr ⟨fun c hc => ?_, rfl⟩)
    have hplain : isPlain c = true := by
      rw [isPlain_eq, Bool.eq_false_iff.2 (List.any_eq_false.1 hliteral.1 c hc), Bool.not_false]
    refine isLiteralChar_of_plain hplain ?_
    rintro rfl
    exact Bool.false_ne_true (hliteral.2.symm.trans (List.contains_iff_mem.2 hc))
  · exact .inr (.inl rfl)

theorem not_quote_of_bare {c : Char} (h : isBareChar c = true) : ¬ (c = '"' ∨ c = '\'') := by
  rintro (hc | hc)
  · exact ne_of_class h (by decide) hc
  · exact ne_of_class h (by decide) hc

theorem simpleKey_bare {s rest : List Char} (hs : s ≠ []) (hbare : ∀ c ∈ s, isBareChar c = true)
    (h : StartsWithout isBareChar rest) :
    simpleKey (s ++ rest) = some (String.ofList s, rest) := by
  obtain ⟨c, more, rfl⟩ := List.exists_cons_of_ne_nil hs
  have hc : isBareChar c = true := hbare c List.mem_cons_self
  have hstop : rest.takeWhile isBareChar = [] ∧ rest.dropWhile isBareChar = rest := by
    cases rest with
    | nil => exact ⟨rfl, rfl⟩
    | cons a rest =>
      have ha : ¬ isBareChar a = true := Bool.eq_false_iff.1 (h a rfl)
      exact ⟨List.takeWhile_cons_of_neg ha, List.dropWhile_cons_of_neg ha⟩
  rw [List.cons_append, simpleKey, if_neg (not_quote_of_bare hc), if_pos hc, ← List.cons_append,
    List.takeWhile_append_of_pos hbare, List.dropWhile_append_of_pos hbare, hstop.1, hstop.2,
    List.append_nil]

/-- A key that no bare character follows is read as it was written. -/
theorem simpleKey_spellKey (key : String) {rest : List Char}
    (h : StartsWithout isBareChar rest) : simpleKey (spellKey key ++ rest) = some (key, rest) := by
  have hwhole : String.ofList key.toList = key := String.ofList_toList
  rcases spellKey_cases key with ⟨hne, hbare, hspell⟩ | hspell | ⟨hchars, hspell⟩
  · rw [hspell, simpleKey_bare hne hbare h, hwhole]
  · rw [hspell, spellAs_basic_append, simpleKey, if_pos (.inl rfl), shortText_basic, hwhole]
  · rw [hspell, spellAs_literal_append, simpleKey, if_pos (.inr rfl), shortText_literal hchars,
      hwhole]

/-- What a key starts with. -/
def isKeyStart (c : Char) : Bool := isBareChar c || c == '"' || c == '\''

theorem spellKey_head (key : String) : ∃ c t, spellKey key = c :: t ∧ isKeyStart c = true := by
  rcases spellKey_cases key with ⟨hne, hbare, hspell⟩ | hspell | ⟨_, hspell⟩
  · obtain ⟨c, t, hkey⟩ := List.exists_cons_of_ne_nil hne
    have hc : isBareChar c = true := hbare c (hkey ▸ List.mem_cons_self)
    exact ⟨c, t, hspell.trans hkey, by rw [isKeyStart, hc, Bool.true_or, Bool.true_or]⟩
  · exact ⟨'"', _, hspell, rfl⟩
  · exact ⟨'\'', _, hspell, rfl⟩

end Enrolment.Toml
