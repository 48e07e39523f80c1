import Enrolment.Toml.Spelling

/-!
What stands between quotes is read as it was written, one theorem for each of the four forms.

A character in double quotes stands there as it is, behind a backslash, or as a code point
(`spellChar_cases`), and the readers take it back in any of the three guises.  Where a text may hold
quotes of its own, a reader that has found one looks two characters ahead: what it decides there is
the same whether it takes the quote for the text or for the end of it (`TakesQuote.push`).
-/

namespace Enrolment.Toml

/-! ## Characters -/

theorem isPlain_eq (c : Char) : isPlain c = !(isControl c && c != '\t') := by
  have hle : decide (0x20 ≤ c.toNat) = !decide (c.toNat < 0x20) := by
    rw [Bool.eq_iff_iff, Bool.not_eq_true', decide_eq_true_iff, decide_eq_false_iff_not, Nat.not_lt]
  rw [isPlain, isControl, hle, Bool.not_and, Bool.not_or, Bool.or_comm]
  simp [bne]

/-- A character of a class is none of those outside. -/
theorem ne_of_class {p : Char → Bool} {c d : Char} (hc : p c = true) (hd : p d = false) :
    c ≠ d := by
  rintro rfl
  exact Bool.false_ne_true (hd.symm.trans hc)

theorem hexValue?_hexDigit {n : Nat} (h : n < 16) : hexValue? (hexDigit n) = some n := by
  have hall : ∀ n < 16, hexValue? (hexDigit n) = some n := by decide
  exact hall n h

theorem hexDigit_ne_return {n : Nat} (h : n < 16) : hexDigit n ≠ '\r' := by
  have hall : ∀ n < 16, hexDigit n ≠ '\r' := by decide
  exact hall n h

theorem character?_toNat (c : Char) : character? c.toNat = some c := by
  have hvalid : c.toNat.isValidChar := c.valid
  rw [character?, if_pos hvalid, Char.ofNat_toNat]

/-- The three guises of a character in double quotes. -/
theorem spellChar_cases (long : Bool) {c : Char} (hquote : c ≠ '"') :
    (∃ x, spellChar long c = ['\\', x] ∧ escapeLetter? x = some c) ∨
    (c.toNat < 0x100 ∧ spellChar long c =
      ['\\', 'u', hexDigit 0, hexDigit 0, hexDigit (c.toNat / 16), hexDigit (c.toNat % 16)]) ∨
    (spellChar long c = [c] ∧ c ≠ '\r' ∧ c ≠ '\\' ∧
      (c = '\n' ∧ long = true ∨ isBasicChar c = true)) := by
  rw [spellChar]
  split
  · next h => exact .inl ⟨'b', rfl, h ▸ rfl⟩
  split
  · next h => exact .inl ⟨'t', rfl, h ▸ rfl⟩
  split
  · next h => exact .inl ⟨'f', rfl, h ▸ rfl⟩
  split
  · next h => exact .inl ⟨'r', rfl, h ▸ rfl⟩
  split
  · next h => exact .inl ⟨'\\', rfl, by rw [h]; rfl⟩
  split
  · next hreturn hslash h =>
    cases long with
    | true => exact .inr (.inr ⟨by rw [h]; rfl, hreturn, hslash, .inl ⟨h, rfl⟩⟩)
    | false => exact .inl ⟨'n', rfl, h ▸ rfl⟩
  split
  · next h =>
    refine .inr (.inl ⟨?_, rfl⟩)
    simp only [isControl, Bool.or_eq_true, decide_eq_true_eq, beq_iff_eq] at h
    omega
  · next hreturn hslash hbreak h =>
    refine .inr (.inr ⟨rfl, hreturn, hslash, .inr ?_⟩)
    have hplain : isPlain c = true := by
      rw [isPlain_eq, Bool.eq_false_iff.2 h, Bool.false_and, Bool.not_false]
    simp only [isBasicChar, hplain, Bool.true_and, Bool.and_eq_true, bne_iff_ne]
    exact ⟨hquote, hslash⟩

/-- No character but a quote is written with a quote in front, nor with a line break. -/
theorem spellChar_head (long : Bool) {c : Char} (hquote : c ≠ '"') :
    ∃ a more, spellChar long c = a :: more ∧ a ≠ '"' ∧ a ≠ '\r' ∧ (a = '\n' → c = '\n') := by
  rcases spellChar_cases long hquote with ⟨x, hspell, _⟩ | ⟨_, hspell⟩ | ⟨hspell, hreturn, _, _⟩
  · exact ⟨'\\', [x], hspell, by decide, by decide, fun h => absurd h (by decide)⟩
  · exact ⟨'\\', _, hspell, by decide, by decide, fun h => absurd h (by decide)⟩
  · exact ⟨c, [], hspell, hquote, hreturn, id⟩

/-! ## Code points -/

theorem nextDigit_more {left value digit : Nat} (hleft : 1 < left) (h : digit < 16) :
    nextDigit left value (hexDigit digit) = some (.inl (16 * value + digit)) := by
  rw [nextDigit, hexValue?_hexDigit h]
  show (if left ≤ 1 then _ else _) = _
  rw [if_neg (Nat.not_le_of_lt hleft)]
  rfl

theorem nextDigit_last {value digit : Nat} (h : digit < 16) {c : Char}
    (hc : 16 * value + digit = c.toNat) : nextDigit 1 value (hexDigit digit) = some (.inr c) := by
  rw [nextDigit, hexValue?_hexDigit h]
  show (do return Sum.inr (← character? (16 * value + digit))) = _
  rw [hc, character?_toNat]
  rfl

/-- A reader takes a character back in each of its guises. -/
structure TakesChars (long : Bool) (body : Reader (List Char)) : Prop where
  letter : ∀ {x c}, escapeLetter? x = some c → ∀ rest,
    body ('\\' :: x :: rest) = push c (body rest)
  code : ∀ {c : Char}, c.toNat < 0x100 → ∀ rest,
    body ('\\' :: 'u' :: hexDigit 0 :: hexDigit 0 :: hexDigit (c.toNat / 16) ::
      hexDigit (c.toNat % 16) :: rest) = push c (body rest)
  char : ∀ {c}, c ≠ '\r' → c ≠ '"' → c ≠ '\\' → (c = '\n' ∧ long = true ∨ isBasicChar c = true) →
    ∀ rest, body (c :: rest) = push c (body rest)

theorem TakesChars.spellChar {long : Bool} {body : Reader (List Char)} (h : TakesChars long body)
    {c : Char} (hquote : c ≠ '"') (rest : List Char) :
    body (Toml.spellChar long c ++ rest) = push c (body rest) := by
  rcases spellChar_cases long hquote with ⟨x, hspell, hx⟩ | ⟨hlt, hspell⟩ |
    ⟨hspell, hreturn, hslash, hc⟩
  · rw [hspell]
    exact h.letter hx rest
  · rw [hspell]
    exact h.code hlt rest
  · rw [hspell]
    exact h.char hreturn hquote hslash hc rest

/-! ## Double quotes on one line -/

theorem basicBody_letter {x c : Char} (h : escapeLetter? x = some c) (rest : List Char) :
    basicBody .plain ('\\' :: x :: rest) = push c (basicBody .plain rest) := by
  rw [basicBody, if_neg (by decide), if_pos rfl, basicBody, h]

theorem basicBody_code {c : Char} (h : c.toNat < 0x100) (rest : List Char) :
    basicBody .plain ('\\' :: 'u' :: hexDigit 0 :: hexDigit 0 :: hexDigit (c.toNat / 16) ::
      hexDigit (c.toNat % 16) :: rest) = push c (basicBody .plain rest) := by
  have hhigh : c.toNat / 16 < 16 := by omega
  have hlow : c.toNat % 16 < 16 := by omega
  have hc : 16 * (16 * (16 * (16 * 0 + 0) + 0) + c.toNat / 16) + c.toNat % 16 = c.toNat := by omega
  rw [basicBody, if_neg (by decide), if_pos rfl, basicBody]
  show basicBody (.code 4 0) _ = _
  rw [basicBody, nextDigit_more (by decide) (by decide)]
  show basicBody (.code 3 _) _ = _
  rw [basicBody, nextDigit_more (by decide) (by decide)]
  show basicBody (.code 2 _) _ = _
  rw [basicBody, nextDigit_more (by decide) hhigh]
  show basicBody (.code 1 _) _ = _
  rw [basicBody, nextDigit_last hlow hc]

theorem basicBody_char {c : Char} (h : isBasicChar c = true) (rest : List Char) :
    basicBody .plain (c :: rest) = push c (basicBody .plain rest) := by
  have hne := h
  simp only [isBasicChar, Bool.and_eq_true, bne_iff_ne] at hne
  rw [basicBody, if_neg hne.1.2, if_neg hne.2, if_pos h]

theorem basicBody_takesChars : TakesChars false (basicBody .plain) where
  letter := basicBody_letter
  code := basicBody_code
  char _ _ _ hc := basicBody_char (hc.resolve_left fun h => Bool.false_ne_true h.2)

theorem basicBody_spellBasic (s rest : List Char) :
    basicBody .plain (spellBasic false 0 s ++ '"' :: rest) = some (s, rest) := by
  induction s with
  | nil => rfl
  | cons c s ih =>
    rw [spellBasic]
    split
    · next h =>
      rw [if_neg (fun h => Bool.false_ne_true h.1), h, List.cons_append, List.cons_append,
        basicBody_letter rfl, ih]
      rfl
    · next h =>
      rw [List.append_assoc, basicBody_takesChars.spellChar h, ih]
      rfl

/-! ## Single quotes on one line -/

theorem literalBody_append {s : List Char} (h : ∀ c ∈ s, isLiteralChar c = true)
    (rest : List Char) : literalBody (s ++ '\'' :: rest) = some (s, rest) := by
  induction s with
  | nil => rfl
  | cons c s ih =>
    have hc := h c List.mem_cons_self
    have hne := hc
    simp only [isLiteralChar, Bool.and_eq_true, bne_iff_ne] at hne
    rw [List.cons_append, literalBody, if_neg hne.2, if_pos hc,
      ih fun x hx => h x (List.mem_cons_of_mem _ hx)]
    rfl

/-! ## Quotes inside and at the end -/

/-- A text that goes on with no such character. -/
def StartsWithout (p : Char → Bool) (s : List Char) : Prop := ∀ c, s.head? = some c → p c = false

/-- What three quotes end, and what they leave. -/
def closed (quote : Char) (s rest : List Char) : List Char := s ++ quote :: quote :: quote :: rest

/-- A quote that stands before such a text cannot be the first of the three that end it, or it is
one of at most two that stand right before them. -/
def Loose (quote : Char) (s : List Char) : Prop :=
  s = [] ∨ s = [quote] ∨ ∀ rest, afterTwo? quote (s ++ rest) = none

theorem afterTwo?_of_first {quote a : Char} (h : a ≠ quote) (rest : List Char) :
    afterTwo? quote (a :: rest) = none := by
  cases rest with
  | nil => rfl
  | cons b rest => exact if_neg fun hab => h hab.1

theorem afterTwo?_of_second {quote b : Char} (h : b ≠ quote) (a : Char) (rest : List Char) :
    afterTwo? quote (a :: b :: rest) = none := if_neg fun hab => h hab.2

theorem afterTwo?_self (quote : Char) (rest : List Char) :
    afterTwo? quote (quote :: quote :: rest) = some rest := if_pos ⟨rfl, rfl⟩

section Closing

variable {quote : Char} {rest : List Char}

theorem closingQuotes_clear (h : StartsWithout (· == quote) rest) :
    closingQuotes quote rest = ([], rest) := by
  match rest with
  | [] => rfl
  | [a] =>
    have ha : a ≠ quote := beq_eq_false_iff_ne.1 (h a rfl)
    rw [closingQuotes, if_neg ha]
  | a :: b :: more =>
    have ha : a ≠ quote := beq_eq_false_iff_ne.1 (h a rfl)
    rw [closingQuotes, if_neg ha]

theorem closingQuotes_one (h : StartsWithout (· == quote) rest) :
    closingQuotes quote (quote :: rest) = ([quote], rest) := by
  match rest with
  | [] => rw [closingQuotes, if_pos rfl]
  | a :: more =>
    have ha : a ≠ quote := beq_eq_false_iff_ne.1 (h a rfl)
    rw [closingQuotes, if_pos rfl, if_neg ha]

theorem closingQuotes_two :
    closingQuotes quote (quote :: quote :: rest) = ([quote, quote], rest) := by
  rw [closingQuotes, if_pos rfl, if_pos rfl]

/-- A reader of a text on several lines, at a quote. -/
def TakesQuote (quote : Char) (body : Reader (List Char)) : Prop :=
  ∀ t, body (quote :: t) = match afterTwo? quote t with
    | some rest => some (closingQuotes quote rest)
    | none => push quote (body t)

variable {body : Reader (List Char)}

theorem TakesQuote.close (hbody : TakesQuote quote body) (h : StartsWithout (· == quote) rest) :
    body (closed quote [] rest) = some ([], rest) := by
  rw [closed, List.nil_append, hbody, afterTwo?_self]
  exact congrArg some (closingQuotes_clear h)

theorem TakesQuote.close_one (hbody : TakesQuote quote body)
    (h : StartsWithout (· == quote) rest) :
    body (closed quote [quote] rest) = some ([quote], rest) := by
  rw [closed, List.singleton_append, hbody, afterTwo?_self]
  exact congrArg some (closingQuotes_one h)

/-- Wherever a text ends, a quote in front of it is read as part of it. -/
theorem TakesQuote.push (hbody : TakesQuote quote body) (h : StartsWithout (· == quote) rest)
    {s : List Char} (hs : Loose quote s) :
    body (quote :: closed quote s rest) = Toml.push quote (body (closed quote s rest)) := by
  rcases hs with rfl | rfl | hnone
  · rw [hbody.close h]
    exact hbody.close_one h
  · rw [hbody.close_one h, closed, List.singleton_append, hbody, afterTwo?_self]
    exact congrArg some closingQuotes_two
  · rw [hbody, closed, hnone]

end Closing

/-! ## Double quotes on several lines -/

theorem longBasicBody_takesQuote : TakesQuote '"' (longBasicBody (.text .plain)) := by
  intro t
  rw [longBasicBody, if_neg (by decide), if_neg (by decide)]
  rfl

/-- Behind a backslash, a letter is told from a line break and from blanks. -/
theorem escapeLetter?_distinct {x c : Char} (h : escapeLetter? x = some c) :
    x ≠ '\r' ∧ x ≠ '\n' ∧ isBlank x = false := by
  rw [escapeLetter?.eq_def] at h
  split at h
  case h_8 => cases h
  all_goals exact ⟨by decide, by decide, by decide⟩

theorem longBasicBody_letter {x c : Char} (h : escapeLetter? x = some c) (rest : List Char) :
    longBasicBody (.text .plain) ('\\' :: x :: rest) =
      push c (longBasicBody (.text .plain) rest) := by
  obtain ⟨hreturn, hbreak, hblank⟩ := escapeLetter?_distinct h
  have hstate : ¬ (LongState.text .escape = .gap ∧ (x = '\n' ∨ isBlank x = true)) :=
    fun hgap => nomatch hgap.1
  rw [longBasicBody, if_neg (by decide), if_neg (by decide)]
  show longBasicBody (.text .escape) (x :: rest) = _
  rw [longBasicBody, if_neg hreturn, if_neg hstate]
  simp only [hbreak, hblank, h, if_false, Bool.false_eq_true]

/-- One digit more of a code point. -/
theorem longBasicBody_digit {c : Char} (hc : c ≠ '\r') (left value : Nat) (rest : List Char) :
    longBasicBody (.text (.code left value)) (c :: rest) =
      match nextDigit left value c with
      | some (.inl value) => longBasicBody (.text (.code (left - 1) value)) rest
      | some (.inr x) => push x (longBasicBody (.text .plain) rest)
      | none => none := by
  have hstate : ¬ (LongState.text (.code left value) = .gap ∧ (c = '\n' ∨ isBlank c = true)) :=
    fun hgap => nomatch hgap.1
  rw [longBasicBody, if_neg hc]
  exact if_neg hstate

theorem longBasicBody_code {c : Char} (h : c.toNat < 0x100) (rest : List Char) :
    longBasicBody (.text .plain) ('\\' :: 'u' :: hexDigit 0 :: hexDigit 0 ::
      hexDigit (c.toNat / 16) :: hexDigit (c.toNat % 16) :: rest) =
        push c (longBasicBody (.text .plain) rest) := by
  have hhigh : c.toNat / 16 < 16 := by omega
  have hlow : c.toNat % 16 < 16 := by omega
  have hc : 16 * (16 * (16 * (16 * 0 + 0) + 0) + c.toNat / 16) + c.toNat % 16 = c.toNat := by omega
  have hzero : hexDigit 0 ≠ '\r' := hexDigit_ne_return (by decide)
  rw [longBasicBody, if_neg (by decide), if_neg (by decide)]
  show longBasicBody (.text .escape) ('u' :: _) = _
  rw [longBasicBody, if_neg (by decide), if_neg (by decide)]
  show longBasicBody (.text (.code 4 0)) _ = _
  rw [longBasicBody_digit hzero, nextDigit_more (by decide) (by decide)]
  show longBasicBody (.text (.code 3 _)) _ = _
  rw [longBasicBody_digit hzero, nextDigit_more (by decide) (by decide)]
  show longBasicBody (.text (.code 2 _)) _ = _
  rw [longBasicBody_digit (hexDigit_ne_return hhigh), nextDigit_more (by decide) hhigh]
  show longBasicBody (.text (.code 1 _)) _ = _
  rw [longBasicBody_digit (hexDigit_ne_return hlow), nextDigit_last hlow hc]

theorem longBasicBody_char {c : Char} (hreturn : c ≠ '\r') (hquote : c ≠ '"') (hslash : c ≠ '\\')
    (h : c = '\n' ∨ isBasicChar c = true) (rest : List Char) :
    longBasicBody (.text .plain) (c :: rest) = push c (longBasicBody (.text .plain) rest) := by
  have hstate : ¬ (LongState.text .plain = .gap ∧ (c = '\n' ∨ isBlank c = true)) :=
    fun hgap => nomatch hgap.1
  rw [longBasicBody, if_neg hreturn, if_neg hstate]
  simp only [hquote, hslash, h, if_true, if_false]

theorem longBasicBody_takesChars : TakesChars true (longBasicBody (.text .plain)) where
  letter := longBasicBody_letter
  code := longBasicBody_code
  char hreturn hquote hslash hc :=
    longBasicBody_char hreturn hquote hslash (hc.imp_left And.left)

/-- What is written behind two quotes does not start with a third. -/
theorem spellBasic_after_two (s : List Char) :
    spellBasic true 2 s = [] ∨ ∃ a more, spellBasic true 2 s = a :: more ∧ a ≠ '"' := by
  cases s with
  | nil => exact .inl rfl
  | cons c s =>
    refine .inr ?_
    rw [spellBasic]
    split
    · rw [if_neg (by decide)]
      exact ⟨_, _, rfl, by decide⟩
    · next h =>
      obtain ⟨a, more, hspell, ha, _⟩ := spellChar_head true h
      rw [hspell]
      exact ⟨a, _, rfl, ha⟩

/-- The first or second quote in a row may stand unescaped. -/
theorem loose_spellBasic {run : Nat} (hrun : run < 2) (s : List Char) :
    Loose '"' (spellBasic true (run + 1) s) := by
  cases s with
  | nil => exact .inl rfl
  | cons c s =>
    rw [spellBasic]
    split
    · split
      · next h =>
        obtain rfl : run = 0 := by omega
        rcases spellBasic_after_two s with hnil | ⟨a, more, hspell, ha⟩
        · exact .inr (.inl (congrArg _ hnil))
        · rw [hspell]
          exact .inr (.inr fun rest => afterTwo?_of_second ha _ _)
      · exact .inr (.inr fun rest => afterTwo?_of_first (by decide) _)
    · next h =>
      obtain ⟨a, more, hspell, ha, _⟩ := spellChar_head true h
      rw [hspell]
      exact .inr (.inr fun rest => afterTwo?_of_first ha _)

theorem longBasicBody_spellBasic {rest : List Char} (h : StartsWithout (· == '"') rest) (run : Nat)
    (s : List Char) :
    longBasicBody (.text .plain) (closed '"' (spellBasic true run s) rest) = some (s, rest) := by
  induction s generalizing run with
  | nil => exact longBasicBody_takesQuote.close h
  | cons c s ih =>
    rw [spellBasic]
    split
    · next hquote =>
      subst hquote
      split
      · next hrun =>
        show longBasicBody (.text .plain) ('"' :: closed '"' (spellBasic true (run + 1) s) rest) = _
        rw [longBasicBody_takesQuote.push h (loose_spellBasic hrun.2 s), ih]
        rfl
      · show longBasicBody (.text .plain) ('\\' :: '"' :: closed '"' (spellBasic true 0 s) rest) = _
        rw [longBasicBody_letter rfl, ih]
        rfl
    · next hquote =>
      have hih := ih 0
      rw [closed] at hih
      rw [closed, List.append_assoc, longBasicBody_takesChars.spellChar hquote, hih]
      rfl

/-! ## Single quotes on several lines -/

theorem longLiteralBody_takesQuote : TakesQuote '\'' longLiteralBody := by
  intro t
  rw [longLiteralBody, if_neg (by decide)]
  exact if_pos rfl

theorem loose_of_not_hasTriple {quote : Char} {s : List Char}
    (h : hasTriple quote (quote :: s) = false) : Loose quote s := by
  match s with
  | [] => exact .inl rfl
  | [a] =>
    by_cases ha : a = quote
    · exact .inr (.inl (congrArg (fun c => [c]) ha))
    · exact .inr (.inr fun rest => afterTwo?_of_first ha _)
  | a :: b :: more =>
    rw [hasTriple, Bool.or_eq_false_iff] at h
    refine .inr (.inr fun rest => if_neg fun hab => ?_)
    rw [hab.1, hab.2] at h
    simp at h

theorem hasTriple_of_cons {quote c : Char} {s : List Char}
    (h : hasTriple quote (c :: s) = false) : hasTriple quote s = false := by
  match s with
  | [] => rfl
  | [a] => rfl
  | a :: b :: more =>
    rw [hasTriple, Bool.or_eq_false_iff] at h
    exact h.2

theorem longLiteralBody_closed {s rest : List Char} (h : StartsWithout (· == '\'') rest)
    (hchars : ∀ c ∈ s, c = '\n' ∨ isPlain c = true) (htriple : hasTriple '\'' s = false) :
    longLiteralBody (closed '\'' s rest) = some (s, rest) := by
  induction s with
  | nil => exact longLiteralBody_takesQuote.close h
  | cons c s ih =>
    have hih := ih (fun x hx => hchars x (List.mem_cons_of_mem _ hx)) (hasTriple_of_cons htriple)
    show longLiteralBody (c :: closed '\'' s rest) = _
    by_cases hquote : c = '\''
    · subst hquote
      rw [longLiteralBody_takesQuote.push h (loose_of_not_hasTriple htriple), hih]
      rfl
    · have hc : c = '\n' ∨ isPlain c = true := hchars c List.mem_cons_self
      have hreturn : c ≠ '\r' := by
        rintro rfl
        exact absurd hc (by decide)
      have htext : c = '\n' ∨ isLiteralChar c = true :=
        hc.imp_right fun hplain => by
          rw [isLiteralChar, hplain, Bool.true_and, bne_iff_ne]
          exact hquote
      rw [longLiteralBody, if_neg hreturn, if_neg hquote, if_pos htext, hih]
      rfl

end Enrolment.Toml
