import Pacing.Proofs.Json.Grammar

/-!
# Tokens of a text

Every text of the grammar gives the tokens one expects, whatever text comes after it: a string its
pieces, a number its digits. A number is the one token whose end is not written, so what comes
after a text must not go on with one.

* `StringText.scan` and `NumeralText.scan` are the two tokens with something inside.
* `Lexes` is the statement about a whole text. Texts can be put one after the other, which is all
  the phrases of the grammar need.
-/

namespace Pacing.Json

/-! ### Strings -/

theorem scanText_close (rest : List Char) : scanText ('"' :: rest) = .done none rest := by
  rw [scanText.eq_def]
  simp

theorem scanText_plain {c : Char} (hquote : c ≠ '"') (hslash : c ≠ '\\') (hcontrol : 32 ≤ c.toNat)
    (rest : List Char) : scanText (c :: rest) = (scanText rest).cons (.char c) := by
  have hprintable : ¬ c.toNat < 32 := Nat.not_lt.mpr hcontrol
  rw [scanText.eq_def]
  simp [hquote, hslash, hprintable]

theorem scanText_letter {e c : Char} (h : escaped? e = some c) (rest : List Char) :
    scanText ('\\' :: e :: rest) = (scanText rest).cons (.char c) := by
  have hunit : e ≠ 'u' := by
    rintro rfl
    simp [escaped?] at h
  rw [scanText.eq_def]
  simp [hunit, h]

theorem scanText_codeUnit {p q r s : Char} {u : Nat} (h : codeUnit? p q r s = some u)
    (rest : List Char) :
    scanText ('\\' :: 'u' :: p :: q :: r :: s :: rest) = (scanText rest).cons (.codeUnit u) := by
  rw [scanText.eq_def]
  simp [h]

theorem assemble_char {pieces : List Piece} {cs : List Char} (h : assemble pieces none = .ok cs)
    (c : Char) : assemble (.char c :: pieces) none = .ok (c :: cs) := by
  simp [assemble, h, bind, Except.bind, pure, Except.pure]

/-- A code unit that is a character of its own. -/
theorem assemble_codeUnit {pieces : List Piece} {cs : List Char} (h : assemble pieces none = .ok cs)
    (c : Char) : assemble (.codeUnit c.toNat :: pieces) none = .ok (c :: cs) := by
  have hvalid : c.toNat < 0xD800 ∨ 0xDFFF < c.toNat ∧ c.toNat < 0x110000 := c.valid
  have htrailing : isTrailingUnit c.toNat = false := by
    simp only [isTrailingUnit, Bool.and_eq_false_iff, decide_eq_false_iff_not]
    omega
  have hleading : isLeadingUnit c.toNat = false := by
    simp only [isLeadingUnit, Bool.and_eq_false_iff, decide_eq_false_iff_not]
    omega
  rw [assemble.eq_def]
  simp [htrailing, hleading, h, bind, Except.bind, pure, Except.pure]

/-- A character beyond the first plane from its two code units. -/
theorem assemble_pair {pieces : List Piece} {cs : List Char} (h : assemble pieces none = .ok cs)
    {c : Char} (hplane : 0x10000 ≤ c.toNat) :
    assemble (.codeUnit (0xD800 + (c.toNat - 0x10000) / 0x400) ::
      .codeUnit (0xDC00 + (c.toNat - 0x10000) % 0x400) :: pieces) none = .ok (c :: cs) := by
  have hbound : c.toNat < 0x110000 := by
    have hvalid : c.toNat < 0xD800 ∨ 0xDFFF < c.toNat ∧ c.toNat < 0x110000 := c.valid
    omega
  generalize hlead : 0xD800 + (c.toNat - 0x10000) / 0x400 = lead
  generalize htrail : 0xDC00 + (c.toNat - 0x10000) % 0x400 = trail
  have hnotTrailing : isTrailingUnit lead = false := by
    simp only [isTrailingUnit, Bool.and_eq_false_iff, decide_eq_false_iff_not]
    omega
  have hleading : isLeadingUnit lead = true := by
    simp only [isLeadingUnit, Bool.and_eq_true, decide_eq_true_eq]
    omega
  have htrailing : isTrailingUnit trail = true := by
    simp only [isTrailingUnit, Bool.and_eq_true, decide_eq_true_eq]
    omega
  have hchar : pairedChar lead trail = c := by
    have hcode : 0x10000 + (lead - 0xD800) * 0x400 + (trail - 0xDC00) = c.toNat := by omega
    rw [pairedChar, hcode, Char.ofNat_toNat]
  simp [assemble, hnotTrailing, hleading, htrailing, hchar, h, bind, Except.bind, pure, Except.pure]

/-- The characters of a string from its text. -/
theorem BodyText.scan {cs body : List Char} (h : BodyText cs body) :
    ∃ pieces, assemble pieces none = .ok cs ∧
      ∀ rest, scanText (body ++ '"' :: rest) = ⟨⟨pieces, none⟩, rest⟩ := by
  induction h with
  | nil => exact ⟨[], rfl, scanText_close⟩
  | cons hchar _ ih =>
    obtain ⟨pieces, hpieces, hscan⟩ := ih
    cases hchar with
    | plain hquote hslash hcontrol =>
      refine ⟨.char _ :: pieces, assemble_char hpieces _, fun rest => ?_⟩
      rw [List.append_assoc, List.cons_append, scanText_plain hquote hslash hcontrol,
        List.nil_append, hscan]
      rfl
    | letter hletter =>
      refine ⟨.char _ :: pieces, assemble_char hpieces _, fun rest => ?_⟩
      simp only [List.cons_append, List.nil_append]
      rw [scanText_letter hletter, hscan]
      rfl
    | codeUnit hunit =>
      refine ⟨.codeUnit _ :: pieces, assemble_codeUnit hpieces _, fun rest => ?_⟩
      simp only [List.cons_append, List.nil_append]
      rw [scanText_codeUnit hunit, hscan]
      rfl
    | pair hplane hlead htrail =>
      refine ⟨.codeUnit _ :: .codeUnit _ :: pieces, assemble_pair hpieces hplane, fun rest => ?_⟩
      simp only [List.cons_append, List.nil_append]
      rw [scanText_codeUnit hlead, scanText_codeUnit htrail, hscan]
      rfl

/-- A string from behind its opening quote. -/
theorem StringText.scan {s : String} {text : List Char} (h : StringText s text) :
    ∃ body quoted, text = '"' :: body ∧ quoted.read = .ok s ∧
      ∀ rest, scanText (body ++ rest) = ⟨quoted, rest⟩ := by
  obtain ⟨hbody⟩ := h
  obtain ⟨pieces, hpieces, hscan⟩ := hbody.scan
  refine ⟨_, ⟨pieces, none⟩, rfl, ?_, fun rest => ?_⟩
  · simp [Quoted.read, hpieces, bind, Except.bind, pure, Except.pure]
  · rw [List.append_assoc, List.singleton_append, hscan]

/-! ### Numbers -/

/-- The text does not go on with a decimal digit. -/
def NoDigit (rest : List Char) : Prop := ∀ c, rest.head? = some c → digitValue? c = none

/-- A character a number can go on with. -/
def continuesNumber (c : Char) : Bool := (digitValue? c).isSome || c = '.' || c = 'e' || c = 'E'

/-- A number that ends here has ended: the text does not go on with one. -/
def Ends (rest : List Char) : Prop := ∀ c, rest.head? = some c → continuesNumber c = false

theorem Ends.noDigit {rest : List Char} (h : Ends rest) : NoDigit rest := by
  intro c hc
  have := h c hc
  simp only [continuesNumber, Bool.or_eq_false_iff, Option.isSome_eq_false_iff,
    Option.isNone_iff_eq_none] at this
  exact this.1.1.1

theorem Ends.head_ne {rest : List Char} (h : Ends rest) {c : Char} (hc : continuesNumber c = true) :
    rest.head? ≠ some c := by
  intro hhead
  rw [h c hhead] at hc
  exact absurd hc (by decide)

theorem digitValue?_digitChar {d : Nat} (h : d < 10) : digitValue? (Nat.digitChar d) = some d := by
  have hall : ∀ d < 10, digitValue? (Nat.digitChar d) = some d := by decide
  exact hall d h

theorem scanDigits_noDigit {rest : List Char} (h : NoDigit rest) : scanDigits rest = ([], rest) := by
  cases rest with
  | nil => rfl
  | cons c rest => simp [scanDigits, h c rfl]

theorem DigitsText.scan {ds : List Nat} {text rest : List Char} (h : DigitsText ds text)
    (hrest : NoDigit rest) : scanDigits (text ++ rest) = (ds, rest) := by
  induction h with
  | last hd => simp [scanDigits, digitValue?_digitChar hd, scanDigits_noDigit hrest]
  | cons hd _ ih => simp [scanDigits, digitValue?_digitChar hd, ih]

/-- There is a first digit, and the text starts with it. -/
theorem DigitsText.eq_cons {ds : List Nat} {text : List Char} (h : DigitsText ds text) :
    ∃ d more digits, d < 10 ∧ ds = d :: more ∧ text = Nat.digitChar d :: digits := by
  cases h with
  | last hd => exact ⟨_, [], [], hd, rfl, rfl⟩
  | cons hd _ => exact ⟨_, _, _, hd, rfl, rfl⟩

theorem WholeText.scan {ds : List Nat} {text rest : List Char} (h : WholeText ds text)
    (hrest : NoDigit rest) : scanWhole (text ++ rest) = .ok (ds, rest) := by
  obtain ⟨hdigits, hzero⟩ := h
  rw [scanWhole, hdigits.scan hrest]
  obtain ⟨d, more, -, -, rfl, -⟩ := hdigits.eq_cons
  match d, more, hzero with
  | 0, [], _ => rfl
  | d + 1, _, _ => rfl
  | 0, _ :: _, hzero => exact absurd (hzero rfl) (by simp)

theorem FractionText.scan {ds : List Nat} {text rest : List Char} (h : FractionText ds text)
    (hrest : NoDigit rest) (hpoint : rest.head? ≠ some '.') :
    scanFraction (text ++ rest) = .ok (ds, rest) := by
  cases h with
  | absent =>
    cases rest with
    | nil => rfl
    | cons c rest =>
      have hc : c ≠ '.' := fun h => hpoint (by rw [h, List.head?_cons])
      simp [scanFraction, hc]
  | point hdigits =>
    obtain ⟨d, more, -, -, rfl, -⟩ := hdigits.eq_cons
    simp [scanFraction, hdigits.scan hrest]

theorem ExponentText.scan {exponent : Option (Bool × List Nat)} {text rest : List Char}
    (h : ExponentText exponent text) (hrest : Ends rest) :
    scanExponent (text ++ rest) = .ok (exponent, rest) := by
  cases h with
  | absent =>
    cases rest with
    | nil => rfl
    | cons c rest =>
      have hc : ¬ (c = 'e' ∨ c = 'E') := by
        rintro (rfl | rfl)
        · exact hrest.head_ne rfl rfl
        · exact hrest.head_ne rfl rfl
      simp [scanExponent, hc]
  | unsigned he hdigits =>
    obtain ⟨d, more, digits, hd, rfl, rfl⟩ := hdigits.eq_cons
    have hsign : Nat.digitChar d ≠ '-' ∧ Nat.digitChar d ≠ '+' := by
      have hall : ∀ d < 10, Nat.digitChar d ≠ '-' ∧ Nat.digitChar d ≠ '+' := by decide
      exact hall d hd
    have hscan := hdigits.scan hrest.noDigit
    rw [List.cons_append] at hscan
    simp only [List.cons_append, scanExponent, he, if_true, hsign.1, hsign.2, if_false, hscan]
  | plus he hdigits =>
    obtain ⟨d, more, -, -, rfl, -⟩ := hdigits.eq_cons
    simp [scanExponent, he, hdigits.scan hrest.noDigit]
  | minus he hdigits =>
    obtain ⟨d, more, -, -, rfl, -⟩ := hdigits.eq_cons
    simp [scanExponent, he, hdigits.scan hrest.noDigit]

theorem FractionText.noDigit {ds : List Nat} {text rest : List Char} (h : FractionText ds text)
    (hrest : NoDigit rest) : NoDigit (text ++ rest) := by
  cases h with
  | absent => exact hrest
  | point _ =>
    intro c hc
    obtain rfl : '.' = c := Option.some.inj hc
    rfl

/-- What follows the fraction starts with the letter of the exponent or is the rest. -/
theorem ExponentText.head {exponent : Option (Bool × List Nat)} {text rest : List Char}
    (h : ExponentText exponent text) (hrest : Ends rest) :
    NoDigit (text ++ rest) ∧ (text ++ rest).head? ≠ some '.' := by
  have hletter : ∀ {e : Char} {more : List Char}, e = 'e' ∨ e = 'E' →
      NoDigit (e :: more) ∧ (e :: more).head? ≠ some '.' := by
    rintro e more (rfl | rfl)
    · exact ⟨fun c hc => by cases hc; rfl, by simp⟩
    · exact ⟨fun c hc => by cases hc; rfl, by simp⟩
  cases h with
  | absent => exact ⟨hrest.noDigit, hrest.head_ne rfl⟩
  | unsigned he _ => exact hletter he
  | plus he _ => exact hletter he
  | minus he _ => exact hletter he

theorem UnsignedText.scan {negative : Bool} {m : Numeral} {text rest : List Char}
    (h : UnsignedText negative m text) (hrest : Ends rest) :
    scanNumeral negative (text ++ rest) = .ok (m, rest) := by
  obtain ⟨hwhole, hfraction, hexponent⟩ := h
  have hpower := hexponent.head hrest
  simp only [scanNumeral, List.append_assoc, hwhole.scan (hfraction.noDigit hpower.1),
    hfraction.scan hpower.1 hpower.2, hexponent.scan hrest, bind, Except.bind, pure, Except.pure]

/-! ### Whole texts -/

/-- With enough fuel for the text and what follows, the text gives these tokens, and enough fuel is
left for what follows. -/
def Lexes (text : List Char) (tokens : List Token) : Prop :=
  ∀ rest fuel, Ends rest → (text ++ rest).length ≤ fuel →
    ∃ left, rest.length ≤ left ∧ lexWith fuel (text ++ rest) = tokens ++ lexWith left rest

theorem Lexes.lex_eq {text : List Char} {tokens : List Token} (h : Lexes text tokens) :
    lex text = tokens := by
  obtain ⟨left, -, htokens⟩ := h [] text.length nofun (by simp)
  rw [List.append_nil] at htokens
  rw [lex, htokens]
  cases left <;> simp [lexWith]

theorem Lexes.nil : Lexes [] [] := fun _ fuel _ hfuel => ⟨fuel, hfuel, rfl⟩

/-- Blanks give no token. -/
theorem Lexes.blank {b : Char} {text : List Char} {tokens : List Token} (hb : isBlank b = true)
    (h : Lexes text tokens) : Lexes (b :: text) tokens := by
  intro rest fuel hrest hfuel
  obtain ⟨fuel, rfl⟩ : ∃ n, fuel = n + 1 := Nat.exists_eq_add_one_of_ne_zero (by
    simp only [List.cons_append, List.length_cons] at hfuel
    omega)
  obtain ⟨left, hleft, htokens⟩ := h rest fuel hrest (by simpa using hfuel)
  exact ⟨left, hleft, by simpa [lexWith, hb] using htokens⟩

theorem Lexes.blanks {blanks text : List Char} {tokens : List Token} (hblanks : Blank blanks)
    (h : Lexes text tokens) : Lexes (blanks ++ text) tokens := by
  induction blanks with
  | nil => exact h
  | cons b blanks ih =>
    obtain ⟨hb, hblanks⟩ := List.forall_mem_cons.mp hblanks
    exact (ih hblanks).blank hb

/-- One token, and then the tokens of a text that may follow it at once. -/
theorem Lexes.token_cons {c : Char} {body text : List Char} {token : Token} {tokens : List Token}
    (hblank : isBlank c = false)
    (hscan : ∀ rest, Ends rest → scanToken c (body ++ (text ++ rest)) = (token, text ++ rest))
    (h : Lexes text tokens) : Lexes (c :: (body ++ text)) (token :: tokens) := by
  intro rest fuel hrest hfuel
  simp only [List.cons_append, List.append_assoc, List.length_cons, List.length_append] at hfuel ⊢
  obtain ⟨fuel, rfl⟩ : ∃ n, fuel = n + 1 := Nat.exists_eq_add_one_of_ne_zero (by omega)
  obtain ⟨left, hleft, htokens⟩ := h rest fuel hrest (by rw [List.length_append]; omega)
  refine ⟨left, hleft, ?_⟩
  simp [lexWith, hblank, hscan rest hrest, htokens]

/-- A single token. -/
theorem Lexes.token {c : Char} {body : List Char} {token : Token} (hblank : isBlank c = false)
    (hscan : ∀ rest, Ends rest → scanToken c (body ++ rest) = (token, rest)) :
    Lexes (c :: body) [token] := by
  have happend : Lexes (c :: (body ++ [])) [token] :=
    Lexes.token_cons hblank (by simpa using hscan) Lexes.nil
  rwa [List.append_nil] at happend

/-- A token of one character. -/
theorem Lexes.mark {c : Char} {text : List Char} {token : Token} {tokens : List Token}
    (hblank : isBlank c = false) (hscan : ∀ rest, scanToken c rest = (token, rest))
    (h : Lexes text tokens) : Lexes (c :: text) (token :: tokens) := by
  have hshort : ∀ rest, Ends rest → scanToken c ([] ++ (text ++ rest)) = (token, text ++ rest) :=
    fun rest _ => hscan (text ++ rest)
  exact Lexes.token_cons hblank hshort h

/-- A text and one that no number can go on with. -/
theorem Lexes.append {text more : List Char} {c : Char} {tokens later : List Token}
    (h : Lexes text tokens) (hc : continuesNumber c = false) (hmore : Lexes (c :: more) later) :
    Lexes (text ++ c :: more) (tokens ++ later) := by
  intro rest fuel hrest hfuel
  have hends : Ends (c :: more ++ rest) := by
    intro c' hc'
    obtain rfl : c = c' := Option.some.inj hc'
    exact hc
  rw [List.append_assoc] at hfuel ⊢
  obtain ⟨between, hbetween, hfirst⟩ := h _ fuel hends hfuel
  obtain ⟨left, hleft, hsecond⟩ := hmore rest between hrest hbetween
  exact ⟨left, hleft, by rw [hfirst, hsecond, List.append_assoc]⟩

theorem continuesNumber_of_isBlank {b : Char} (h : isBlank b = true) :
    continuesNumber b = false := by
  simp only [isBlank, Bool.or_eq_true, decide_eq_true_eq] at h
  rcases h with ((rfl | rfl) | rfl) | rfl <;> rfl

theorem Lexes.blanks_after {text blanks : List Char} {tokens : List Token}
    (h : Lexes text tokens) (hblanks : Blank blanks) : Lexes (text ++ blanks) tokens := by
  cases blanks with
  | nil => simpa using h
  | cons b blanks =>
    have hb := continuesNumber_of_isBlank (List.forall_mem_cons.mp hblanks).1
    have hnone : Lexes (b :: blanks) [] := by simpa using Lexes.nil.blanks hblanks
    simpa using h.append hb hnone

theorem StringText.lexes {s : String} {text : List Char} (h : StringText s text) :
    ∃ quoted : Quoted, quoted.read = .ok s ∧ Lexes text [.text quoted] := by
  obtain ⟨body, quoted, rfl, hread, hscan⟩ := h.scan
  refine ⟨quoted, hread, Lexes.token rfl fun rest _ => ?_⟩
  simp [scanToken, hscan]

/-- A digit starts a number. -/
theorem scanToken_digit {d : Nat} (hd : d < 10) (rest : List Char) :
    scanToken (Nat.digitChar d) rest = numberToken false (Nat.digitChar d :: rest) := by
  have hmarks : ∀ d < 10, Nat.digitChar d ∉
      ['[', ']', '\x7b', '\x7d', ',', ':', '"', 'n', 't', 'f', '-'] := by decide
  have hmark := hmarks d hd
  simp only [List.mem_cons, List.not_mem_nil, or_false, not_or] at hmark
  simp [scanToken, hmark, digitValue?_digitChar hd]

theorem NumeralText.lexes {m : Numeral} {text : List Char} (h : NumeralText m text) :
    Lexes text [.number m] := by
  cases h with
  | positive h =>
    have hscan : ∀ rest, Ends rest → scanNumeral false (text ++ rest) = .ok (m, rest) :=
      fun _ hrest => h.scan hrest
    obtain ⟨⟨hdigits, -⟩, -, -⟩ := h
    obtain ⟨d, more, digits, hd, rfl, rfl⟩ := hdigits.eq_cons
    have hblank : isBlank (Nat.digitChar d) = false := by
      have hall : ∀ d < 10, isBlank (Nat.digitChar d) = false := by decide
      exact hall d hd
    simp only [List.cons_append] at hscan ⊢
    refine Lexes.token hblank fun rest hrest => ?_
    rw [scanToken_digit hd, numberToken, hscan rest hrest]
  | negative h =>
    refine Lexes.token rfl fun rest hrest => ?_
    simp [scanToken, numberToken, h.scan hrest]

end Pacing.Json
