import Mathlib.Tactic.SplitIfs
import Pacing.Proofs.Json.Reading

/-!
# Only the texts of a document

A text that is read as a document is one of its texts. With the other direction, which is about every
text of a document, this says what reading does: it takes exactly the texts of documents that are not
too deep, and a text is one of at most one document.

* `scanText_written`, `scanNumeral_written` are the two tokens with something inside.
* `Spells` are the texts of a list of tokens, and `spells_lexWith` says that a text is one of its own
  tokens.
* `Recognizes` is what reading says of a tree, and `recognizes` follows it by recursion on how far the
  tree is read.
* `parseWithin_eq_ok` is the main statement.
-/

namespace Pacing.Json

/-! ### Strings -/

/-- The text of a piece of a string. -/
inductive PieceText : Piece → List Char → Prop
  | plain {c : Char} : c ≠ '"' → c ≠ '\\' → 32 ≤ c.toNat → PieceText (.char c) [c]
  | letter {e c : Char} : escaped? e = some c → PieceText (.char c) ['\\', e]
  | codeUnit {p q r s : Char} {u : Nat} : codeUnit? p q r s = some u →
      PieceText (.codeUnit u) ['\\', 'u', p, q, r, s]

/-- Pieces one after the other. -/
inductive PiecesText : List Piece → List Char → Prop
  | nil : PiecesText [] []
  | cons {piece : Piece} {pieces : List Piece} {text body : List Char} : PieceText piece text →
      PiecesText pieces body → PiecesText (piece :: pieces) (text ++ body)

/-- A string that was scanned up to its closing quote stood there. -/
theorem scanText_written {text : List Char} (h : (scanText text).quoted.flaw = none) :
    ∃ body, PiecesText (scanText text).quoted.pieces body ∧
      text = body ++ '"' :: (scanText text).rest := by
  fun_induction scanText text with
  | case2 rest => exact ⟨[], .nil, rfl⟩
  | case4 p q r s rest u hu _ ih =>
    obtain ⟨body, hbody, htext⟩ := ih h
    exact ⟨_, .cons (.codeUnit hu) hbody, congrArg (['\\', 'u', p, q, r, s] ++ ·) htext⟩
  | case7 e rest _ decoded hdecoded _ ih =>
    obtain ⟨body, hbody, htext⟩ := ih h
    exact ⟨_, .cons (.letter hdecoded) hbody, congrArg (['\\', e] ++ ·) htext⟩
  | case10 c rest hquote hslash hcontrol ih =>
    obtain ⟨body, hbody, htext⟩ := ih h
    exact ⟨_, .cons (.plain hquote hslash (Nat.not_lt.mp hcontrol)) hbody,
      congrArg (c :: ·) htext⟩
  | _ => cases h

theorem hexValue?_lt {c : Char} {n : Nat} (h : hexValue? c = some n) : n < 16 := by
  have hcode : ∀ {a b : Char}, a ≤ c ∧ c ≤ b → a.toNat ≤ c.toNat ∧ c.toNat ≤ b.toNat := fun h => h
  unfold hexValue? at h
  split at h
  case isTrue hdigit =>
    obtain rfl := Option.some.inj h
    have := (hcode hdigit).2
    have : '9'.toNat = 57 := rfl
    omega
  case isFalse =>
    split at h
    case isTrue hlower =>
      obtain rfl := Option.some.inj h
      have := (hcode hlower).2
      have : 'f'.toNat = 102 := rfl
      omega
    case isFalse =>
      split at h
      case isTrue hupper =>
        obtain rfl := Option.some.inj h
        have := (hcode hupper).2
        have : 'F'.toNat = 70 := rfl
        omega
      case isFalse => cases h

theorem codeUnit?_lt {p q r s : Char} {u : Nat} (h : codeUnit? p q r s = some u) : u < 0x10000 := by
  unfold codeUnit? at h
  split at h
  case h_1 a b c d ha hb hc hd =>
    obtain rfl := Option.some.inj h
    have := hexValue?_lt ha
    have := hexValue?_lt hb
    have := hexValue?_lt hc
    have := hexValue?_lt hd
    omega
  case h_2 => cases h

/-- The code of a character that is made from its code. -/
theorem toNat_ofNat {u : Nat} (h : u.isValidChar) : (Char.ofNat u).toNat = u := by
  rw [Char.ofNat, dif_pos h]
  rfl

/-- A code unit that is no part of a pair is a character of its own. -/
theorem isValidChar_of_unit {u : Nat} (hbound : u < 0x10000) (htrail : ¬ isTrailingUnit u = true)
    (hlead : ¬ isLeadingUnit u = true) : u.isValidChar := by
  simp only [isTrailingUnit, isLeadingUnit, Bool.and_eq_true, decide_eq_true_eq] at htrail hlead
  show u < 0xD800 ∨ 0xDFFF < u ∧ u < 0x110000
  omega

/-- The two code units of a character beyond the first plane. -/
theorem pairedChar_units {lead trail : Nat} (hlead : isLeadingUnit lead = true)
    (htrail : isTrailingUnit trail = true) :
    0x10000 ≤ (pairedChar lead trail).toNat ∧
      lead = 0xD800 + ((pairedChar lead trail).toNat - 0x10000) / 0x400 ∧
      trail = 0xDC00 + ((pairedChar lead trail).toNat - 0x10000) % 0x400 := by
  simp only [isTrailingUnit, isLeadingUnit, Bool.and_eq_true, decide_eq_true_eq] at htrail hlead
  have hvalid : (0x10000 + (lead - 0xD800) * 0x400 + (trail - 0xDC00)).isValidChar := by
    right
    omega
  rw [pairedChar, toNat_ofNat hvalid]
  omega

/-- Pieces that stand for characters are a way to write them. -/
theorem assemble_written {pieces : List Piece} {flaw : Option Fault} {cs body : List Char}
    (h : assemble pieces flaw = .ok cs) (hbody : PiecesText pieces body) : BodyText cs body := by
  fun_induction assemble pieces flaw generalizing cs body with
  | case1 =>
    cases h
    cases hbody
    exact .nil
  | case3 c pieces flaw ih =>
    obtain ⟨cs', hcs', hsame⟩ := bind_eq_ok.mp h
    cases hsame
    cases hbody with
    | cons hpiece hbody =>
      refine .cons ?_ (ih hcs' hbody)
      cases hpiece with
      | plain hquote hslash hcontrol => exact .plain hquote hslash hcontrol
      | letter hletter => exact .letter hletter
  | case5 lead flaw _ hlead trail pieces htrail ih =>
    obtain ⟨cs', hcs', hsame⟩ := bind_eq_ok.mp h
    cases hsame
    obtain ⟨hplane, hfirst, hsecond⟩ := pairedChar_units hlead htrail
    cases hbody with
    | cons hpiece hbody =>
      cases hpiece with
      | codeUnit hu =>
        cases hbody with
        | cons hpiece hbody =>
          cases hpiece with
          | codeUnit hv =>
            have hpair := BodyText.cons (.pair hplane (hfirst ▸ hu) (hsecond ▸ hv)) (ih hcs' hbody)
            exact hpair
  | case9 u pieces flaw htrail hlead ih =>
    obtain ⟨cs', hcs', hsame⟩ := bind_eq_ok.mp h
    cases hsame
    cases hbody with
    | cons hpiece hbody =>
      cases hpiece with
      | codeUnit hu =>
        have hvalid := isValidChar_of_unit (codeUnit?_lt hu) htrail hlead
        exact .cons (.codeUnit (by rw [toNat_ofNat hvalid, hu])) (ih hcs' hbody)
  | _ => cases h

/-- Only a string that was closed stands for characters. -/
theorem assemble_closed {pieces : List Piece} {flaw : Option Fault} {cs : List Char}
    (h : assemble pieces flaw = .ok cs) : flaw = none := by
  fun_induction assemble pieces flaw generalizing cs with
  | case1 => rfl
  | case3 _ _ _ ih | case5 _ _ _ _ _ _ _ ih | case9 _ _ _ _ _ ih =>
    obtain ⟨_, hcs, -⟩ := bind_eq_ok.mp h
    exact ih hcs
  | _ => cases h

/-! ### Numbers -/

theorem digitValue?_eq_some {c : Char} {d : Nat} (h : digitValue? c = some d) :
    d < 10 ∧ c = Nat.digitChar d := by
  unfold digitValue? at h
  split at h
  case isTrue hdigit =>
    obtain rfl := Option.some.inj h
    have hlow : 48 ≤ c.toNat := hdigit.1
    have hhigh : c.toNat ≤ 57 := hdigit.2
    have hall : ∀ d < 10, Char.ofNat (d + 48) = Nat.digitChar d := by decide
    refine ⟨by omega, ?_⟩
    rw [← hall _ (by omega), Nat.sub_add_cancel hlow, Char.ofNat_toNat]
  case isFalse => cases h

/-- The text that was scanned as digits is one of them, if there are any. -/
theorem scanDigits_split (text : List Char) : ∃ digits, text = digits ++ (scanDigits text).2 ∧
    ((scanDigits text).1 = [] ∧ digits = [] ∨ DigitsText (scanDigits text).1 digits) := by
  induction text with
  | nil => exact ⟨[], rfl, .inl ⟨rfl, rfl⟩⟩
  | cons c text ih =>
    obtain ⟨digits, htext, hdigits⟩ := ih
    unfold scanDigits
    split
    case h_1 => exact ⟨[], rfl, .inl ⟨rfl, rfl⟩⟩
    case h_2 d hd =>
      obtain ⟨hten, rfl⟩ := digitValue?_eq_some hd
      refine ⟨Nat.digitChar d :: digits, congrArg (_ :: ·) htext, .inr ?_⟩
      rcases hdigits with ⟨hnone, rfl⟩ | hdigits
      · show DigitsText (d :: (scanDigits text).1) _
        rw [hnone]
        exact .last hten
      · exact .cons hten hdigits

theorem scanDigits_written {text rest : List Char} {ds : List Nat}
    (h : scanDigits text = (ds, rest)) (hds : ds ≠ []) :
    ∃ digits, DigitsText ds digits ∧ text = digits ++ rest := by
  obtain ⟨digits, htext, hdigits⟩ := scanDigits_split text
  rw [h] at htext hdigits
  exact ⟨digits, hdigits.resolve_left fun hnone => hds hnone.1, htext⟩

theorem scanWhole_written {text rest : List Char} {ds : List Nat}
    (h : scanWhole text = .ok (ds, rest)) : ∃ digits, WholeText ds digits ∧ text = digits ++ rest := by
  unfold scanWhole at h
  split at h
  case h_1 => cases h
  case h_2 => cases h
  case h_3 _ _ _ hsome hzero hscan =>
    cases h
    obtain ⟨digits, hdigits, htext⟩ := scanDigits_written hscan hsome
    refine ⟨digits, ⟨hdigits, fun hhead => ?_⟩, htext⟩
    match ds, hhead with
    | [_], rfl => rfl
    | _ :: d :: ds, rfl => exact (hzero d ds rfl).elim

theorem scanFraction_written {text rest : List Char} {ds : List Nat}
    (h : scanFraction text = .ok (ds, rest)) :
    ∃ places, FractionText ds places ∧ text = places ++ rest := by
  unfold scanFraction at h
  split at h
  case h_1 =>
    cases h
    exact ⟨[], .absent, rfl⟩
  case h_2 c text =>
    split at h
    case isTrue hpoint =>
      subst hpoint
      split at h
      case h_1 => cases h
      case h_2 _ _ _ hsome hscan =>
        cases h
        obtain ⟨digits, hdigits, htext⟩ := scanDigits_written hscan hsome
        exact ⟨_, .point hdigits, congrArg ('.' :: ·) htext⟩
    case isFalse =>
      cases h
      exact ⟨[], .absent, rfl⟩

theorem scanExponent_written {text rest : List Char} {exponent : Option (Bool × List Nat)}
    (h : scanExponent text = .ok (exponent, rest)) :
    ∃ power, ExponentText exponent power ∧ text = power ++ rest := by
  unfold scanExponent at h
  split at h
  case h_1 =>
    cases h
    exact ⟨[], .absent, rfl⟩
  case h_2 c text =>
    split at h
    case isTrue hletter =>
      dsimp only at h
      split at h
      case h_1 => cases h
      case h_2 _ ds' rest' hsome hscan =>
        cases h
        obtain ⟨digits, hdigits, htext⟩ := scanDigits_written hscan hsome
        clear hscan
        match text with
        | [] => exact ⟨_, .unsigned hletter hdigits, congrArg (c :: ·) htext⟩
        | s :: after =>
          dsimp only at htext ⊢
          split at htext
          case isTrue hminus =>
            subst hminus
            exact ⟨_, .minus hletter hdigits, congrArg (c :: '-' :: ·) htext⟩
          case isFalse hminus =>
            rw [if_neg hminus]
            split at htext
            case isTrue hplus =>
              subst hplus
              exact ⟨_, .plus hletter hdigits, congrArg (c :: '+' :: ·) htext⟩
            case isFalse hplus =>
              rw [if_neg hplus]
              exact ⟨_, .unsigned hletter hdigits, congrArg (c :: ·) htext⟩
    case isFalse =>
      cases h
      exact ⟨[], .absent, rfl⟩

theorem UnsignedText.eq_cons {negative : Bool} {m : Numeral} {text : List Char}
    (h : UnsignedText negative m text) : ∃ c rest, text = c :: rest := by
  obtain ⟨⟨hdigits, -⟩, -, -⟩ := h
  obtain ⟨d, _, digits, -, -, rfl⟩ := hdigits.eq_cons
  exact ⟨_, _, rfl⟩

/-- A number that was scanned stood there. -/
theorem scanNumeral_written {negative : Bool} {text rest : List Char} {m : Numeral}
    (h : scanNumeral negative text = .ok (m, rest)) :
    ∃ body, UnsignedText negative m body ∧ text = body ++ rest := by
  obtain ⟨⟨whole, text'⟩, hwhole, h⟩ := bind_eq_ok.mp h
  obtain ⟨⟨fraction, text''⟩, hfraction, h⟩ := bind_eq_ok.mp h
  obtain ⟨⟨exponent, _⟩, hexponent, h⟩ := bind_eq_ok.mp h
  cases h
  obtain ⟨digits, hdigits, rfl⟩ := scanWhole_written hwhole
  obtain ⟨places, hplaces, rfl⟩ := scanFraction_written hfraction
  obtain ⟨power, hpower, rfl⟩ := scanExponent_written hexponent
  exact ⟨_, .parts hdigits hplaces hpower, by simp only [List.append_assoc]⟩

/-! ### Integers -/

/-- Digits after a number that is not zero are its further decimal digits. -/
theorem toDigits_digitsValue {start : Nat} {ds : List Nat} {text : List Char}
    (h : DigitsText ds text) (hstart : 0 < start) :
    Nat.toDigits 10 (digitsValue start ds) = Nat.toDigits 10 start ++ text := by
  have hstep : ∀ {start d : Nat}, 0 < start → d < 10 →
      Nat.toDigits 10 (start * 10 + d) = Nat.toDigits 10 start ++ [Nat.digitChar d] := by
    intro start d hstart hd
    rw [Nat.mul_comm, ← Nat.toDigits_append_toDigits (by decide) hstart hd,
      Nat.toDigits_of_lt_base hd]
  induction h generalizing start with
  | last hd => exact hstep hstart hd
  | @cons d ds text hd _ ih =>
    show Nat.toDigits 10 (digitsValue (start * 10 + d) ds) = _
    rw [ih (by omega), hstep hstart hd, List.append_assoc, List.singleton_append]

/-- The digits before the point are those of their number. -/
theorem WholeText.eq_toDigits {ds : List Nat} {text : List Char} (h : WholeText ds text) :
    text = Nat.toDigits 10 (digitsValue 0 ds) := by
  obtain ⟨hdigits, hzero⟩ := h
  cases hdigits with
  | @last d hd =>
    have hvalue : digitsValue 0 [d] = d := Nat.zero_add d
    rw [hvalue, Nat.toDigits_of_lt_base hd]
  | @cons d ds text hd hmore =>
    have hpos : 0 < d := by
      refine Nat.pos_of_ne_zero fun hd0 => ?_
      have hsole := hzero (by rw [hd0]; rfl)
      obtain ⟨_, _, _, -, rfl, -⟩ := hmore.eq_cons
      cases hsole
    have hvalue : digitsValue 0 (d :: ds) = digitsValue d ds := by
      show digitsValue (0 * 10 + d) ds = digitsValue d ds
      rw [Nat.zero_mul, Nat.zero_add]
    rw [hvalue, toDigits_digitsValue hmore hpos, Nat.toDigits_of_lt_base hd]
    rfl

/-- Digits that were all taken are a number below the limit. -/
theorem takeDigits_eq {ds : List Nat} {start v : Nat} (h : takeDigits ds start = (v, 0))
    (hstart : start < 18446744073709551616) :
    v = digitsValue start ds ∧ v < 18446744073709551616 := by
  induction ds generalizing start with
  | nil =>
    cases h
    exact ⟨rfl, hstart⟩
  | cons d ds ih =>
    rw [takeDigits] at h
    split at h
    case isTrue hnext => exact ih h hnext
    case isFalse => cases h

theorem floatOf_ne_int {negative : Bool} {significand : Nat} {exponent n : Int} :
    floatOf negative significand exponent ≠ .ok (.int n) := by
  intro h
  obtain ⟨d, -, hfloat⟩ := bind_eq_ok.mp h
  cases hfloat

/-- Only a number without fraction and exponent whose digits fit in a word is read as an integer. -/
theorem Numeral.read_eq_int {m : Numeral} {n : Int} (h : m.read = .ok (.int n)) :
    m.fraction = [] ∧ m.exponent = none ∧ digitsValue 0 m.whole < 18446744073709551616 ∧
      wholeNumber m.negative (digitsValue 0 m.whole) = .int n := by
  obtain ⟨negative, whole, fraction, exponent⟩ := m
  unfold Numeral.read at h
  generalize hwhole : takeDigits whole 0 = taken at h
  obtain ⟨v, raised⟩ := taken
  generalize hplaces : takeDigits fraction v = places at h
  cases exponent with
  | none =>
    dsimp only at h
    split at h
    case isTrue hnone =>
      obtain ⟨rfl, rfl⟩ := hnone
      cases hplaces
      obtain ⟨rfl, hfits⟩ := takeDigits_eq hwhole (by decide)
      exact ⟨rfl, rfl, hfits, Except.ok.inj h⟩
    case isFalse => exact absurd h floatOf_ne_int
  | some exponent =>
    dsimp only at h
    split at h
    case h_1 => exact absurd h floatOf_ne_int
    case h_2 =>
      split at h
      case isTrue => cases h
      case isFalse => cases h

theorem wholeNumber_eq_int {negative : Bool} {v : Nat} {n : Int} (h : wholeNumber negative v = .int n) :
    negative = false ∧ n = v ∨ negative = true ∧ n = -v ∧ v ≠ 0 ∧ v ≤ 9223372036854775808 := by
  unfold wholeNumber at h
  split at h
  case isTrue hpositive =>
    cases h
    exact .inl ⟨hpositive, rfl⟩
  case isFalse hnegative =>
    split at h
    case isTrue => cases h
    case isFalse hbound =>
      cases h
      obtain ⟨hzero, hlarge⟩ := not_or.mp hbound
      exact .inr ⟨eq_true_of_ne_false hnegative, rfl, hzero, Nat.not_lt.mp hlarge⟩

theorem FractionText.eq_nil {text : List Char} (h : FractionText [] text) : text = [] := by
  cases h with
  | absent => rfl
  | point hdigits => cases hdigits

theorem ExponentText.eq_nil {text : List Char} (h : ExponentText none text) : text = [] := by
  cases h
  rfl

/-- A numeral that stands for an integer is its decimal digits. -/
theorem NumeralText.numberText {m : Numeral} {n : Int} {text : List Char} (h : NumeralText m text)
    (hread : m.read = .ok (.int n)) : NumberText (.int n) text := by
  obtain ⟨hfraction, hexponent, hfits, hvalue⟩ := Numeral.read_eq_int hread
  have hdigits : ∀ {negative : Bool} {body : List Char}, UnsignedText negative m body →
      m.negative = negative ∧ body = Nat.toDigits 10 (digitsValue 0 m.whole) := by
    rintro negative _ ⟨hwhole, hplaces, hpower⟩
    cases hfraction
    cases hexponent
    rw [hplaces.eq_nil, hpower.eq_nil, List.append_nil, ← hwhole.eq_toDigits]
    exact ⟨rfl, List.append_nil _⟩
  rcases wholeNumber_eq_int hvalue with ⟨hsign, rfl⟩ | ⟨hsign, rfl, hzero, hlarge⟩
  · cases h with
    | positive h =>
      rw [(hdigits h).2, ← Nat.toList_repr]
      exact .int (by omega) (by omega)
    | negative h => exact absurd ((hdigits h).1.symm.trans hsign) (by decide)
  · cases h with
    | positive h => exact absurd ((hdigits h).1.symm.trans hsign) (by decide)
    | negative h =>
      obtain ⟨k, hk⟩ := Nat.exists_eq_add_one_of_ne_zero hzero
      rw [(hdigits h).2, hk, ← toString_negSucc_toList]
      exact .int (by omega) (by omega)

/-! ### Tokens -/

/-- The text of a token that is whole. -/
inductive TokenText : Token → List Char → Prop
  | beginArray : TokenText .beginArray ['[']
  | endArray : TokenText .endArray [']']
  | beginObject : TokenText .beginObject ['\x7b']
  | endObject : TokenText .endObject ['\x7d']
  | comma : TokenText .comma [',']
  | colon : TokenText .colon [':']
  | null : TokenText .null ['n', 'u', 'l', 'l']
  | true : TokenText (.bool true) ['t', 'r', 'u', 'e']
  | false : TokenText (.bool false) ['f', 'a', 'l', 's', 'e']
  | number {m : Numeral} {text : List Char} : NumeralText m text → TokenText (.number m) text
  | text {pieces : List Piece} {body : List Char} : PiecesText pieces body →
      TokenText (.text ⟨pieces, none⟩) ('"' :: (body ++ ['"']))

/-- The token carries a fault. -/
def Token.Broken : Token → Prop
  | .brokenNumber _ | .broken _ => True
  | .text t => t.flaw ≠ none
  | _ => False

/-- A text of some tokens, with blanks between them. Of what stands where a token is broken, nothing
is said. -/
inductive Spells : List Token → List Char → Prop
  | nil : Spells [] []
  | blank {b : Char} {tokens : List Token} {text : List Char} : isBlank b = true →
      Spells tokens text → Spells tokens (b :: text)
  | token {t : Token} {tokens : List Token} {text rest : List Char} : TokenText t text →
      Spells tokens rest → Spells (t :: tokens) (text ++ rest)
  | broken {t : Token} {tokens : List Token} {text : List Char} : t.Broken →
      Spells (t :: tokens) text

theorem scanWord_written {word text rest : List Char} (h : scanWord word text = (none, rest)) :
    text = word ++ rest := by
  induction word generalizing text with
  | nil =>
    cases h
    rfl
  | cons w word ih =>
    cases text with
    | nil => cases h
    | cons c text =>
      rw [scanWord] at h
      split at h
      case isTrue hw => rw [hw, ih h, List.cons_append]
      case isFalse => cases h

theorem literal_written {token t : Token} {word text after : List Char}
    (h : literal token word text = (t, after)) : t.Broken ∨ t = token ∧ text = word ++ after := by
  unfold literal at h
  split at h
  case h_1 _ rest hscan =>
    cases h
    exact .inr ⟨rfl, scanWord_written hscan⟩
  case h_2 =>
    cases h
    exact .inl trivial

theorem numberToken_written {negative : Bool} {t : Token} {text after : List Char}
    (h : numberToken negative text = (t, after)) :
    t.Broken ∨ ∃ m body, t = .number m ∧ UnsignedText negative m body ∧ text = body ++ after := by
  unfold numberToken at h
  split at h
  case h_1 m rest hscan =>
    cases h
    obtain ⟨body, hbody, htext⟩ := scanNumeral_written hscan
    exact .inr ⟨m, body, rfl, hbody, htext⟩
  case h_2 =>
    cases h
    exact .inl trivial

/-- A token that was scanned is broken, or stood there. -/
theorem scanToken_written {c : Char} {rest after : List Char} {t : Token}
    (h : scanToken c rest = (t, after)) :
    t.Broken ∨ ∃ body, TokenText t (c :: body) ∧ rest = body ++ after := by
  have hmark : ∀ {mark : Token}, (mark, rest) = (t, after) → TokenText mark [c] →
      ∃ body, TokenText t (c :: body) ∧ rest = body ++ after := by
    rintro mark hsame hmark
    cases hsame
    exact ⟨[], hmark, rfl⟩
  have hword : ∀ {token : Token} {word : List Char}, literal token word rest = (t, after) →
      TokenText token (c :: word) →
      t.Broken ∨ ∃ body, TokenText t (c :: body) ∧ rest = body ++ after := by
    rintro token word hliteral htoken
    rcases literal_written hliteral with hbroken | ⟨rfl, htext⟩
    · exact .inl hbroken
    · exact .inr ⟨word, htoken, htext⟩
  by_cases hopen : c = '['
  · subst hopen
    exact .inr (hmark h .beginArray)
  by_cases hclose : c = ']'
  · subst hclose
    exact .inr (hmark h .endArray)
  by_cases hbegin : c = '\x7b'
  · subst hbegin
    exact .inr (hmark h .beginObject)
  by_cases hend : c = '\x7d'
  · subst hend
    exact .inr (hmark h .endObject)
  by_cases hcomma : c = ','
  · subst hcomma
    exact .inr (hmark h .comma)
  by_cases hcolon : c = ':'
  · subst hcolon
    exact .inr (hmark h .colon)
  by_cases hquote : c = '"'
  · subst hquote
    cases h
    by_cases hflaw : (scanText rest).quoted.flaw = none
    · obtain ⟨body, hbody, htext⟩ := scanText_written hflaw
      have hwhole : (scanText rest).quoted = ⟨(scanText rest).quoted.pieces, none⟩ := by rw [← hflaw]
      refine .inr ⟨body ++ ['"'], ?_, ?_⟩
      · rw [hwhole]
        exact .text hbody
      · rw [List.append_assoc, List.singleton_append, ← htext]
    · exact .inl hflaw
  by_cases hnull : c = 'n'
  · subst hnull
    exact hword h .null
  by_cases htrue : c = 't'
  · subst htrue
    exact hword h .true
  by_cases hfalse : c = 'f'
  · subst hfalse
    exact hword h .false
  by_cases hminus : c = '-'
  · subst hminus
    rcases numberToken_written h with hbroken | ⟨m, body, rfl, hbody, htext⟩
    · exact .inl hbroken
    · exact .inr ⟨body, .number (.negative hbody), htext⟩
  simp only [scanToken, hopen, hclose, hbegin, hend, hcomma, hcolon, hquote, hnull, htrue, hfalse,
    hminus, if_false] at h
  split at h
  case isTrue =>
    rcases numberToken_written h with hbroken | ⟨m, body, rfl, hbody, htext⟩
    · exact .inl hbroken
    · obtain ⟨d, digits, rfl⟩ := hbody.eq_cons
      cases htext
      exact .inr ⟨digits, .number (.positive hbody), rfl⟩
  case isFalse =>
    cases h
    exact .inl trivial

/-- **Lexing.** A text is one of its own tokens. -/
theorem spells_lexWith {fuel : Nat} {text : List Char} (h : text.length ≤ fuel) :
    Spells (lexWith fuel text) text := by
  induction fuel generalizing text with
  | zero =>
    obtain rfl := List.length_eq_zero_iff.mp (Nat.le_zero.mp h)
    exact .nil
  | succ fuel ih =>
    cases text with
    | nil => exact .nil
    | cons c rest =>
      have hrest : rest.length ≤ fuel := Nat.le_of_succ_le_succ h
      rw [lexWith]
      split
      case isTrue hblank => exact .blank hblank (ih hrest)
      case isFalse =>
        generalize hscan : scanToken c rest = scanned
        obtain ⟨t, after⟩ := scanned
        rcases scanToken_written hscan with hbroken | ⟨body, htoken, rfl⟩
        · exact .broken hbroken
        · have hafter : after.length ≤ fuel := by
            rw [List.length_append] at hrest
            omega
          exact .token htoken (ih hafter)

theorem Spells.nil_inv {text : List Char} (h : Spells [] text) : Blank text := by
  generalize htokens : ([] : List Token) = tokens at h
  induction h with
  | nil => exact Blank.nil
  | blank hb _ ih => exact List.forall_mem_cons.mpr ⟨hb, ih htokens⟩
  | token | broken => cases htokens

theorem Spells.cons_inv {t : Token} {tokens : List Token} {text : List Char}
    (h : Spells (t :: tokens) text) (ht : ¬ t.Broken) :
    ∃ blanks body after, Blank blanks ∧ TokenText t body ∧ Spells tokens after ∧
      text = blanks ++ (body ++ after) := by
  generalize hall : t :: tokens = all at h
  induction h with
  | nil => cases hall
  | blank hb _ ih =>
    obtain ⟨blanks, body, after, hblanks, hbody, hafter, rfl⟩ := ih hall
    exact ⟨_, body, after, List.forall_mem_cons.mpr ⟨hb, hblanks⟩, hbody, hafter, rfl⟩
  | token htoken hrest =>
    cases hall
    exact ⟨[], _, _, Blank.nil, htoken, hrest, rfl⟩
  | broken hbroken =>
    cases hall
    exact absurd hbroken ht

/-- A token of one character. -/
theorem Spells.mark {t : Token} {c : Char} {tokens : List Token} {text : List Char}
    (h : Spells (t :: tokens) text) (ht : ¬ t.Broken)
    (hmark : ∀ {body : List Char}, TokenText t body → body = [c]) :
    ∃ blanks after, Blank blanks ∧ Spells tokens after ∧ text = blanks ++ c :: after := by
  obtain ⟨blanks, body, after, hblanks, hbody, hafter, rfl⟩ := h.cons_inv ht
  rw [hmark hbody]
  exact ⟨blanks, after, hblanks, hafter, rfl⟩

/-! ### Documents -/

section Documents

variable {depth : Nat} {v : Json} {text : List Char}

theorem Written.blanks_before {blanks : List Char} (hblanks : Blank blanks) (h : Written depth v text) :
    Written depth v (blanks ++ text) := by
  induction blanks with
  | nil => exact h
  | cons b blanks ih =>
    obtain ⟨hb, hblanks⟩ := List.forall_mem_cons.mp hblanks
    exact .blankBefore hb (ih hblanks)

theorem Written.blanks_after {blanks : List Char} (hblanks : Blank blanks) (h : Written depth v text) :
    Written depth v (text ++ blanks) := by
  induction blanks generalizing text with
  | nil => rwa [List.append_nil]
  | cons b blanks ih =>
    obtain ⟨hb, hblanks⟩ := List.forall_mem_cons.mp hblanks
    have hfirst := ih hblanks (.blankAfter hb h)
    rwa [List.append_assoc, List.singleton_append] at hfirst

/-- A string that was read has been closed, and its pieces are a way to write it. -/
theorem Quoted.read_eq_ok {t : Quoted} {s : String} (h : t.read = .ok s) :
    ¬ (Token.text t).Broken ∧ ∀ {body : List Char}, TokenText (.text t) body → StringText s body := by
  obtain ⟨cs, hcs, hs⟩ := bind_eq_ok.mp h
  cases hs
  refine ⟨fun hbroken => hbroken (assemble_closed hcs), fun hbody => ?_⟩
  cases hbody with
  | text hpieces => exact .quoted (by rw [String.toList_ofList]; exact assemble_written hcs hpieces)

/-- What a list of tokens is read as with so much fuel, if nothing of it is a fault, is written in each
of the texts of the tokens, up to a text of the tokens that are left. -/
structure Recognizes (fuel : Nat) : Prop where
  value : ∀ {depth tokens rest o v text}, readValue fuel tokens = (o, rest) → o.read depth = .ok v →
    Spells tokens text → ∃ body after, Written depth v body ∧ Spells rest after ∧ text = body ++ after
  elements : ∀ {depth tokens rest os vs text}, readElements fuel tokens = (os, .closed, rest) →
    readAll depth os = .ok vs → Spells tokens text →
    ∃ body after, ElementsText depth vs body ∧ Spells rest after ∧ text = body ++ after
  members : ∀ {depth tokens rest os ms text}, readMembers fuel tokens = (os, .closed, rest) →
    readEach depth os = .ok ms → Spells tokens text →
    ∃ body after, MembersText depth ms body ∧ Spells rest after ∧ text = body ++ after

theorem recognizes_zero : Recognizes 0 where
  value h hread := by
    cases h
    rw [Outline.read] at hread
    cases hread
  elements h := by cases h
  members h := by cases h

variable {fuel : Nat} {tokens rest : List Token}

/-- A document of one token. -/
theorem Spells.written {t : Token} (h : Spells (t :: tokens) text) (ht : ¬ t.Broken)
    (hwritten : ∀ {body : List Char}, TokenText t body → Written depth v body) :
    ∃ body after, Written depth v body ∧ Spells tokens after ∧ text = body ++ after := by
  obtain ⟨blanks, body, after, hblanks, hbody, hafter, rfl⟩ := h.cons_inv ht
  exact ⟨_, after, (hwritten hbody).blanks_before hblanks, hafter, (List.append_assoc ..).symm⟩

/-- A key and the colon after it. -/
theorem Spells.key {t : Quoted} {k : String} (h : Spells (.text t :: .colon :: tokens) text)
    (hk : t.read = .ok k) :
    ∃ key after, Written depth (.string k) key ∧ Spells tokens after ∧ text = key ++ ':' :: after := by
  obtain ⟨hclosed, hstring⟩ := Quoted.read_eq_ok hk
  have hwritten : ∀ {body : List Char}, TokenText (.text t) body → Written depth (.string k) body :=
    fun hbody => .string (hstring hbody)
  obtain ⟨key, inner, hkey, hinner, rfl⟩ := h.written hclosed hwritten
  obtain ⟨blanks, after, hblanks, hafter, rfl⟩ := hinner.mark id fun h => by cases h; rfl
  exact ⟨_, after, hkey.blanks_after hblanks, hafter, by simp⟩

theorem Recognizes.array (hfuel : Recognizes fuel) {o : Outline}
    (h : readValue (fuel + 1) (.beginArray :: tokens) = (o, rest)) (hread : o.read depth = .ok v)
    (hspells : Spells (.beginArray :: tokens) text) :
    ∃ body after, Written depth v body ∧ Spells rest after ∧ text = body ++ after := by
  obtain ⟨blanks, inner, hblanks, hinner, rfl⟩ := hspells.mark id fun h => by cases h; rfl
  rw [readValue.eq_def] at h
  dsimp only at h
  split at h
  case h_1 =>
    cases h
    obtain ⟨_, -, hclosed, -⟩ := Outline.read_array_eq_ok.mp hread
    cases hclosed
  case h_2 =>
    cases h
    obtain ⟨d, rfl, -, vs, hvs, rfl⟩ := Outline.read_array_eq_ok.mp hread
    rw [readAll_nil] at hvs
    cases hvs
    obtain ⟨blanks', after, hblanks', hafter, rfl⟩ := hinner.mark id fun h => by cases h; rfl
    refine ⟨_, after, (Written.array (.empty hblanks')).blanks_before hblanks, hafter, ?_⟩
    simp
  case h_3 =>
    cases h
    obtain ⟨d, rfl, hclosed, vs, hvs, rfl⟩ := Outline.read_array_eq_ok.mp hread
    have helements : readElements fuel tokens =
        ((readElements fuel tokens).1, .closed, (readElements fuel tokens).2.2) :=
      Prod.ext rfl (Prod.ext hclosed rfl)
    obtain ⟨body, after, hbody, hafter, rfl⟩ := hfuel.elements helements hvs hinner
    refine ⟨_, after, (Written.array (.elements hbody)).blanks_before hblanks, hafter, ?_⟩
    simp

theorem Recognizes.object (hfuel : Recognizes fuel) {o : Outline}
    (h : readValue (fuel + 1) (.beginObject :: tokens) = (o, rest)) (hread : o.read depth = .ok v)
    (hspells : Spells (.beginObject :: tokens) text) :
    ∃ body after, Written depth v body ∧ Spells rest after ∧ text = body ++ after := by
  obtain ⟨blanks, inner, hblanks, hinner, rfl⟩ := hspells.mark id fun h => by cases h; rfl
  rw [readValue.eq_def] at h
  dsimp only at h
  split at h
  case h_1 =>
    cases h
    obtain ⟨d, rfl, -, members, hmembers, rfl⟩ := Outline.read_object_eq_ok.mp hread
    rw [readEach_nil] at hmembers
    cases hmembers
    obtain ⟨blanks', after, hblanks', hafter, rfl⟩ := hinner.mark id fun h => by cases h; rfl
    refine ⟨_, after, (Written.object (.empty hblanks')).blanks_before hblanks, hafter, ?_⟩
    simp
  case h_2 =>
    cases h
    obtain ⟨d, rfl, hclosed, members, hmembers, rfl⟩ := Outline.read_object_eq_ok.mp hread
    have htree : readMembers fuel tokens =
        ((readMembers fuel tokens).1, .closed, (readMembers fuel tokens).2.2) :=
      Prod.ext rfl (Prod.ext hclosed rfl)
    obtain ⟨body, after, hbody, hafter, rfl⟩ := hfuel.members htree hmembers hinner
    refine ⟨_, after, (Written.object (.members hbody)).blanks_before hblanks, hafter, ?_⟩
    simp

theorem Recognizes.value_succ (hfuel : Recognizes fuel) {o : Outline}
    (h : readValue (fuel + 1) tokens = (o, rest)) (hread : o.read depth = .ok v)
    (hspells : Spells tokens text) :
    ∃ body after, Written depth v body ∧ Spells rest after ∧ text = body ++ after := by
  cases tokens with
  | nil =>
    cases h
    rw [Outline.read] at hread
    cases hread
  | cons t tokens =>
    cases t with
    | beginArray => exact hfuel.array h hread hspells
    | beginObject => exact hfuel.object h hread hspells
    | null =>
      cases h
      rw [Outline.read] at hread
      cases hread
      exact hspells.written id fun hbody => by cases hbody; exact .null
    | bool b =>
      cases h
      rw [Outline.read] at hread
      cases hread
      refine hspells.written id fun hbody => ?_
      cases hbody with
      | true => exact .true
      | false => exact .false
    | number m =>
      cases h
      obtain ⟨n, hn, rfl⟩ := Outline.read_number_eq_ok.mp hread
      refine hspells.written id fun hbody => ?_
      cases hbody with
      | number hnumeral =>
        cases n with
        | int n => exact .number (hnumeral.numberText hn)
        | float d => exact .number (.float hnumeral hn)
    | text t =>
      cases h
      obtain ⟨s, hs, rfl⟩ := Outline.read_text_eq_ok.mp hread
      obtain ⟨hclosed, hstring⟩ := Quoted.read_eq_ok hs
      exact hspells.written hclosed fun hbody => .string (hstring hbody)
    | _ =>
      cases h
      rw [Outline.read] at hread
      cases hread

theorem Recognizes.elements_succ (hfuel : Recognizes fuel) {os : List Outline} {vs : List Json}
    (h : readElements (fuel + 1) tokens = (os, .closed, rest)) (hread : readAll depth os = .ok vs)
    (hspells : Spells tokens text) :
    ∃ body after, ElementsText depth vs body ∧ Spells rest after ∧ text = body ++ after := by
  rw [readElements] at h
  split at h
  case h_1 o more hvalue =>
    generalize hmore : readElements fuel more = later at h
    obtain ⟨os', ending, rest'⟩ := later
    cases h
    obtain ⟨v, hv, vs', hvs', rfl⟩ := readAll_cons_eq_ok.mp hread
    obtain ⟨first, inner, hfirst, hinner, rfl⟩ := hfuel.value hvalue hv hspells
    obtain ⟨blanks, inner', hblanks, hinner', rfl⟩ := hinner.mark id fun h => by cases h; rfl
    obtain ⟨body, after, hbody, hafter, rfl⟩ := hfuel.elements hmore hvs' hinner'
    refine ⟨_, after, .cons (hfirst.blanks_after hblanks) hbody, hafter, ?_⟩
    simp
  case h_2 o more hvalue =>
    cases h
    obtain ⟨v, hv, vs', hvs', rfl⟩ := readAll_cons_eq_ok.mp hread
    rw [readAll_nil] at hvs'
    cases hvs'
    obtain ⟨first, inner, hfirst, hinner, rfl⟩ := hfuel.value hvalue hv hspells
    obtain ⟨blanks, after, hblanks, hafter, rfl⟩ := hinner.mark id fun h => by cases h; rfl
    refine ⟨_, after, .last (hfirst.blanks_after hblanks), hafter, ?_⟩
    simp
  case h_3 => cases h

theorem Recognizes.members_succ (hfuel : Recognizes fuel) {os : List (Quoted × Outline)}
    {ms : List (String × Json)} (h : readMembers (fuel + 1) tokens = (os, .closed, rest))
    (hread : readEach depth os = .ok ms) (hspells : Spells tokens text) :
    ∃ body after, MembersText depth ms body ∧ Spells rest after ∧ text = body ++ after := by
  rw [readMembers.eq_def] at h
  dsimp only at h
  split at h
  case h_1 t values =>
    split at h
    case h_1 o more hvalue =>
      generalize hmore : readMembers fuel more = later at h
      obtain ⟨os', ending, rest'⟩ := later
      cases h
      obtain ⟨k, hk, v, hv, ms', hms', rfl⟩ := readEach_cons_eq_ok.mp hread
      obtain ⟨key, member, hkey, hmember, rfl⟩ := hspells.key hk
      obtain ⟨first, inner, hfirst, hinner, rfl⟩ := hfuel.value hvalue hv hmember
      obtain ⟨blanks, later, hblanks, hlater, rfl⟩ := hinner.mark id fun h => by cases h; rfl
      obtain ⟨body, after, hbody, hafter, rfl⟩ := hfuel.members hmore hms' hlater
      refine ⟨_, after, .cons hkey (hfirst.blanks_after hblanks) hbody, hafter, ?_⟩
      simp
    case h_2 o more hvalue =>
      cases h
      obtain ⟨k, hk, v, hv, ms', hms', rfl⟩ := readEach_cons_eq_ok.mp hread
      rw [readEach_nil] at hms'
      cases hms'
      obtain ⟨key, member, hkey, hmember, rfl⟩ := hspells.key hk
      obtain ⟨first, inner, hfirst, hinner, rfl⟩ := hfuel.value hvalue hv hmember
      obtain ⟨blanks, after, hblanks, hafter, rfl⟩ := hinner.mark id fun h => by cases h; rfl
      refine ⟨_, after, .last hkey (hfirst.blanks_after hblanks), hafter, ?_⟩
      simp
    case h_3 => cases h
  case h_2 => cases h
  case h_3 => cases h

theorem recognizes (fuel : Nat) : Recognizes fuel := by
  induction fuel with
  | zero => exact recognizes_zero
  | succ fuel ih => exact ⟨ih.value_succ, ih.elements_succ, ih.members_succ⟩

end Documents

/-! ### Whole texts -/

/-- **Recognition.** A text is read as a document exactly if it is one of the texts of the document
that are not too deep. -/
theorem parseWithin_eq_ok {depth : Nat} {v : Json} {text : String} :
    parseWithin depth text = .ok v ↔ Written depth v text.toList := by
  refine ⟨fun h => ?_, Written.parseWithin_eq⟩
  obtain ⟨o, houtline, hread⟩ := readText_eq_ok.mp h
  generalize hvalue : readValue (2 * (lex text.toList).length + 2) (lex text.toList) = tree
  obtain ⟨o', rest⟩ := tree
  simp only [outline, hvalue, Prod.mk.injEq, Bool.not_eq_false', List.isEmpty_iff] at houtline
  obtain ⟨rfl, rfl⟩ := houtline
  obtain ⟨body, after, hbody, hafter, htext⟩ :=
    (recognizes _).value hvalue hread (spells_lexWith (Nat.le_refl _))
  rw [htext]
  exact hbody.blanks_after hafter.nil_inv

/-- A text is one of no more than one document. -/
theorem Written.unique {depth : Nat} {v v' : Json} {text : List Char} (h : Written depth v text)
    (h' : Written depth v' text) : v = v' := by
  have hread : ∀ {v : Json}, Written depth v text →
      parseWithin depth (String.ofList text) = .ok v := fun h =>
    Written.parseWithin_eq (by rwa [String.toList_ofList])
  exact Except.ok.inj ((hread h).symm.trans (hread h'))

end Pacing.Json
