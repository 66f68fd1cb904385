import Mathlib.Data.List.Forall2
import Mathlib.Tactic.SplitIfs
import Pacing.Json.Printer
import Pacing.Proofs.Json.Limits

/-!
# The compact text

The text a document is written in is one of its texts, so it is read as the document again. This
holds if every number in it keeps its value, as all numbers do that are within the limits of reading
and no doubles. A double is written by its shortest decimal, and reading rounds more than once where a
decimal has many digits or a large exponent.

* `Kept` are the documents of which every number keeps its value, and `Outline.read_kept` says that a
  text gives no other document if all its numbers are read as such numbers.
* `Kept.written` is the statement about the text, `parseWithin_print` the one about reading it.
-/

namespace Pacing.Json

/-! ### The compact text is a text -/

/-- A control character by its two hexadecimal digits. -/
theorem codeUnit?_hexDigit {n : Nat} (h : n < 32) :
    codeUnit? '0' '0' (hexDigit (n / 16)) (hexDigit n) = some n := by
  have hall : ∀ n < 32, codeUnit? '0' '0' (hexDigit (n / 16)) (hexDigit n) = some n := by decide
  exact hall n h

theorem escapeChar_text (c : Char) : CharText c (escapeChar c) := by
  have hcode : ∀ {n : Nat}, c.toNat = n → c = Char.ofNat n := fun h => by
    rw [← h, Char.ofNat_toNat]
  unfold escapeChar
  split_ifs with hquote hslash hback hfeed hnewline hreturn htab hcontrol
  · rw [hquote]
    exact .letter rfl
  · rw [hslash]
    exact .letter rfl
  · rw [hcode hback]
    exact .letter rfl
  · rw [hcode hfeed]
    exact .letter rfl
  · rw [hnewline]
    exact .letter rfl
  · rw [hreturn]
    exact .letter rfl
  · rw [htab]
    exact .letter rfl
  · exact .codeUnit (codeUnit?_hexDigit hcontrol)
  · exact .plain hquote hslash (Nat.not_lt.mp hcontrol)

theorem quote_text (s : String) : StringText s (quote s) := by
  have hbody : ∀ cs : List Char, BodyText cs (cs.flatMap escapeChar) := by
    intro cs
    induction cs with
    | nil => exact .nil
    | cons c cs ih => exact .cons (escapeChar_text c) ih
  exact .quoted (hbody s.toList)

/-- Minus zero is written with a fraction, and read as minus zero. -/
theorem minusZero_text : NumberText (.float (.zero true)) (Number.float (.zero true)).print.toList := by
  have hprint : (Number.float (.zero true)).print.toList = ['-', '0', '.', '0'] := rfl
  have hzero : DigitsText [0] ['0'] := .last (by decide)
  rw [hprint]
  exact .float (.negative (.parts ⟨hzero, fun _ => rfl⟩ (.point hzero) .absent)) rfl

variable {depth : Nat}

theorem quote_written (s : String) : Written depth (.string s) (quote s) := .string (quote_text s)

/-- The elements of an array, given the text of each. -/
theorem elementsText_chars {v : Json} {vs : List Json}
    (h : ∀ w ∈ v :: vs, Written depth w (chars w)) :
    ElementsText depth (v :: vs) (chars v ++ elementChars vs) := by
  induction vs generalizing v with
  | nil => exact .last (h v (by simp))
  | cons w vs ih =>
    obtain ⟨hv, hvs⟩ := List.forall_mem_cons.mp h
    exact .cons hv (ih hvs)

/-- A member whose compact text is one of another member with the same key, which is the one that is
read. -/
def ReadAs (depth : Nat) (m r : String × Json) : Prop := m.1 = r.1 ∧ Written depth r.2 (chars m.2)

/-- The members of an object, given the text of each value. -/
theorem membersText_chars {k : String} {v w : Json} {members read : List (String × Json)}
    (h : Written depth w (chars v))
    (hmembers : List.Forall₂ (ReadAs depth) members read) :
    MembersText depth ((k, w) :: read) (quote k ++ ':' :: (chars v ++ memberChars members)) := by
  induction hmembers generalizing k v w with
  | nil => exact .last (quote_written k) h
  | @cons m r members read hm _ ih =>
    obtain ⟨k', v'⟩ := m
    obtain ⟨rfl, hwritten⟩ := hm
    exact .cons (quote_written k) h (ih hwritten)

theorem objectText_chars {members read : List (String × Json)}
    (h : List.Forall₂ (ReadAs depth) members read) : ObjectText depth read (chars (.object members)) := by
  cases h with
  | nil => exact .empty Blank.nil
  | @cons m r members read hm hmembers =>
    obtain ⟨k, w⟩ := r
    obtain ⟨k', v⟩ := m
    obtain ⟨rfl, hwritten⟩ := hm
    exact .members (membersText_chars hwritten hmembers)

theorem arrayText_chars {vs : List Json} (h : ∀ v ∈ vs, Written depth v (chars v)) :
    ArrayText depth vs (chars (.array vs)) := by
  cases vs with
  | nil => exact .empty Blank.nil
  | cons v vs => exact .elements (elementsText_chars h)

/-- A document that its compact text keeps: at most `depth` arrays and objects inside each other, every
number with a text that stands for it, and every object in order. -/
inductive Kept : (depth : Nat) → Json → Prop
  | null {depth : Nat} : Kept depth .null
  | bool {depth : Nat} {b : Bool} : Kept depth (.bool b)
  | number {depth : Nat} {n : Number} : NumberText n n.print.toList → Kept depth (.number n)
  | string {depth : Nat} {s : String} : Kept depth (.string s)
  | array {depth : Nat} {vs : List Json} : (∀ v ∈ vs, Kept depth v) → Kept (depth + 1) (.array vs)
  | object {depth : Nat} {members : List (String × Json)} : InOrder members →
      (∀ m ∈ members, Kept depth m.2) → Kept (depth + 1) (.object members)

/-- Integers of the 64-bit ranges and minus zero keep their values. -/
theorem Proper.kept {v : Json} (h : Proper depth v) : Kept depth v := by
  induction h with
  | null => exact .null
  | bool => exact .bool
  | int hlow hhigh => exact .number (.int hlow hhigh)
  | minusZero => exact .number minusZero_text
  | string => exact .string
  | array _ ih => exact .array ih
  | object horder _ ih => exact .object horder ih

/-- Integers beyond the 64-bit ranges have no text. -/
theorem NumberText.bounds {n : Int} {text : List Char} (h : NumberText (.int n) text) :
    -9223372036854775808 ≤ n ∧ n < 18446744073709551616 := by
  cases h with
  | int hlow hhigh => exact ⟨hlow, hhigh⟩

theorem int_kept {n : Int} : Kept depth (.int n) ↔
    -9223372036854775808 ≤ n ∧ n < 18446744073709551616 := by
  constructor
  · intro h
    cases h with
    | number h => exact h.bounds
  · exact fun ⟨hlow, hhigh⟩ => .number (.int hlow hhigh)

/-- **Writing.** The compact text of a document is one of its texts. -/
theorem Kept.written {v : Json} (h : Kept depth v) : Written depth v (chars v) := by
  induction h with
  | null => exact .null
  | @bool depth b =>
    cases b with
    | true => exact .true
    | false => exact .false
  | number h => exact .number h
  | string => exact quote_written _
  | array _ ih => exact .array (arrayText_chars ih)
  | object horder _ ih =>
    have hwritten := Written.object (objectText_chars (List.forall₂_same.mpr fun m hm =>
      ⟨rfl, ih m hm⟩))
    rwa [sortMembers_of_inOrder horder] at hwritten

/-- The compact text of a document is read as the document. -/
theorem parseWithin_print {v : Json} (h : Kept depth v) :
    parseWithin depth v.print = .ok v :=
  Written.parseWithin_eq (by rw [print_toList]; exact h.written)

/-! ### Documents that were read -/

/-- A number of a text that is read as one which its own text keeps. -/
def Numeral.IsKept (m : Numeral) : Prop := ∀ n, m.read = .ok n → NumberText n n.print.toList

/-- So are integers of the 64-bit ranges. -/
theorem Numeral.IsWord.isKept {m : Numeral} (hm : m.IsWord) : m.IsKept := by
  intro n hn
  cases (hm.read_proper hn : Proper 0 (.number n)).kept with
  | number h => exact h

mutual

/-- **Reading.** A document that is read from a tree whose numbers keep their values is kept. -/
theorem Outline.read_kept {depth : Nat} {o : Outline} {v : Json} (h : o.read depth = .ok v)
    (hkept : ∀ m ∈ o.numerals, m.IsKept) : Kept depth v := by
  match o with
  | .null =>
    rw [Outline.read] at h
    cases h
    exact .null
  | .bool b =>
    rw [Outline.read] at h
    cases h
    exact .bool
  | .number m =>
    obtain ⟨n, hn, rfl⟩ := Outline.read_number_eq_ok.mp h
    exact .number (hkept m (by simp [Outline.numerals]) n hn)
  | .text t =>
    obtain ⟨s, -, rfl⟩ := Outline.read_text_eq_ok.mp h
    exact .string
  | .array os ending =>
    obtain ⟨inner, rfl, -, vs, hvs, rfl⟩ := Outline.read_array_eq_ok.mp h
    exact .array (readAll_kept hvs hkept)
  | .object os ending =>
    obtain ⟨inner, rfl, -, members, hmembers, rfl⟩ := Outline.read_object_eq_ok.mp h
    obtain ⟨horder, hmem⟩ := sortMembers_sound members
    exact .object horder fun m hm => readEach_kept hmembers hkept m (hmem m hm)
  | .brokenNumber fault =>
    rw [Outline.read] at h
    cases h
  | .missing fault =>
    rw [Outline.read] at h
    cases h

theorem readAll_kept {depth : Nat} {os : List Outline} {vs : List Json}
    (h : readAll depth os = .ok vs) (hkept : ∀ m ∈ numeralsAll os, m.IsKept) :
    ∀ v ∈ vs, Kept depth v := by
  match os with
  | [] =>
    rw [readAll_nil] at h
    cases h
    exact List.forall_mem_nil _
  | o :: os =>
    obtain ⟨v, hv, rest, hrest, rfl⟩ := readAll_cons_eq_ok.mp h
    rw [numeralsAll] at hkept
    obtain ⟨hfirst, hlater⟩ := List.forall_mem_append.mp hkept
    exact List.forall_mem_cons.mpr ⟨Outline.read_kept hv hfirst, readAll_kept hrest hlater⟩

theorem readEach_kept {depth : Nat} {os : List (Quoted × Outline)}
    {members : List (String × Json)} (h : readEach depth os = .ok members)
    (hkept : ∀ m ∈ numeralsEach os, m.IsKept) : ∀ m ∈ members, Kept depth m.2 := by
  match os with
  | [] =>
    rw [readEach_nil] at h
    cases h
    exact List.forall_mem_nil _
  | (k, o) :: os =>
    obtain ⟨key, -, v, hv, rest, hrest, rfl⟩ := readEach_cons_eq_ok.mp h
    rw [numeralsEach] at hkept
    obtain ⟨hfirst, hlater⟩ := List.forall_mem_append.mp hkept
    exact List.forall_mem_cons.mpr ⟨Outline.read_kept hv hfirst, readEach_kept hrest hlater⟩

end

end Pacing.Json
