import Pacing.Json.Decode

/-!
# The texts of a document

A document has many texts. Blanks may stand before and after every token, a character of a string
may be written in several ways, and the members of an object may come in any order, also with
repeated keys. This module says which texts a document has; it says nothing about reading them.

* `CharText` and `StringText` are the ways to write a string.
* `NumberText` is a number. An integer of the 64-bit ranges has one text, its decimal digits.
* `Written` is a whole document of a bounded depth. `ArrayText` and `ObjectText` are an array and
  an object from bracket to bracket, the object with its members as they stand in the text.
-/

namespace Pacing.Json

/-- Nothing but blanks. -/
def Blank (text : List Char) : Prop := ∀ c ∈ text, isBlank c = true

theorem Blank.nil : Blank [] := List.forall_mem_nil _

/-! ### Strings -/

/-- A character inside a string: as it is, by a letter, by its code unit, or by the two code units
of a character beyond the first plane. -/
inductive CharText : Char → List Char → Prop
  | plain {c : Char} : c ≠ '"' → c ≠ '\\' → 32 ≤ c.toNat → CharText c [c]
  | letter {e c : Char} : escaped? e = some c → CharText c ['\\', e]
  | codeUnit {p q r s c : Char} : codeUnit? p q r s = some c.toNat →
      CharText c ['\\', 'u', p, q, r, s]
  | pair {p q r s p' q' r' s' c : Char} : 0x10000 ≤ c.toNat →
      codeUnit? p q r s = some (0xD800 + (c.toNat - 0x10000) / 0x400) →
      codeUnit? p' q' r' s' = some (0xDC00 + (c.toNat - 0x10000) % 0x400) →
      CharText c ['\\', 'u', p, q, r, s, '\\', 'u', p', q', r', s']

/-- Characters one after the other. -/
inductive BodyText : List Char → List Char → Prop
  | nil : BodyText [] []
  | cons {c : Char} {cs text body : List Char} : CharText c text → BodyText cs body →
      BodyText (c :: cs) (text ++ body)

/-- A string: its characters between quotes. -/
inductive StringText (s : String) : List Char → Prop
  | quoted {body : List Char} : BodyText s.toList body → StringText s ('"' :: (body ++ ['"']))

/-! ### Numbers -/

/-- One or more decimal digits. -/
inductive DigitsText : List Nat → List Char → Prop
  | last {d : Nat} : d < 10 → DigitsText [d] [Nat.digitChar d]
  | cons {d : Nat} {ds : List Nat} {text : List Char} : d < 10 → DigitsText ds text →
      DigitsText (d :: ds) (Nat.digitChar d :: text)

/-- The digits before the point: a zero stands alone. -/
def WholeText (digits : List Nat) (text : List Char) : Prop :=
  DigitsText digits text ∧ (digits.head? = some 0 → digits = [0])

/-- The digits after the point, if there is one. -/
inductive FractionText : List Nat → List Char → Prop
  | absent : FractionText [] []
  | point {ds : List Nat} {text : List Char} : DigitsText ds text → FractionText ds ('.' :: text)

/-- The exponent, if there is one. -/
inductive ExponentText : Option (Bool × List Nat) → List Char → Prop
  | absent : ExponentText none []
  | unsigned {e : Char} {ds : List Nat} {text : List Char} : e = 'e' ∨ e = 'E' →
      DigitsText ds text → ExponentText (some (false, ds)) (e :: text)
  | plus {e : Char} {ds : List Nat} {text : List Char} : e = 'e' ∨ e = 'E' →
      DigitsText ds text → ExponentText (some (false, ds)) (e :: '+' :: text)
  | minus {e : Char} {ds : List Nat} {text : List Char} : e = 'e' ∨ e = 'E' →
      DigitsText ds text → ExponentText (some (true, ds)) (e :: '-' :: text)

/-- A number without its sign. -/
inductive UnsignedText (negative : Bool) : Numeral → List Char → Prop
  | parts {whole fraction : List Nat} {exponent : Option (Bool × List Nat)}
      {digits places power : List Char} : WholeText whole digits → FractionText fraction places →
      ExponentText exponent power →
      UnsignedText negative ⟨negative, whole, fraction, exponent⟩ (digits ++ (places ++ power))

/-- A number with all its digits. -/
inductive NumeralText : Numeral → List Char → Prop
  | positive {m : Numeral} {text : List Char} : UnsignedText false m text → NumeralText m text
  | negative {m : Numeral} {text : List Char} : UnsignedText true m text →
      NumeralText m ('-' :: text)

/-- A number: an integer in decimal digits, or any other numeral that stands for a double. -/
inductive NumberText : Number → List Char → Prop
  | int {n : Int} : -9223372036854775808 ≤ n → n < 18446744073709551616 →
      NumberText (.int n) (toString n).toList
  | float {m : Numeral} {d : Double} {text : List Char} : NumeralText m text →
      m.read = .ok (.float d) → NumberText (.float d) text

/-! ### Documents -/

mutual

/-- A text of a document with at most `depth` arrays and objects inside each other. Of members with
one key the last one counts. -/
inductive Written : (depth : Nat) → Json → (text : List Char) → Prop
  | null {depth : Nat} : Written depth .null ['n', 'u', 'l', 'l']
  | true {depth : Nat} : Written depth (.bool true) ['t', 'r', 'u', 'e']
  | false {depth : Nat} : Written depth (.bool false) ['f', 'a', 'l', 's', 'e']
  | number {depth : Nat} {n : Number} {text : List Char} : NumberText n text →
      Written depth (.number n) text
  | string {depth : Nat} {s : String} {text : List Char} : StringText s text →
      Written depth (.string s) text
  | array {depth : Nat} {vs : List Json} {text : List Char} : ArrayText depth vs text →
      Written (depth + 1) (.array vs) text
  | object {depth : Nat} {members : List (String × Json)} {text : List Char} :
      ObjectText depth members text → Written (depth + 1) (.object (sortMembers members)) text
  | blankBefore {depth : Nat} {v : Json} {b : Char} {text : List Char} : isBlank b = true →
      Written depth v text → Written depth v (b :: text)
  | blankAfter {depth : Nat} {v : Json} {b : Char} {text : List Char} : isBlank b = true →
      Written depth v text → Written depth v (text ++ [b])

/-- An array from bracket to bracket. -/
inductive ArrayText : (depth : Nat) → List Json → (text : List Char) → Prop
  | empty {depth : Nat} {blanks : List Char} : Blank blanks →
      ArrayText depth [] ('[' :: (blanks ++ [']']))
  | elements {depth : Nat} {vs : List Json} {text : List Char} : ElementsText depth vs text →
      ArrayText depth vs ('[' :: text)

/-- The elements of an array and its closing bracket. -/
inductive ElementsText : (depth : Nat) → List Json → (text : List Char) → Prop
  | last {depth : Nat} {v : Json} {text : List Char} : Written depth v text →
      ElementsText depth [v] (text ++ [']'])
  | cons {depth : Nat} {v : Json} {vs : List Json} {text rest : List Char} :
      Written depth v text → ElementsText depth vs rest →
      ElementsText depth (v :: vs) (text ++ ',' :: rest)

/-- An object from bracket to bracket. -/
inductive ObjectText : (depth : Nat) → List (String × Json) → (text : List Char) → Prop
  | empty {depth : Nat} {blanks : List Char} : Blank blanks →
      ObjectText depth [] ('\x7b' :: (blanks ++ ['\x7d']))
  | members {depth : Nat} {members : List (String × Json)} {text : List Char} :
      MembersText depth members text → ObjectText depth members ('\x7b' :: text)

/-- The members of an object and its closing bracket. A key is a document that is a string. -/
inductive MembersText : (depth : Nat) → List (String × Json) → (text : List Char) → Prop
  | last {depth : Nat} {k : String} {v : Json} {key text : List Char} :
      Written depth (.string k) key → Written depth v text →
      MembersText depth [(k, v)] (key ++ ':' :: (text ++ ['\x7d']))
  | cons {depth : Nat} {k : String} {v : Json} {members : List (String × Json)}
      {key text rest : List Char} : Written depth (.string k) key → Written depth v text →
      MembersText depth members rest →
      MembersText depth ((k, v) :: members) (key ++ ':' :: (text ++ ',' :: rest))

end

/-- A text with blanks around it. -/
def Around (inner : List Char → Prop) (text : List Char) : Prop :=
  ∃ before body after, Blank before ∧ inner body ∧ Blank after ∧ text = before ++ (body ++ after)

theorem Around.bare {inner : List Char → Prop} {text body : List Char} (h : inner body)
    (htext : text = body) : Around inner text :=
  ⟨[], body, [], Blank.nil, h, Blank.nil, by rw [htext, List.nil_append, List.append_nil]⟩

end Pacing.Json
