import Pacing.Record

/-!
# Lines

The text of a document never breaks a line, whatever is in it. Records are therefore told apart
in the bytes of an output by its line ends alone.

* `Json.newline_notMem_chars` is the fact about documents, by induction over their structure.
* `lineCount_toUTF8` counts line ends in bytes instead of characters.
* `lineCount_linesOf` counts the lines of written records.
-/

namespace Pacing

/-! ### Numbers -/

theorem newline_notMem_toDigits (n : Nat) : '\n' ∉ Nat.toDigits 10 n := by
  intro h
  have hdigit := Nat.isDigit_of_mem_toDigits (by decide) (by decide) h
  exact absurd hdigit (by decide)

theorem newline_notMem_toString (n : Int) : '\n' ∉ (toString n).toList := by
  cases n with
  | ofNat n =>
    have htext : toString (Int.ofNat n) = n.repr := rfl
    rw [htext, Nat.toList_repr]
    exact newline_notMem_toDigits n
  | negSucc n =>
    have htext : toString (Int.negSucc n) = "-" ++ (n + 1).repr := rfl
    rw [htext, String.toList_append, Nat.toList_repr]
    simpa using newline_notMem_toDigits (n + 1)

theorem newline_notMem_zeros (count : Nat) : '\n' ∉ (Double.zeros count).toList := by
  simp [Double.zeros]

theorem Double.newline_notMem_decimal (d : Decimal) : '\n' ∉ d.text.toList := by
  have hdigits := newline_notMem_toDigits d.digits
  have htake : ∀ k, '\n' ∉ (Nat.toDigits 10 d.digits).take k := fun k h =>
    hdigits (List.mem_of_mem_take h)
  have hdrop : ∀ k, '\n' ∉ (Nat.toDigits 10 d.digits).drop k := fun k h =>
    hdigits (List.mem_of_mem_drop h)
  have hexponent : ∀ e : Int, '\n' ∉ (toString e).toList := newline_notMem_toString
  unfold Decimal.text
  dsimp only
  split
  · simp [hdigits, newline_notMem_zeros]
  · split
    · simp [htake, hdrop]
    · split
      · simp [hdigits, newline_notMem_zeros]
      · have hlead : '\n' ∉ (String.ofList ((Nat.toDigits 10 d.digits).take 1) ++
            (if (Nat.toDigits 10 d.digits).length = 1 then "" else
              "." ++ String.ofList ((Nat.toDigits 10 d.digits).drop 1))).toList := by
          split
          · simp [htake]
          · simpa [htake] using hdrop 1
        simp only [String.toList_append, List.mem_append, not_or] at hlead
        split <;> simp only [String.toList_append, List.mem_append, not_or]
        · exact ⟨⟨hlead, by decide⟩, hexponent _⟩
        · exact ⟨⟨hlead, by decide⟩, hexponent _⟩

theorem Double.newline_notMem_text {d : Double} {text : String} (h : d.text? = some text) :
    '\n' ∉ text.toList := by
  cases d with
  | finite negative significand exponent =>
    have hsign : '\n' ∉ (if negative = true then "-" else "").toList := by
      cases negative <;> decide
    unfold text? at h
    dsimp only at h
    split at h
    · cases h
      simpa using hsign
    · cases h
      rw [String.toList_append, List.mem_append, not_or]
      exact ⟨hsign, newline_notMem_decimal _⟩
  | infinite negative => simp [text?] at h
  | nan => simp [text?] at h

/-! ### Documents -/

namespace Json

theorem newline_notMem_number (n : Number) : '\n' ∉ n.print.toList := by
  cases n with
  | int n => exact newline_notMem_toString n
  | float d =>
    have hprint : (Number.float d).print = d.text?.getD "null" := rfl
    rw [hprint]
    cases htext : d.text? with
    | none => decide
    | some text => exact Double.newline_notMem_text htext

theorem hexDigit_ne_newline (n : Nat) : hexDigit n ≠ '\n' := by
  have hall : ∀ m < 16, Nat.digitChar m ≠ '\n' := by decide
  exact hall _ (Nat.mod_lt n (by decide))

/-- A line end inside a string is escaped. -/
theorem newline_notMem_escapeChar (c : Char) : '\n' ∉ escapeChar c := by
  by_cases hnewline : c = '\n'
  · subst hnewline
    decide
  · have hself : '\n' ≠ c := Ne.symm hnewline
    have hhex : ∀ n, '\n' ≠ hexDigit n := fun n => (hexDigit_ne_newline n).symm
    unfold escapeChar
    -- All branches but the last two are fixed.
    repeat' split
    all_goals first
      | decide
      | simp [hself, hhex]

theorem newline_notMem_quote (s : String) : '\n' ∉ quote s := by
  simp [quote, newline_notMem_escapeChar]

mutual

/-- **One line.** The text of a document has no line end in it. -/
theorem newline_notMem_chars (v : Json) : '\n' ∉ chars v := by
  match v with
  | .null => decide
  | .bool true => decide
  | .bool false => decide
  | .number n => exact newline_notMem_number n
  | .string s => exact newline_notMem_quote s
  | .array [] => decide
  | .array (v :: vs) =>
    simp [chars, newline_notMem_chars v, newline_notMem_elementChars vs]
  | .object [] => decide
  | .object ((k, v) :: rest) =>
    simp [chars, newline_notMem_quote, newline_notMem_chars v, newline_notMem_memberChars rest]

theorem newline_notMem_elementChars (vs : List Json) : '\n' ∉ elementChars vs := by
  match vs with
  | [] => decide
  | v :: vs => simp [elementChars, newline_notMem_chars v, newline_notMem_elementChars vs]

theorem newline_notMem_memberChars (members : List (String × Json)) :
    '\n' ∉ memberChars members := by
  match members with
  | [] => decide
  | (k, v) :: rest =>
    simp [memberChars, newline_notMem_quote, newline_notMem_chars v,
      newline_notMem_memberChars rest]

end

end Json

/-! ### Lines of an output -/

/-- Number of lines in an output: each ends with the byte of a line end. -/
def lineCount (bytes : ByteArray) : Nat := bytes.data.toList.count 10

/-- The lines of records, each with its end. -/
def linesOf (records : List Record) : String := String.join (records.map fun r => r.text ++ "\n")

theorem ofNat_eq_ten_iff {n : Nat} (h : n < 256) : UInt8.ofNat n = 10 ↔ n = 10 := by
  rw [← UInt8.toNat_inj, UInt8.toNat_ofNat_of_lt' h]
  rfl

/-- The byte of a line end never is a part of another character. -/
theorem ten_notMem_utf8EncodeChar {c : Char} (h : 127 < c.val.toNat) :
    10 ∉ String.utf8EncodeChar c := by
  have hhigh : ∀ k bits mark : Nat, 0 < bits → 128 ≤ mark → bits + mark ≤ 256 →
      ¬ 10 = UInt8.ofNat (k % bits + mark) := by
    intro k bits mark hbits hlow hsum heq
    have := Nat.mod_lt k hbits
    have := (ofNat_eq_ten_iff (by omega)).mp heq.symm
    omega
  simp only [String.utf8EncodeChar, Nat.not_le.mpr h, if_false]
  repeat' split
  all_goals
    simp (disch := decide) only [List.mem_cons, List.not_mem_nil, or_false, hhigh,
      not_false_eq_true]

theorem count_utf8EncodeChar (c : Char) :
    (String.utf8EncodeChar c).count 10 = [c].count '\n' := by
  have hnewline : c = '\n' ↔ c.val.toNat = 10 := by
    rw [← UInt32.toNat_inj.trans Char.ext_iff.symm]
    rfl
  by_cases hascii : c.val.toNat ≤ 127
  · have hbyte := ofNat_eq_ten_iff (n := c.val.toNat) (by omega)
    simp only [String.utf8EncodeChar, hascii, if_true, List.count_singleton, beq_iff_eq, hbyte,
      hnewline]
  · have hother : c ≠ '\n' := fun h => by
      have := hnewline.mp h
      omega
    rw [List.count_eq_zero.mpr (ten_notMem_utf8EncodeChar (by omega)),
      List.count_eq_zero.mpr (by simpa using hother.symm)]

theorem lineCount_append (a b : ByteArray) : lineCount (a ++ b) = lineCount a + lineCount b := by
  simp [lineCount]

/-- The line ends of a text are those of its bytes. -/
theorem lineCount_toUTF8 (s : String) : lineCount s.toUTF8 = s.toList.count '\n' := by
  rw [String.toUTF8_eq_toByteArray, ← String.utf8Encode_toList]
  induction s.toList with
  | nil => rfl
  | cons c cs ih =>
    have hsplit : c :: cs = [c] ++ cs := rfl
    rw [hsplit, List.utf8Encode_append, lineCount_append, ih, List.count_append,
      ← count_utf8EncodeChar, List.utf8Encode_singleton, lineCount, List.data_toByteArray]

theorem Record.newline_notMem_text (r : Record) : '\n' ∉ r.text.toList := by
  rw [text, Json.print_toList]
  exact Json.newline_notMem_chars _

/-- Records are written on as many lines. -/
theorem lineCount_linesOf (records : List Record) :
    lineCount (linesOf records).toUTF8 = records.length := by
  rw [lineCount_toUTF8]
  induction records with
  | nil => rfl
  | cons r records ih =>
    have hline : r.text.toList.count '\n' = 0 := List.count_eq_zero.mpr r.newline_notMem_text
    have hcons : (linesOf (r :: records)).toList = r.text.toList ++ '\n' :: (linesOf records).toList := by
      simp [linesOf]
    rw [hcons, List.count_append, hline, List.count_cons_self, ih, List.length_cons, Nat.zero_add]

theorem linesOf_snoc (records : List Record) (r : Record) :
    linesOf (records ++ [r]) = linesOf records ++ (r.text ++ "\n") := by
  simp [linesOf]

end Pacing
