import Pacing.Proofs.Json.Reading

/-!
# The limits of reading

A document that was read has bounds of its own: it is no deeper than the reader allows, its
integers are of the signed or unsigned 64-bit range, and the members of its objects stand in the
order of their keys, each key once. `Proper` are the documents with these bounds and without
doubles. `Numeral.IsWord` are the numbers of a text that are read as integers of these ranges; one
with a fraction or exponent, or beyond the ranges, becomes a double. `parseWithin_nested_eq_error`
says that the bound on the depth is kept.
-/

namespace Pacing.Json

/-! ### Order of members -/

/-- Members in the order of their keys, each key once. -/
def InOrder (members : List (String × Json)) : Prop := members.Pairwise fun m m' => m.1 < m'.1

/-- A key beyond all others goes to the end. -/
theorem insertMember_of_lt {key : String} {value : Json} {members : List (String × Json)}
    (h : ∀ m ∈ members, m.1 < key) :
    insertMember key value members = members ++ [(key, value)] := by
  induction members with
  | nil => rfl
  | cons m members ih =>
    obtain ⟨hm, hmembers⟩ := List.forall_mem_cons.mp h
    have hnot : ¬ key < m.1 := fun hlt => String.lt_irrefl key (String.lt_trans hlt hm)
    have hne : key ≠ m.1 := fun heq => String.lt_irrefl key (heq ▸ hm)
    simp only [insertMember, hnot, hne, if_false, ih hmembers, List.cons_append]

/-- Members that are in order stay as they are. -/
theorem sortMembers_of_inOrder {members : List (String × Json)} (h : InOrder members) :
    sortMembers members = members := by
  -- What has been sorted so far is the beginning of the list.
  have hrun : ∀ sorted later, InOrder (sorted ++ later) →
      later.foldl (fun sorted m => insertMember m.1 m.2 sorted) sorted = sorted ++ later := by
    intro sorted later horder
    induction later generalizing sorted with
    | nil => simp
    | cons m later ih =>
      have hlast : ∀ m' ∈ sorted, m'.1 < m.1 := fun m' hm' =>
        (List.pairwise_append.mp horder).2.2 m' hm' m (by simp)
      rw [List.foldl_cons, insertMember_of_lt hlast, ih _ (by simpa using horder)]
      simp
  exact hrun [] members h

theorem mem_insertMember {key : String} {value : Json} {members : List (String × Json)}
    {m : String × Json} (h : m ∈ insertMember key value members) :
    m = (key, value) ∨ m ∈ members := by
  induction members with
  | nil => exact .inl (List.mem_singleton.mp h)
  | cons m' members ih =>
    unfold insertMember at h
    split at h
    · simpa using h
    · split at h
      · rcases List.mem_cons.mp h with rfl | h
        · exact .inl rfl
        · exact .inr (List.mem_cons_of_mem _ h)
      · rcases List.mem_cons.mp h with rfl | h
        · exact .inr (List.mem_cons_self ..)
        · exact (ih h).imp_right (List.mem_cons_of_mem _)

theorem inOrder_insertMember {key : String} {value : Json} {members : List (String × Json)}
    (h : InOrder members) : InOrder (insertMember key value members) := by
  induction members with
  | nil => exact List.pairwise_singleton ..
  | cons m members ih =>
    obtain ⟨hm, hmembers⟩ := List.pairwise_cons.mp h
    unfold insertMember
    split
    case isTrue hlt =>
      refine List.pairwise_cons.mpr ⟨fun m' hm' => ?_, h⟩
      rcases List.mem_cons.mp hm' with rfl | hm'
      · exact hlt
      · exact String.lt_trans hlt (hm m' hm')
    case isFalse hnot =>
      split
      case isTrue heq =>
        subst heq
        exact List.pairwise_cons.mpr ⟨hm, hmembers⟩
      case isFalse hne =>
        have hgt : m.1 < key := Decidable.byContradiction fun hge =>
          hne (String.le_antisymm (String.not_lt.mp hge) (String.not_lt.mp hnot))
        refine List.pairwise_cons.mpr ⟨fun m' hm' => ?_, ih hmembers⟩
        rcases mem_insertMember hm' with rfl | hm'
        · exact hgt
        · exact hm m' hm'

/-- Sorting puts members in order and adds none. -/
theorem sortMembers_sound (members : List (String × Json)) :
    InOrder (sortMembers members) ∧ ∀ m ∈ sortMembers members, m ∈ members := by
  have hrun : ∀ sorted later : List (String × Json), InOrder sorted →
      InOrder (later.foldl (fun sorted m => insertMember m.1 m.2 sorted) sorted) ∧
        ∀ m ∈ later.foldl (fun sorted m => insertMember m.1 m.2 sorted) sorted,
          m ∈ sorted ∨ m ∈ later := by
    intro sorted later
    induction later generalizing sorted with
    | nil => exact fun horder => ⟨horder, fun m hm => .inl hm⟩
    | cons m later ih =>
      intro horder
      have hinserted : InOrder (insertMember m.1 m.2 sorted) := inOrder_insertMember horder
      obtain ⟨hordered, hmem⟩ := ih _ hinserted
      refine ⟨hordered, fun m' hm' => ?_⟩
      rcases hmem m' hm' with hm' | hm'
      · rcases mem_insertMember hm' with rfl | hm'
        · exact .inr (List.mem_cons_self ..)
        · exact .inl hm'
      · exact .inr (List.mem_cons_of_mem _ hm')
  obtain ⟨horder, hmem⟩ := hrun [] members List.Pairwise.nil
  exact ⟨horder, fun m hm => (hmem m hm).resolve_left (List.not_mem_nil)⟩

/-! ### Documents within the limits -/

/-- A document within the limits of reading: at most `depth` arrays and objects inside each other,
integers of the signed or unsigned 64-bit range, and every object in order. Minus zero is the only
double: it is what an integer without its own value is read as. -/
inductive Proper : (depth : Nat) → Json → Prop
  | null {depth : Nat} : Proper depth .null
  | bool {depth : Nat} {b : Bool} : Proper depth (.bool b)
  | int {depth : Nat} {n : Int} : -9223372036854775808 ≤ n → n < 18446744073709551616 →
      Proper depth (.number (.int n))
  | minusZero {depth : Nat} : Proper depth (.number (.float (.zero true)))
  | string {depth : Nat} {s : String} : Proper depth (.string s)
  | array {depth : Nat} {vs : List Json} : (∀ v ∈ vs, Proper depth v) →
      Proper (depth + 1) (.array vs)
  | object {depth : Nat} {members : List (String × Json)} : InOrder members →
      (∀ m ∈ members, Proper depth m.2) → Proper (depth + 1) (.object members)

/-! ### Numbers of a text -/

/-- The number is written without fraction and exponent, and lies in the signed or unsigned 64-bit
range. -/
structure Numeral.IsWord (m : Numeral) : Prop where
  fraction : m.fraction = []
  exponent : m.exponent = none
  lower : m.negative = true → digitsValue 0 m.whole ≤ 9223372036854775808
  upper : digitsValue 0 m.whole < 18446744073709551616

mutual

/-- All numbers in a tree, in reading order. -/
def Outline.numerals : Outline → List Numeral
  | .number m => [m]
  | .array os _ => numeralsAll os
  | .object os _ => numeralsEach os
  | .null | .bool _ | .text _ | .brokenNumber _ | .missing _ => []

/-- All numbers in a list of trees. -/
def numeralsAll : List Outline → List Numeral
  | [] => []
  | o :: os => o.numerals ++ numeralsAll os

/-- All numbers in the values of a list of members. -/
def numeralsEach : List (Quoted × Outline) → List Numeral
  | [] => []
  | (_, o) :: os => o.numerals ++ numeralsEach os

end

/-- All numbers of a text. -/
def numeralsOf (text : String) : List Numeral := (outline text.toList).1.numerals

theorem numeralsAll_of_mem {o : Outline} {os : List Outline} (h : o ∈ os) :
    ∀ m ∈ o.numerals, m ∈ numeralsAll os := by
  induction os with
  | nil => cases h
  | cons o' os ih =>
    intro m hm
    rw [numeralsAll]
    rcases List.mem_cons.mp h with rfl | h
    · exact List.mem_append_left _ hm
    · exact List.mem_append_right _ (ih h m hm)

theorem numeralsEach_of_mem {o : Quoted × Outline} {os : List (Quoted × Outline)} (h : o ∈ os) :
    ∀ m ∈ o.2.numerals, m ∈ numeralsEach os := by
  induction os with
  | nil => cases h
  | cons o' os ih =>
    intro m hm
    rw [numeralsEach]
    rcases List.mem_cons.mp h with rfl | h
    · exact List.mem_append_left _ hm
    · exact List.mem_append_right _ (ih h m hm)

/-- Such a number is read as an integer of the ranges, or is minus zero. -/
theorem Numeral.IsWord.read_proper {m : Numeral} (hm : m.IsWord) {n : Number} {depth : Nat}
    (h : m.read = .ok n) : Proper depth (.number n) := by
  obtain ⟨negative, whole, fraction, exponent⟩ := m
  obtain ⟨rfl, rfl, hlower, hupper⟩ := hm
  dsimp only at hlower hupper
  rw [read_whole hupper] at h
  cases h
  unfold wholeNumber
  cases negative with
  | false => exact .int (by omega) (by omega)
  | true =>
    by_cases hzero : digitsValue 0 whole = 0
    · rw [hzero]
      exact .minusZero
    · have hbound := hlower rfl
      have hnot : ¬ (digitsValue 0 whole = 0 ∨ 9223372036854775808 < digitsValue 0 whole) := by
        omega
      rw [if_neg (by decide), if_neg hnot]
      exact .int (by omega) (by omega)

/-! ### Depth -/

/-- Arrays inside each other, one more than `n`. -/
def nested : (n : Nat) → Json
  | 0 => .array []
  | n + 1 => .array [nested n]

/-- The compact text of arrays inside each other. -/
def nestedText : (n : Nat) → List Char
  | 0 => ['[', ']']
  | n + 1 => '[' :: (nestedText n ++ [']'])

/-- The tree of arrays inside each other. -/
def nestedOutline : (n : Nat) → Outline
  | 0 => .array [] .closed
  | n + 1 => .array [nestedOutline n] .closed

theorem nested_written (n : Nat) : Written (n + 1) (nested n) (nestedText n) := by
  induction n with
  | zero => exact .array (.empty Blank.nil)
  | succ n ih => exact .array (.elements (.last ih))

theorem comma_notMem_nestedText (n : Nat) : ',' ∉ nestedText n := by
  induction n with
  | zero => decide
  | succ n ih => simp [nestedText, ih]

theorem nested_parses (n : Nat) :
    ∃ tokens, Lexes (nestedText n) tokens ∧ Parses tokens (nestedOutline n) := by
  have hclose : Lexes [']'] [.endArray] := Lexes.nil.mark rfl fun _ => rfl
  induction n with
  | zero => exact ⟨_, hclose.mark rfl fun _ => rfl, .array_nil⟩
  | succ n ih =>
    obtain ⟨tokens, hlexes, hparses⟩ := ih
    exact ⟨_, (hlexes.append rfl hclose).mark rfl fun _ => rfl, hparses.last_element.array⟩

/-- **Depth.** Arrays that are too many inside each other are refused. -/
theorem parseWithin_nested_eq_error {depth n : Nat} (h : depth ≤ n) :
    parseWithin depth (String.ofList (nestedText n)) = .error .malformed := by
  have hread : (nestedOutline n).read depth = .error .malformed := by
    induction n generalizing depth with
    | zero =>
      obtain rfl := Nat.le_zero.mp h
      rw [nestedOutline, Outline.read]
    | succ n ih =>
      cases depth with
      | zero => rw [nestedOutline, Outline.read]
      | succ depth =>
        simp [nestedOutline, Outline.read, readAll, ih (Nat.le_of_succ_le_succ h), bind, Except.bind]
  obtain ⟨tokens, hlexes, hparses⟩ := nested_parses n
  rw [parseWithin, readText_eq (outline_eq (by rwa [String.toList_ofList]) hparses), hread]

end Pacing.Json
