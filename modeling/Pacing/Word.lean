/-!
# Machine words

Signed 64-bit quantities are kept as mathematical integers. Arithmetic that is written
plainly stays exact; the two places where a machine word's limits are part of the meaning,
clamping and wrapping, are the named operations of this module. Counts are natural numbers
with the bound `Word.countLimit`.
-/

namespace Pacing

namespace Word

/-- Smallest signed 64-bit value. -/
def lowest : Int := -9223372036854775808

/-- Largest signed 64-bit value. -/
def highest : Int := 9223372036854775807

/-- Number of values of a 64-bit word: unsigned words and counts are below it. -/
def countLimit : Nat := 18446744073709551616

/-- `n` is a signed 64-bit value. -/
def InRange (n : Int) : Prop := lowest ≤ n ∧ n ≤ highest

instance (n : Int) : Decidable (InRange n) :=
  inferInstanceAs (Decidable (lowest ≤ n ∧ n ≤ highest))

/-- The signed 64-bit value nearest to `n`. -/
def clamp (n : Int) : Int :=
  if n < lowest then lowest else if highest < n then highest else n

/-- Addition that stops at the ends of the signed range. -/
def satAdd (a b : Int) : Int := clamp (a + b)

/-- Subtraction that stops at the ends of the signed range. -/
def satSub (a b : Int) : Int := clamp (a - b)

/-- Multiplication that stops at the ends of the signed range. -/
def satMul (a b : Int) : Int := clamp (a * b)

/-- The signed 64-bit value congruent to `n` modulo `2 ^ 64`. -/
def wrap (n : Int) : Int := n.bmod 18446744073709551616

/-- A count as a signed word, the largest one when it does not fit. -/
def ofCount (n : Nat) : Int := if (n : Int) ≤ highest then n else highest

theorem clamp_of_inRange {n : Int} (h : InRange n) : clamp n = n := by
  unfold clamp
  rw [if_neg (Int.not_lt.mpr h.1), if_neg (Int.not_lt.mpr h.2)]

theorem clamp_inRange (n : Int) : InRange (clamp n) := by
  unfold clamp InRange lowest highest
  split
  · omega
  · split <;> omega

/-- Clamping passes no upper bound that is not below the range. -/
theorem clamp_le {n bound : Int} (h : n ≤ bound) (hbound : lowest ≤ bound) : clamp n ≤ bound := by
  unfold clamp
  split
  · exact hbound
  · split <;> omega

/-- Clamping passes no lower bound that is not above the range. -/
theorem le_clamp {n bound : Int} (h : bound ≤ n) (hbound : bound ≤ highest) : bound ≤ clamp n := by
  unfold clamp
  split
  · omega
  · split
    · exact hbound
    · exact h

/-- Clamping keeps the order. -/
theorem clamp_mono {a b : Int} (h : a ≤ b) : clamp a ≤ clamp b := by
  by_cases hlow : a < lowest
  · rw [clamp, if_pos hlow]
    exact (clamp_inRange b).1
  · by_cases hhigh : highest < b
    · exact Int.le_trans (clamp_inRange a).2 (le_clamp (Int.le_of_lt hhigh) (Int.le_refl _))
    · have ha : InRange a := ⟨Int.not_lt.mp hlow, Int.le_trans h (Int.not_lt.mp hhigh)⟩
      rw [clamp_of_inRange ha]
      exact le_clamp h ha.2

theorem ofCount_nonneg (n : Nat) : 0 ≤ ofCount n := by
  unfold ofCount
  split
  · exact Int.natCast_nonneg n
  · decide

/-- Every positive count is a positive word. -/
theorem ofCount_pos {n : Nat} (h : 0 < n) : 0 < ofCount n := by
  unfold ofCount
  split
  · omega
  · decide

end Word

/-- A count that is known not to be zero. -/
abbrev Positive := { n : Nat // 0 < n }

namespace Positive

/-- `n` as a positive count, when it is one. -/
def ofNat? (n : Nat) : Option Positive :=
  if h : 0 < n then some ⟨n, h⟩ else none

end Positive

end Pacing
