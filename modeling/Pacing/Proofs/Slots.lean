import Pacing.Rate

/-!
# Slots

An endless row of slots, one period apart. How many of them have come by an instant is what a
paced source owes at that instant, whatever happened before.

* `dueCount` counts the slots of a row, and `lt_dueCount_iff` says which ones they are.
* `Owed` says of any slots that so many have come, and `Owed.taken_eq` how many of them a batch takes.
-/

namespace Pacing

/-- Number of the slots `due`, `due + period`, `due + 2 * period`, … that have come by `now`. -/
def dueCount (period now due : Int) : Nat := ((now - due) / period + 1).toNat

section DueCount

variable {period now due : Int}

/-- The slots that have come are the first ones. -/
theorem lt_dueCount_iff (hperiod : 0 < period) {i : Nat} :
    i < dueCount period now due ↔ due + i * period ≤ now := by
  have hslot : (i : Int) ≤ (now - due) / period ↔ i * period ≤ now - due :=
    Int.le_ediv_iff_mul_le hperiod
  unfold dueCount
  rw [Int.lt_toNat]
  omega

theorem le_dueCount (hperiod : 0 < period) {n : Nat}
    (h : ∀ i : Nat, i < n → due + i * period ≤ now) : n ≤ dueCount period now due := by
  cases n with
  | zero => exact Nat.zero_le _
  | succ n => exact (lt_dueCount_iff hperiod).mpr (h n (Nat.lt_succ_self n))

theorem dueCount_le (hperiod : 0 < period) {n : Nat} (h : now < due + n * period) :
    dueCount period now due ≤ n := by
  apply Nat.le_of_not_lt
  intro hlt
  have := (lt_dueCount_iff hperiod).mp hlt
  omega

/-- The first slot alone has come at the instant it is due. -/
theorem dueCount_self : dueCount period due due = 1 := by
  simp [dueCount]

/-- From the first slot on, the count is the number of whole periods and one. -/
theorem dueCount_of_le (hperiod : 0 < period) (h : due ≤ now) :
    (dueCount period now due : Int) = (now - due) / period + 1 := by
  have hnonneg : 0 ≤ (now - due) / period := Int.ediv_nonneg (by omega) (Int.le_of_lt hperiod)
  unfold dueCount
  omega

end DueCount

/-! ### What is owed -/

/-- Exactly the first `due` slots have come by `now`. -/
def Owed (slot : Nat → Int) (now : Int) (due : Nat) : Prop := ∀ j : Nat, j < due ↔ slot j ≤ now

section Owed

variable {slot : Nat → Int} {now : Int} {due : Nat}

/-- Slots a period apart are owed as they are counted. -/
theorem owed_dueCount {period : Int} (hperiod : 0 < period) (first : Int) :
    Owed (fun j : Nat => first + j * period) now (dueCount period now first) :=
  fun _ => lt_dueCount_iff hperiod

/-- Once some slots have been taken the others are left. -/
theorem Owed.drop (h : Owed slot now due) (taken : Nat) :
    Owed (fun j => slot (taken + j)) now (due - taken) := by
  intro j
  rw [← h (taken + j)]
  omega

/-- **Batch.** Whoever takes slots that have come, in their order, and stops only for want of room or
of such slots, takes all that are owed or has no room left. -/
theorem Owed.taken_eq (h : Owed slot now due) {room taken : Nat} (hroom : taken ≤ room)
    (hcome : ∀ j, j < taken → slot j ≤ now) (hstop : taken < room → now < slot taken) :
    taken = min room due := by
  have hle : taken ≤ due := by
    cases taken with
    | zero => exact Nat.zero_le _
    | succ last => exact (h last).mpr (hcome last (Nat.lt_succ_self last))
  by_cases hfull : taken = room
  · omega
  · have hnext := hstop (Nat.lt_of_le_of_ne hroom hfull)
    have hall : ¬ taken < due := by
      intro hmore
      have := (h taken).mp hmore
      omega
    omega

end Owed

/-- The period of a rate in the accepted range is at least one nanosecond. -/
theorem period_pos {rate : Int} (h : 1 ≤ rate ∧ rate ≤ maxItemsPerSecond) :
    0 < (nanosPerSecond : Int) / rate :=
  periodNanos_pos (periodNanos_eq_ok.mpr ⟨h, rfl⟩)

/-- No period is longer than a second. -/
theorem period_le_second (rate : Int) : (nanosPerSecond : Int) / rate ≤ nanosPerSecond :=
  Int.ediv_le_self rate (Int.natCast_nonneg nanosPerSecond)

end Pacing
