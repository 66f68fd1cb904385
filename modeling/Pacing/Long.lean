import Pacing.Rate
import Pacing.Poll

/-!
# Replicated integer sources

One stream of the integers `0, 1, 2, …` shared by any number of instances without
coordination: of `n` instances, the one with index `i` emits `i, i + n, i + 2 n, …`. Value `v`
is due `v` periods after a start time that is given on the wall clock, and is stamped with the
instant it was due. An instance converts the start time to its monotonic clock once, when
it is made, and follows that clock only.

A source is a validated rate and delay. Each member of a cluster makes a supplier from it,
which fixes the member's start time, and the supplier makes the member's instances.
-/

namespace Pacing

/-- All an instance is made from. -/
structure InstanceConfig (π : Type) where
  /-- Wall-clock milliseconds of the start. -/
  startMillis : Int
  /-- Rate of all instances together. -/
  itemsPerSecond : Int
  /-- Event-time policy handed through to the instance. -/
  policy : π
  /-- Index of the instance among all of them. -/
  index : Nat
  /-- Number of all instances. -/
  total : Nat
  deriving DecidableEq, Repr

/-- One instance of a replicated integer source. -/
structure LongStream (π : Type) where
  policy : π
  /-- Start on the monotonic clock. -/
  start : Int
  /-- How far the wall clock was ahead of the monotonic one when the instance was made. -/
  offset : Int
  period : Int
  /-- The next value to be emitted. -/
  next : Int
  stride : Int
  deriving DecidableEq, Repr

/-- What the emission loop of one poll leaves behind: the items and the next value. -/
structure LongEmission where
  items : List (Timestamped Int)
  next : Int
  deriving DecidableEq, Repr

namespace LongStream

/-- Makes an instance at a reading. Nothing of its configuration is validated: rates below one
count as one, and so does a number of instances of zero. -/
def create (config : InstanceConfig π) (r : Reading) : LongStream π where
  policy := config.policy
  start := Word.satSub (Word.satMul config.startMillis nanosPerMilli) r.offset
  offset := r.offset
  period := nanosPerSecond / max config.itemsPerSecond 1
  next := Word.ofCount config.index
  stride := Word.ofCount (max config.total 1)

/-- Monotonic instant at which a value is due. -/
def dueAt (s : LongStream π) (value : Int) : Int :=
  Word.satAdd s.start (Word.satMul value s.period)

/-- Event time of a value: the instant it is due on the wall clock the instance was made
with. -/
def stamp (s : LongStream π) (value : Int) : Int :=
  Word.satAdd (s.dueAt value) s.offset / nanosPerMilli

/-- Emits values while they are due and there is room, starting with `next`. -/
def emitDue (s : LongStream π) (now : Int) : (room : Nat) → (next : Int) → LongEmission
  | 0, next => ⟨[], next⟩
  | room + 1, next =>
    if s.dueAt next ≤ now then
      let later := s.emitDue now room (next + s.stride)
      { later with items := ⟨next, s.stamp next⟩ :: later.items }
    else ⟨[], next⟩

/-- Emits every value that is due at a reading, at most `maxBatchSize`. -/
def poll (s : LongStream π) (r : Reading) : Polled (LongStream π) Empty Int :=
  let e := s.emitDue r.monotonic maxBatchSize s.next
  { source := { s with next := e.next }
    added := e.items
    outcome :=
      if e.items.length = 0 then .ok (.pendingUntil r.monotonic (s.dueAt e.next))
      else .ok (.ready e.items.length)
    log := [] }

instance : Paced (LongStream π) Empty Int := ⟨poll⟩

theorem emitDue_length_le (s : LongStream π) (now : Int) (room : Nat) (next : Int) :
    (s.emitDue now room next).items.length ≤ room := by
  induction room generalizing next with
  | zero => simp [emitDue]
  | succ room ih =>
    unfold emitDue
    split
    · simpa using ih (next + s.stride)
    · simp

/-- Every emitted value moves the next one on by one stride. -/
theorem emitDue_next (s : LongStream π) (now : Int) (room : Nat) (next : Int) :
    (s.emitDue now room next).next =
      next + (s.emitDue now room next).items.length * s.stride := by
  induction room generalizing next with
  | zero => simp [emitDue]
  | succ room ih =>
    unfold emitDue
    split
    · simp only [ih (next + s.stride), List.length_cons, Int.natCast_add, Int.add_mul]
      omega
    · simp

theorem poll_added_length_le (s : LongStream π) (r : Reading) :
    (s.poll r).added.length ≤ maxBatchSize :=
  s.emitDue_length_le ..

end LongStream

/-! ### Sources and members -/

/-- A validated replicated source. -/
structure LongSource where
  itemsPerSecond : Int
  initialDelay : Duration
  preferred : Option Positive
  deriving DecidableEq, Repr

namespace LongSource

/-- Validates the rate first, and then that the delay's milliseconds fit in a signed word. -/
def tryNew (itemsPerSecond : Int) (initialDelay : Duration) (preferred : Option Positive) :
    Except Error LongSource := do
  let _ ← periodNanos itemsPerSecond
  if Word.highest < (initialDelay.millis : Int) then .error (.delayOutOfRange initialDelay)
  else return ⟨itemsPerSecond, initialDelay, preferred⟩

/-- Number of instances a member hosts: the preferred one, or else the engine's. -/
def localParallelism (s : LongSource) (engineDefault : Positive) : Positive :=
  s.preferred.getD engineDefault

end LongSource

/-- What one member of a cluster makes its instances from. -/
structure MemberSupplier (π : Type) where
  startMillis : Int
  itemsPerSecond : Int
  policy : π
  deriving DecidableEq, Repr

/-- Makes the supplier of one member. Its instances start the initial delay after the reading
at which it is made. -/
def LongSource.member (s : LongSource) (policy : π) (r : Reading) : MemberSupplier π where
  startMillis := Word.satAdd r.wallMillis (Word.ofCount s.initialDelay.millis)
  itemsPerSecond := s.itemsPerSecond
  policy := policy

namespace MemberSupplier

/-- What is reported when a member's supplier is made. -/
def created (m : MemberSupplier π) : LogEvent := .memberCreated m.startMillis m.itemsPerSecond

/-- The configuration of the instance with an index among `total`. -/
def configOf (m : MemberSupplier π) (index total : Nat) : InstanceConfig π where
  startMillis := m.startMillis
  itemsPerSecond := m.itemsPerSecond
  policy := m.policy
  index := index
  total := total

/-- The instance a factory makes for an index among `total`. -/
def get (m : MemberSupplier π) (factory : InstanceConfig π → σ) (index total : Nat) : σ :=
  factory (m.configOf index total)

/-- Number of instances of a cluster; one without members counts as having one. -/
def clusterSize (memberCount : Nat) (hosted : Positive) : Nat := max memberCount 1 * hosted.val

/-- The instances of the member with an index, each member hosting the same number. -/
def getAll (m : MemberSupplier π) (factory : InstanceConfig π → σ)
    (memberIndex memberCount : Nat) (hosted : Positive) : List σ :=
  (List.range hosted.val).map fun i =>
    m.get factory (memberIndex * hosted.val + i) (clusterSize memberCount hosted)

theorem getAll_length (m : MemberSupplier π) (factory : InstanceConfig π → σ)
    (memberIndex memberCount : Nat) (hosted : Positive) :
    (m.getAll factory memberIndex memberCount hosted).length = hosted.val := by
  simp [getAll]

end MemberSupplier

end Pacing
