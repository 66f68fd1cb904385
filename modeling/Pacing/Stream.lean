import Pacing.Rate
import Pacing.Poll

/-!
# Rate-limited streams

An endless stream of items at a fixed rate. The first poll sets the schedule; from then on
item `i` is due `i` periods later, and every poll emits what has become due, up to
`maxBatchSize` items. Pacing follows the monotonic clock only. All items of one poll carry the
same event time, the poll's wall-clock reading rounded down to the period.
-/

namespace Pacing

/-- Makes the item of a slot from its event time and its number, or fails. -/
abbrev Generator (ε α : Type) := Int → Int → Except ε α

namespace Generator

/-- A generator that cannot fail. -/
def pure (f : Int → Int → α) : Generator ε α := fun timestamp sequence => .ok (f timestamp sequence)

/-- Changes the items of a generator. -/
def map (f : α → β) (g : Generator ε α) : Generator ε β :=
  fun timestamp sequence => f <$> g timestamp sequence

/-- The generator of simple events, which are the slots themselves. -/
def slots : Generator ε SimpleEvent := pure SimpleEvent.mk

end Generator

/-- A rate-limited stream: how it makes items, its period, when its next item is due once it
has been polled, and the number that item will carry. -/
structure ItemStream (ε α : Type) where
  generate : Generator ε α
  period : Int
  schedule : Option Int
  sequence : Int

/-- What the emission loop of one poll leaves behind: the items, the number and due time of
the next one, and the error that ended the loop, if one did. -/
structure Emission (ε α : Type) where
  items : List (Timestamped α)
  sequence : Int
  due : Int
  failure : Option ε

/-- Emits items while they are due and there is room: the item with the next number, stamped
`stamp`, is due at `due`, the ones after it follow a period apart. An item whose generation
fails is not emitted and stays the next one. -/
def emitDue (generate : Generator ε α) (period stamp now : Int) :
    (room : Nat) → (sequence due : Int) → Emission ε α
  | 0, sequence, due => ⟨[], sequence, due, none⟩
  | room + 1, sequence, due =>
    if due ≤ now then
      match generate stamp sequence with
      | .error e => ⟨[], sequence, due, some e⟩
      | .ok item =>
        let later := emitDue generate period stamp now room (sequence + 1) (due + period)
        { later with items := ⟨item, stamp⟩ :: later.items }
    else ⟨[], sequence, due, none⟩

section EmitDue

variable (generate : Generator ε α) (period stamp now : Int)

theorem emitDue_length_le (room : Nat) (sequence due : Int) :
    (emitDue generate period stamp now room sequence due).items.length ≤ room := by
  induction room generalizing sequence due with
  | zero => simp [emitDue]
  | succ room ih =>
    unfold emitDue
    split
    · split
      · simp
      · simpa using ih (sequence + 1) (due + period)
    · simp

/-- Every emitted item takes one number. -/
theorem emitDue_sequence (room : Nat) (sequence due : Int) :
    (emitDue generate period stamp now room sequence due).sequence =
      sequence + (emitDue generate period stamp now room sequence due).items.length := by
  induction room generalizing sequence due with
  | zero => simp [emitDue]
  | succ room ih =>
    unfold emitDue
    split
    · split
      · simp
      · simp only [ih (sequence + 1) (due + period), List.length_cons]
        omega
    · simp

/-- Every emitted item moves the schedule on by one period. -/
theorem emitDue_due (room : Nat) (sequence due : Int) :
    (emitDue generate period stamp now room sequence due).due =
      due + (emitDue generate period stamp now room sequence due).items.length * period := by
  induction room generalizing sequence due with
  | zero => simp [emitDue]
  | succ room ih =>
    unfold emitDue
    split
    · split
      · simp
      · simp only [ih (sequence + 1) (due + period), List.length_cons, Int.natCast_add,
          Int.add_mul]
        omega
    · simp

end EmitDue

namespace ItemStream

/-- A stream that has not been polled. -/
def ofPeriod (period : Int) (generate : Generator ε α) : ItemStream ε α where
  generate := generate
  period := period
  schedule := none
  sequence := 0

/-- A stream of the given rate. -/
def ofRate (itemsPerSecond : Int) (generate : Generator ε α) : Except Error (ItemStream ε α) := do
  return ofPeriod (← periodNanos itemsPerSecond) generate

/-- Emits every item that is due at a reading, at most `maxBatchSize`. -/
def poll (s : ItemStream ε α) (r : Reading) : Polled (ItemStream ε α) ε α :=
  let now := r.monotonic
  let stamp := bucketMillis r.wall s.period
  let e := emitDue s.generate s.period stamp now maxBatchSize s.sequence (s.schedule.getD now)
  { source := { s with schedule := some e.due, sequence := e.sequence }
    added := e.items
    outcome :=
      match e.failure with
      | some failure => .error failure
      | none =>
        if e.items.length = 0 then .ok (.pendingUntil now e.due)
        else .ok (.ready e.items.length)
    log :=
      if e.items.length = maxBatchSize ∧ e.due ≤ now then [.batchCapReached (now - e.due)]
      else [] }

instance : Paced (ItemStream ε α) ε α := ⟨poll⟩

theorem poll_added_length_le (s : ItemStream ε α) (r : Reading) :
    (s.poll r).added.length ≤ maxBatchSize :=
  emitDue_length_le ..

/-- A poll hands over exactly the items whose numbers it uses up. -/
theorem poll_sequence (s : ItemStream ε α) (r : Reading) :
    (s.poll r).source.sequence = s.sequence + (s.poll r).added.length :=
  emitDue_sequence ..

end ItemStream

/-! ### Suppliers -/

/-- A validated description of a stream, from which any number of independent streams can be
made. -/
structure StreamSupplier (ε α : Type) where
  itemsPerSecond : Int
  period : Int
  generate : Generator ε α

namespace StreamSupplier

/-- Validates the rate. -/
def tryNew (itemsPerSecond : Int) (generate : Generator ε α) :
    Except Error (StreamSupplier ε α) := do
  return ⟨itemsPerSecond, ← periodNanos itemsPerSecond, generate⟩

/-- A new stream, not polled yet. -/
def create (s : StreamSupplier ε α) : ItemStream ε α := .ofPeriod s.period s.generate

end StreamSupplier

/-- Streams of simple events at a rate. -/
def itemStream (itemsPerSecond : Int) : Except Error (StreamSupplier ε SimpleEvent) :=
  StreamSupplier.tryNew itemsPerSecond .slots

end Pacing
