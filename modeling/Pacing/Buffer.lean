import Pacing.Item
import Pacing.Log
import Pacing.Error

/-!
# Buffers and finite sources

A finite source delivers its items to a buffer once and closes it; a timestamped buffer takes
the items of paced sources and never closes. Draining a buffer takes its items and leaves
everything else as it is.
-/

namespace Pacing

/-- What a finite source fills: it takes items one by one, and is closed after the last one. -/
class SourceBuffer (β : Type) (α : outParam Type) where
  add : β → α → β
  close : β → β

/-- Appends items in order. -/
def SourceBuffer.addAll [SourceBuffer β α] (b : β) (items : List α) : β := items.foldl add b

/-- A buffer for the items of a finite source. -/
structure Buffer (α : Type) where
  items : Array α
  closed : Bool
  deriving DecidableEq, Repr

namespace Buffer

/-- An empty, open buffer. -/
def empty : Buffer α := ⟨#[], false⟩

instance : Inhabited (Buffer α) := ⟨empty⟩

/-- Appends an item. -/
def add (b : Buffer α) (item : α) : Buffer α := { b with items := b.items.push item }

/-- Marks the buffer as complete. -/
def close (b : Buffer α) : Buffer α := { b with closed := true }

instance : SourceBuffer (Buffer α) α := ⟨add, close⟩

/-- Takes the items; the buffer stays closed if it was. -/
def drain (b : Buffer α) : Array α × Buffer α := (b.items, { b with items := #[] })

theorem addAll_items (b : Buffer α) (items : List α) :
    (SourceBuffer.addAll b items).items.toList = b.items.toList ++ items := by
  induction items generalizing b with
  | nil => simp [SourceBuffer.addAll]
  | cons item items ih =>
    have hadd : (b.add item).items.toList = b.items.toList ++ [item] := Array.toList_push
    exact (ih (b.add item)).trans (by simp [hadd])

end Buffer

/-- A buffer for items with their event times. -/
abbrev TimestampedBuffer (α : Type) := Array (Timestamped α)

namespace TimestampedBuffer

/-- Appends an item with its time. -/
def add (b : TimestampedBuffer α) (item : α) (timestamp : Int) : TimestampedBuffer α :=
  b.push ⟨item, timestamp⟩

/-- Appends timestamped items in order. -/
def addAll (b : TimestampedBuffer α) (items : List (Timestamped α)) : TimestampedBuffer α :=
  items.foldl Array.push b

theorem addAll_toList (b : TimestampedBuffer α) (items : List (Timestamped α)) :
    (addAll b items).toList = b.toList ++ items := by
  induction items generalizing b with
  | nil => simp [addAll]
  | cons item items ih =>
    have := ih (b.push item)
    simp [addAll]

end TimestampedBuffer

/-! ### Finite sources -/

/-- A source that delivers a finite collection once: the items still to deliver, or nothing
once it has run. -/
structure ItemsSource (α : Type) where
  items : Option (List α)
  deriving DecidableEq, Repr

namespace ItemsSource

/-- A source of the given items. -/
def new (items : List α) : ItemsSource α := ⟨some items⟩

/-- A source of an optional collection, as a configuration gives it; the collection is
required. -/
def tryNew (items : Option (List α)) : Except Error (ItemsSource α) :=
  match items with
  | some items => .ok (new items)
  | none => .error (.missing "items")

/-- Number of items not yet delivered. -/
def remaining (s : ItemsSource α) : Nat := s.items.elim 0 List.length

/-- The source has delivered its items. -/
def isDone (s : ItemsSource α) : Bool := s.items.isNone

/-- Delivers every item in order and closes the buffer. A source that has already run leaves
the buffer alone. -/
def fill [SourceBuffer β α] (s : ItemsSource α) (b : β) : ItemsSource α × β × List LogEvent :=
  match s.items with
  | some items =>
    (⟨none⟩, SourceBuffer.close (SourceBuffer.addAll b items), [.replayingItems items.length])
  | none => (s, b, [.polledAfterClose])

/-- A source that has run leaves every buffer alone. -/
theorem fill_of_isDone [SourceBuffer β α] {s : ItemsSource α} (h : s.isDone = true) (b : β) :
    s.fill b = (s, b, [.polledAfterClose]) := by
  obtain ⟨items⟩ := s
  cases items with
  | none => rfl
  | some items => simp [isDone] at h

end ItemsSource

end Pacing
