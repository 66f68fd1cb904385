import Pacing.Buffer
import Pacing.Json.Printer

/-!
# Records

One line of output: which worker emitted an item, when it is dated if it is, and the item.
-/

namespace Pacing

/-- An emitted item with its worker and its event time. -/
structure Record where
  worker : Nat
  timestamp : Option Int
  item : Item
  deriving DecidableEq, Repr, Inhabited

namespace Record

/-- The document of a record. One without a time has no member for it. -/
def toJson (r : Record) : Json :=
  .object (("worker", .count r.worker)
    :: (r.timestamp.elim [] fun t => [("timestamp", .int t)])
    ++ [("item", r.item.toJson)])

/-- The text of a record, without the end of the line. -/
def text (r : Record) : String := r.toJson.print

/-- The record of a document without a time. -/
def ofValue (worker : Nat) (value : Json) : Record := ⟨worker, none, .value value⟩

end Record

/-- Items that can stand in a record. -/
class ToItem (α : Type) where
  toItem : α → Item

instance : ToItem Item := ⟨id⟩
instance : ToItem SimpleEvent := ⟨.event⟩
instance : ToItem Int := ⟨.long⟩

/-- Collects the records of one worker. -/
structure RecordBuffer where
  worker : Nat
  records : Array Record
  closed : Bool
  deriving Repr

namespace RecordBuffer

/-- An empty, open buffer. -/
def new (worker : Nat) : RecordBuffer := ⟨worker, #[], false⟩

/-- Adds an item with its time. -/
def addTimestamped [ToItem α] (b : RecordBuffer) (item : α) (timestamp : Int) : RecordBuffer :=
  { b with records := b.records.push ⟨b.worker, some timestamp, ToItem.toItem item⟩ }

/-- Adds items with their times, in order. -/
def addAllTimestamped [ToItem α] (b : RecordBuffer) (items : List (Timestamped α)) : RecordBuffer :=
  items.foldl (fun b t => b.addTimestamped t.item t.timestamp) b

/-- Adds a document without a time. -/
def addValue (b : RecordBuffer) (value : Json) : RecordBuffer :=
  { b with records := b.records.push (.ofValue b.worker value) }

/-- Marks the buffer as complete. -/
def close (b : RecordBuffer) : RecordBuffer := { b with closed := true }

instance : SourceBuffer RecordBuffer Json := ⟨addValue, close⟩

/-- Nothing has been collected since the last taking. -/
def isEmpty (b : RecordBuffer) : Bool := b.records.isEmpty

/-- Takes the records; the buffer stays closed if it was. -/
def take (b : RecordBuffer) : List Record × RecordBuffer :=
  (b.records.toList, { b with records := #[] })

end RecordBuffer

end Pacing
