import Pacing.Event

/-!
# Items

What sources emit: an event, an integer, or any document. An item with its event time is a
`Timestamped` one.
-/

namespace Pacing

/-- Any item a source can emit. -/
inductive Item where
  | event (e : SimpleEvent)
  | long (n : Int)
  | value (v : Json)
  deriving DecidableEq, Repr, Inhabited

/-- The document of an item: it carries no mark of its kind. -/
def Item.toJson : Item → Json
  | .event e => e.toJson
  | .long n => .int n
  | .value v => v

/-- An item and its event time in milliseconds. -/
structure Timestamped (α : Type) where
  item : α
  timestamp : Int
  deriving DecidableEq, Repr, Inhabited

namespace Timestamped

/-- The document of a timestamped item. -/
def toJson (itemToJson : α → Json) (t : Timestamped α) : Json :=
  .object [("item", itemToJson t.item), ("timestamp", .int t.timestamp)]

/-- A value of one of a record's two fields. -/
inductive Part (α : Type) where
  | item (a : α)
  | time (n : Int)

/-- The fields of a timestamped item, the item read by `readItem`. -/
def fields (readItem : Json.Outline → Except Json.Fault α) : List (Json.Field (Part α)) :=
  [⟨"item", fun v => .item <$> readItem v⟩, ⟨"timestamp", fun v => .time <$> v.readInt⟩]

/-- Reads a timestamped item: a record of the item, read by `readItem`, and its time. -/
def read (readItem : Json.Outline → Except Json.Fault α) (value : Json.Outline) :
    Except Json.Fault (Timestamped α) := do
  match ← Json.readRecord (fields readItem) value with
  | [.item item, .time timestamp] => return ⟨item, timestamp⟩
  | _ => .error .mistyped

/-- The timestamped item a text stands for. -/
def parse (readItem : Json.Outline → Except Json.Fault α) (text : String) :
    Except Json.Fault (Timestamped α) :=
  Json.readText (read readItem) text

end Timestamped

end Pacing
