import Pacing.Buffer
import Pacing.Stream
import Pacing.Long

/-!
# Source configurations

A source described by a document. Required fields are optional here, so that a missing one is
reported by name when the source is built, as the constructors of the sources do.

The document of a configuration is an object with the member `kind`, which says which fields
it has; the members may come in any order. An array of the kind and the fields in their order
is accepted as well.
-/

namespace Pacing

/-- The three kinds of source. -/
inductive SourceKind where
  | items
  | itemStream
  | longStream
  deriving DecidableEq, Repr

/-- The name of a kind in documents. -/
def SourceKind.name : SourceKind → String
  | .items => "items"
  | .itemStream => "item_stream"
  | .longStream => "long_stream"

/-- The kind with a name. -/
def SourceKind.ofName? (name : String) : Option SourceKind :=
  if name = "items" then some .items
  else if name = "item_stream" then some .itemStream
  else if name = "long_stream" then some .longStream
  else none

/-- The description of a source. -/
inductive SourceConfig where
  /-- A finite replay of documents. -/
  | items (items : Option (List Json))
  /-- A stream of simple events. -/
  | itemStream (itemsPerSecond : Option Int)
  /-- A replicated integer stream. -/
  | longStream (itemsPerSecond : Option Int) (initialDelayMs : Nat) (preferred : Option Positive)
  deriving DecidableEq, Repr

namespace SourceConfig

/-! ### Writing -/

/-- The document of an optional integer. -/
def optionalInt (n : Option Int) : Json := n.elim .null Json.int

/-- The document of a configuration: its kind and its fields in their order, absent ones as
`null`. -/
def toJson : SourceConfig → Json
  | .items values => .object [("kind", .string "items"), ("items", values.elim .null .array)]
  | .itemStream rate =>
    .object [("kind", .string "item_stream"), ("items_per_second", optionalInt rate)]
  | .longStream rate delay preferred =>
    .object [("kind", .string "long_stream"), ("items_per_second", optionalInt rate),
      ("initial_delay_ms", .count delay),
      ("preferred_local_parallelism", optionalInt (preferred.map fun p => (p.val : Int)))]

/-- The text of a configuration. -/
def print (c : SourceConfig) : String := c.toJson.print

/-! ### Reading fields -/

/-- Reads an optional list of documents. -/
def readItems : Json → Except Json.Fault (Option (List Json))
  | .null => .ok none
  | .array values => .ok (some values)
  | _ => .error .mistyped

/-- Reads an optional signed 64-bit integer. -/
def readRate : Json → Except Json.Fault (Option Int)
  | .null => .ok none
  | .number (.int n) => if n ≤ Word.highest then .ok (some n) else .error .mistyped
  | _ => .error .mistyped

/-- Reads an unsigned 64-bit integer. -/
def readDelay : Json → Except Json.Fault Nat
  | .number (.int n) => if 0 ≤ n then .ok n.toNat else .error .mistyped
  | _ => .error .mistyped

/-- Reads an optional positive count. -/
def readParallelism : Json → Except Json.Fault (Option Positive)
  | .null => .ok none
  | .number (.int n) =>
    match Positive.ofNat? n.toNat with
    | some p => .ok (some p)
    | none => .error .mistyped
  | _ => .error .mistyped

/-- Reads a field that may be left out. -/
def orDefault (default : α) (read : Json → Except Json.Fault α) : Option Json → Except Json.Fault α
  | none => .ok default
  | some value => read value

/-! ### Objects -/

/-- The names of a kind's fields. -/
def fieldNames : SourceKind → List String
  | .items => ["items"]
  | .itemStream => ["items_per_second"]
  | .longStream => ["items_per_second", "initial_delay_ms", "preferred_local_parallelism"]

/-- Some field is given twice. -/
def hasRepeated (names : List String) : (members : List (String × Json)) → Bool
  | [] => false
  | (key, _) :: rest =>
    (decide (key ∈ names) && rest.any (·.1 == key)) || hasRepeated names rest

/-- The configuration of a kind with fields looked up by name. -/
def ofFields (kind : SourceKind) (field : String → Option Json) : Except Json.Fault SourceConfig :=
  match kind with
  | .items => do return .items (← orDefault none readItems (field "items"))
  | .itemStream => do return .itemStream (← orDefault none readRate (field "items_per_second"))
  | .longStream => do
    return .longStream (← orDefault none readRate (field "items_per_second"))
      (← orDefault 0 readDelay (field "initial_delay_ms"))
      (← orDefault none readParallelism (field "preferred_local_parallelism"))

/-- The configuration of a kind with the given members; members that are no field of it are
ignored. -/
def ofMembers (kind : SourceKind) (members : List (String × Json)) :
    Except Json.Fault SourceConfig :=
  if hasRepeated (fieldNames kind) members then .error .mistyped
  else ofFields kind fun name => Json.lookup name members

/-- Reads the kind: a string that names one. -/
def readKind (value : Json.Outline) : Except Json.Fault SourceKind := do
  match SourceKind.ofName? (← value.readString) with
  | some kind => return kind
  | none => .error .mistyped

/-- Depth of documents inside a configuration. -/
def innerDepth : Nat := Json.depthLimit - 1

/-- Reads the members of a configuration: the kind as soon as it comes, and no second one; the
other members wait until the kind is known. -/
def readTagged : (kind : Option SourceKind) → List (Json.Quoted × Json.Outline) →
    Except Json.Fault (Option SourceKind × List (String × Json))
  | kind, [] => .ok (kind, [])
  | kind, (key, value) :: rest => do
    let key ← key.read
    if key = "kind" then
      if kind.isSome then .error .mistyped
      else do
        let kind ← readKind value
        readTagged (some kind) rest
    else do
      let value ← value.read innerDepth
      let (kind, members) ← readTagged kind rest
      return (kind, (key, value) :: members)

/-! ### Arrays -/

/-- The configuration of a kind with its fields in their order. The last two fields of a
replicated source may be left out. -/
def ofElements : SourceKind → List Json → Except Json.Fault SourceConfig
  | .items, [values] => do return .items (← readItems values)
  | .itemStream, [rate] => do return .itemStream (← readRate rate)
  | .longStream, rate :: rest => do
    let rate ← readRate rate
    match rest with
    | [] => return .longStream rate 0 none
    | [delay] => return .longStream rate (← readDelay delay) none
    | [delay, preferred] =>
      return .longStream rate (← readDelay delay) (← readParallelism preferred)
    | _ => .error .mistyped
  | _, _ => .error .mistyped

/-! ### Documents -/

/-- Reads a configuration. Its fields are looked at once the whole object or array has been
read. -/
def read : Json.Outline → Except Json.Fault SourceConfig
  | .object members ending => do
    let (kind, members) ← readTagged none members
    ending.check
    match kind with
    | some kind => ofMembers kind members
    | none => .error .mistyped
  | .array [] ending => do ending.check; .error .mistyped
  | .array (tag :: elements) ending => do
    let kind ← readKind tag
    let elements ← Json.readAll innerDepth elements
    ending.check
    ofElements kind elements
  | other => other.refuse

/-- The configuration a text stands for. -/
def parse (text : String) : Except Json.Fault SourceConfig := Json.readText read text

/-- The configuration a text stands for, or the error to report. -/
def fromJson (text : String) : Except Error SourceConfig :=
  (parse text).mapError .invalidConfig

end SourceConfig

/-! ### Building sources -/

/-- A source built from a configuration. -/
inductive ConfiguredSource where
  | items (source : ItemsSource Json)
  | itemStream (supplier : StreamSupplier Empty SimpleEvent)
  | longStream (source : LongSource)

/-- A required argument. -/
def required (name : String) (value : Option α) : Except Error α :=
  match value with
  | some value => .ok value
  | none => .error (.missing name)

/-- Builds the source of a configuration. What is required must be there before anything else
is validated. -/
def SourceConfig.build : SourceConfig → Except Error ConfiguredSource
  | .items values => do return .items (← ItemsSource.tryNew values)
  | .itemStream rate => do
    let rate ← required "items_per_second" rate
    return .itemStream (← Pacing.itemStream rate)
  | .longStream rate delay preferred => do
    let rate ← required "items_per_second" rate
    return .longStream (← LongSource.tryNew rate (.ofMillis delay) preferred)

end Pacing
