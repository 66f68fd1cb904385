import Pacing.Stream

/-!
# Transport

A generator that is to run elsewhere must not depend on anything that does not travel with its
text. The check writes it, reads it back and keeps the copy, so that what does not travel is
already lost here and not only at its destination.
-/

namespace Pacing

/-- Values that can be written as text and read back, each with its possible faults. -/
class Transportable (γ : Type) where
  encode : γ → Except Json.Fault String
  decode : String → Except Json.Fault γ

/-- The copy of a value that arrives when its text is sent. -/
def roundTrip [Transportable γ] (value : γ) : Except Json.Fault γ := do
  Transportable.decode (← Transportable.encode value)

/-- The copy of a value that arrives elsewhere, or the error naming the value that does not. -/
def checkTransportable [Transportable γ] (name : String) (value : γ) : Except Error γ :=
  match roundTrip value with
  | .ok copy => .ok copy
  | .error fault => .error (.notTransportable name fault)

/-- Streams whose generator has been shown to travel: the rate is validated first, and the
streams run the copy that arrived. -/
def itemStreamDistributed [Transportable γ] (itemsPerSecond : Int) (generator : γ)
    (run : γ → Generator ε α) : Except Error (StreamSupplier ε α) := do
  let _ ← periodNanos itemsPerSecond
  let copy ← checkTransportable "generator_fn" generator
  StreamSupplier.tryNew itemsPerSecond (run copy)

/-- The generator of simple events as a value that can travel; it has nothing to carry. -/
structure SlotGenerator where
  deriving DecidableEq, Repr

namespace SlotGenerator

/-- Reads the generator: its document is `null`. -/
def read (value : Json.Outline) : Except Json.Fault SlotGenerator := do
  value.readNull
  return {}

/-- The generator a text stands for. -/
def parse (text : String) : Except Json.Fault SlotGenerator := Json.readText read text

instance : Transportable SlotGenerator where
  encode _ := .ok (Json.print .null)
  decode := parse

/-- What the generator makes. -/
def run (_ : SlotGenerator) : Generator ε SimpleEvent := .slots

end SlotGenerator

end Pacing
