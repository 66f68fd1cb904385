import Pacing.Transport

/-!
# Sample generators

Generators with state, failures and different fates in transport: one that arrives unchanged,
one that cannot be written, one that cannot be read back, one that arrives without part of
its state, and one whose text is checked when it is read.
-/

namespace Pacing.Samples

/-- Items labelled with a lead text, their number and their time. -/
def label (lead : String) : Generator ε Item :=
  .pure fun timestamp sequence =>
    .value (.string (lead ++ toString sequence ++ ":" ++ toString timestamp))

/-- The event time plus a multiple of the number, wrapping around. -/
def sum (k : Int) : Generator ε Item :=
  .pure fun timestamp sequence => .long (Word.wrap (timestamp + sequence * k))

/-- Numbers, except that the given ones fail while the event time is before `limit`. -/
def failing (numbers : List Int) (limit : Int) : Generator String Item :=
  fun timestamp sequence =>
    if sequence ∈ numbers ∧ timestamp < limit then .error ("boom at " ++ toString sequence)
    else .ok (.long sequence)

/-! ### Generators that travel -/

/-- The document of a structure with one field, and its reader. -/
def oneField (name : String) (read : Json.Outline → Except Json.Fault α) (text : String) :
    Except Json.Fault α := do
  match ← Json.readText (Json.readRecord [⟨name, read⟩]) text with
  | [value] => return value
  | _ => .error .mistyped

/-- Labels with a lead text that travels. -/
structure Labelled where
  lead : String

instance : Transportable Labelled where
  encode g := .ok (Json.print (.object [("prefix", .string g.lead)]))
  decode text := Labelled.mk <$> oneField "prefix" Json.Outline.readString text

/-- The lead text, the number and the time. -/
def Labelled.run (g : Labelled) : Generator ε Item :=
  .pure fun timestamp sequence =>
    .value (.string (g.lead ++ "-" ++ toString sequence ++ "@" ++ toString timestamp))

/-- A table with pairs as keys, which have no text: only the empty table can be written. -/
structure Grid where
  cells : List (Int × Int × Int)

instance : Transportable Grid where
  encode g :=
    if g.cells.isEmpty then .ok (Json.print (.object [("cells", .object [])]))
    else .error .malformed
  decode text := do
    let cells ← oneField "cells" (Json.Outline.read Json.depthLimit) text
    if cells = .object [] then return ⟨[]⟩ else .error .mistyped

/-- The number. -/
def Grid.run (_ : Grid) : Generator ε Item := .pure fun _ sequence => .long sequence

/-- Multiples of a double; one that is not finite is written as `null` and not read back. -/
structure Scale where
  factor : Double

instance : Transportable Scale where
  encode g := .ok (Json.print (.object [("factor", .number (.float g.factor))]))
  decode text := Scale.mk <$> oneField "factor" Json.Outline.readDouble text

/-- The number times the factor, truncated. -/
def Scale.run (g : Scale) : Generator ε Item :=
  .pure fun _ sequence => .long ((Double.ofInt sequence).mul g.factor).truncate

/-- A pair of which only the first part is written; the second arrives as zero. -/
structure Lossy where
  keep : Int
  skip : Int

instance : Transportable Lossy where
  encode g := .ok (Json.print (.object [("keep", .int g.keep)]))
  decode text := (Lossy.mk · 0) <$> oneField "keep" Json.Outline.readInt text

/-- A number that shows both parts. -/
def Lossy.run (g : Lossy) : Generator ε Item :=
  .pure fun _ sequence => .long (g.keep * 1000000 + g.skip * 1000 + sequence)

/-- A shift of the event time that is refused on arrival when it is negative. -/
structure Shift where
  amount : Int

instance : Transportable Shift where
  encode g := .ok (Json.print (.int g.amount))
  decode text := do
    let amount ← Json.readText Json.Outline.readInt text
    if amount < 0 then .error .mistyped else return ⟨amount⟩

/-- The shifted event time. -/
def Shift.run (g : Shift) : Generator ε Item :=
  .pure fun timestamp _ => .long (Word.wrap (timestamp + g.amount))

end Pacing.Samples
