import Pacing.Json.Outline
import Pacing.Json.Basic

/-!
# Reading documents

The last stage of reading: values are taken from the tree of a text. Every reader walks the
tree in reading order and returns the first fault it meets; a reader that wants a certain type
meets a fault of its own where the tree holds something else.
-/

namespace Pacing.Json

/-! ### Strings -/

/-- A code unit that starts a pair. -/
def isLeadingUnit (u : Nat) : Bool := 0xD800 ≤ u && u ≤ 0xDBFF

/-- A code unit that ends a pair. -/
def isTrailingUnit (u : Nat) : Bool := 0xDC00 ≤ u && u ≤ 0xDFFF

/-- The character a pair of code units stands for. -/
def pairedChar (lead trail : Nat) : Char :=
  Char.ofNat (0x10000 + (lead - 0xD800) * 0x400 + (trail - 0xDC00))

/-- The characters of a string. Code units must pair up: a leading one needs a trailing one
straight after it, and a trailing one cannot stand alone. -/
def assemble : List Piece → Option Fault → Except Fault (List Char)
  | [], none => .ok []
  | [], some fault => .error fault
  | .char c :: pieces, flaw => do return c :: (← assemble pieces flaw)
  | .codeUnit u :: pieces, flaw =>
    if isTrailingUnit u then .error .malformed
    else if isLeadingUnit u then
      match pieces with
      | .codeUnit v :: pieces =>
        if isTrailingUnit v then do return pairedChar u v :: (← assemble pieces flaw)
        else .error .malformed
      | .char _ :: _ => .error .malformed
      | [] => .error (flaw.getD .malformed)
    else do return Char.ofNat u :: (← assemble pieces flaw)

/-- The value of a string. -/
def Quoted.read (t : Quoted) : Except Fault String := do
  return String.ofList (← assemble t.pieces t.flaw)

/-- Passes over a string without looking at its code units. -/
def Quoted.skip (t : Quoted) : Except Fault Unit :=
  match t.flaw with
  | none => .ok ()
  | some fault => .error fault

/-! ### Numbers -/

/-- Takes digits into a significand until the next one would not fit in 64 bits, and returns
how many were left out. -/
def takeDigits : (digits : List Nat) → (significand : Nat) → Nat × Nat
  | [], significand => (significand, 0)
  | d :: digits, significand =>
    let next := significand * 10 + d
    if next < 18446744073709551616 then takeDigits digits next
    else (significand, digits.length + 1)

/-- The number written by `digits` when it stays within a 32-bit exponent. -/
def boundedExponent : (digits : List Nat) → (value : Nat) → Option Nat
  | [], value => some value
  | d :: digits, value =>
    let next := value * 10 + d
    if next ≤ 2147483647 then boundedExponent digits next else none

/-- A 32-bit exponent nearest to `e`. -/
def clampExponent (e : Int) : Int := max (-2147483648) (min 2147483647 e)

/-- Scales a magnitude by a power of ten. The power is applied in one rounded step when it is
at most 308 in size; smaller powers first take steps of 308 down. A magnitude beyond the
largest double is a fault. -/
def scaleByPower : (steps : Nat) → Double → (exponent : Int) → Except Fault Double
  | 0, d, _ => .ok d
  | steps + 1, d, exponent =>
    if exponent.natAbs ≤ 308 then
      if 0 ≤ exponent then
        let product := d.mul (Double.pow10 exponent.toNat)
        if product.isInfinite then .error .malformed else .ok product
      else .ok (d.div (Double.pow10 exponent.natAbs))
    else if d.isZero then .ok d
    else if 0 ≤ exponent then .error .malformed
    else scaleByPower steps (d.div (Double.pow10 308)) (exponent + 308)

/-- Gives a magnitude its sign. -/
def signed (negative : Bool) (d : Double) : Double := if negative then d.neg else d

/-- The double a significand and a power of ten stand for. -/
def floatOf (negative : Bool) (significand : Nat) (exponent : Int) : Except Fault Number := do
  return .float (signed negative (← scaleByPower 5 (Double.ofNat significand) exponent))

/-- The value of a number without fraction and exponent whose digits fit in 64 bits. Minus
zero and what is below the signed range become doubles. -/
def wholeNumber (negative : Bool) (significand : Nat) : Number :=
  if negative = false then .int significand
  else if significand = 0 ∨ 9223372036854775808 < significand then
    .float (Double.ofNat significand).neg
  else .int (-(significand : Int))

/-- The value of a number. The digits before and after the point share one 64-bit
significand; digits that do not fit before the point scale it up, those after it are ignored. -/
def Numeral.read (n : Numeral) : Except Fault Number :=
  let (whole, raised) := takeDigits n.whole 0
  let (significand, ignored) := takeDigits n.fraction whole
  let start : Int := (raised : Int) - ((n.fraction.length - ignored : Nat) : Int)
  match n.exponent with
  | none =>
    if raised = 0 ∧ n.fraction = [] then .ok (wholeNumber n.negative significand)
    else floatOf n.negative significand start
  | some (negative, digits) =>
    match boundedExponent digits 0 with
    | some e =>
      floatOf n.negative significand (clampExponent (if negative then start - e else start + e))
    | none =>
      if significand ≠ 0 ∧ negative = false then .error .malformed
      else .ok (.float (Double.zero n.negative))

/-! ### Whole documents -/

/-- The fault of an ending, if it has one. -/
def Ending.check : Ending → Except Fault Unit
  | .closed => .ok ()
  | .cut fault => .error fault

mutual

/-- The document of a tree, with at most `depth` arrays and objects inside each other. -/
def Outline.read : (depth : Nat) → Outline → Except Fault Json
  | _, .null => .ok .null
  | _, .bool b => .ok (.bool b)
  | _, .number n => do return .number (← n.read)
  | _, .text t => do return .string (← t.read)
  | _, .brokenNumber fault => .error fault
  | _, .missing fault => .error fault
  | 0, .array _ _ => .error .malformed
  | 0, .object _ _ => .error .malformed
  | depth + 1, .array elements ending => do
    let elements ← readAll depth elements
    ending.check
    return .array elements
  | depth + 1, .object members ending => do
    let members ← readEach depth members
    ending.check
    return .object (sortMembers members)

/-- The documents of a list of trees. -/
def readAll : (depth : Nat) → List Outline → Except Fault (List Json)
  | _, [] => .ok []
  | depth, v :: vs => do
    let v ← v.read depth
    return v :: (← readAll depth vs)

/-- The keys and documents of a list of members. -/
def readEach : (depth : Nat) → List (Quoted × Outline) → Except Fault (List (String × Json))
  | _, [] => .ok []
  | depth, (k, v) :: rest => do
    let k ← k.read
    let v ← v.read depth
    return (k, v) :: (← readEach depth rest)

end

mutual

/-- Passes over a value nobody wants: only the grammar counts, not the size of its numbers,
the pairing of its code units or its depth. -/
def Outline.skip : Outline → Except Fault Unit
  | .null | .bool _ | .number _ => .ok ()
  | .text t => t.skip
  | .brokenNumber _ => .error .malformed
  | .missing fault => .error fault
  | .array elements ending => do skipAll elements; ending.check
  | .object members ending => do skipEach members; ending.check

/-- Passes over a list of values. -/
def skipAll : List Outline → Except Fault Unit
  | [] => .ok ()
  | v :: vs => do v.skip; skipAll vs

/-- Passes over a list of members. -/
def skipEach : List (Quoted × Outline) → Except Fault Unit
  | [] => .ok ()
  | (k, v) :: rest => do k.skip; v.skip; skipEach rest

end

/-- Nesting depth up to which documents are read. -/
def depthLimit : Nat := 127

/-- Reads the only value of a text with a given reader of trees. Text after the value is the
last fault to be noticed. -/
def readText (read : Outline → Except Fault α) (text : String) : Except Fault α := do
  let (value, more) := outline text.toList
  let result ← read value
  if more then .error .malformed
  return result

/-- The document of a text, nested no deeper than `depth`. -/
def parseWithin (depth : Nat) (text : String) : Except Fault Json :=
  readText (Outline.read depth) text

/-- The document of a text. -/
def parse (text : String) : Except Fault Json := parseWithin depthLimit text

/-! ### Values of a wanted type -/

/-- What a reader of a scalar meets in a tree of another kind: the fault of that value if it
has one, and otherwise that it is not wanted here. The inside of an array or object is not
looked at. -/
def Outline.refuse : Outline → Except Fault α
  | .null | .bool _ | .array _ _ | .object _ _ => .error .mistyped
  | .number n => do let _ ← n.read; .error .mistyped
  | .text t => do let _ ← t.read; .error .mistyped
  | .brokenNumber fault => .error fault
  | .missing fault => .error fault

/-- Reads a signed 64-bit integer. -/
def Outline.readInt : Outline → Except Fault Int
  | .number n => do
    match ← n.read with
    | .int i => if i ≤ 9223372036854775807 then return i else .error .mistyped
    | .float _ => .error .mistyped
  | other => other.refuse

/-- Reads a string. -/
def Outline.readString : Outline → Except Fault String
  | .text t => t.read
  | other => other.refuse

/-- Reads a double. -/
def Outline.readDouble : Outline → Except Fault Double
  | .number n => do
    match ← n.read with
    | .int i => return Double.ofInt i
    | .float d => return d
  | other => other.refuse

/-- Reads the document `null`. -/
def Outline.readNull : Outline → Except Fault Unit
  | .null => .ok ()
  | other => other.refuse

/-! ### Records -/

/-- A field of a record: its name and how its value is read. Fields of different types share
a type of what they may hold. -/
structure Field (φ : Type) where
  name : String
  read : Outline → Except Fault φ

/-- Reads the members of an object as fields. A field is refused when it comes a second time,
as soon as its key is read; members that are no field are passed over. -/
def readFields (fields : List (Field φ)) :
    (found : List (String × φ)) → List (Quoted × Outline) → Except Fault (List (String × φ))
  | found, [] => .ok found
  | found, (key, value) :: rest => do
    let key ← key.read
    match fields.find? (·.name = key) with
    | none => do value.skip; readFields fields found rest
    | some field =>
      if found.any (·.1 = key) then .error .mistyped
      else do
        let v ← field.read value
        readFields fields ((key, v) :: found) rest

/-- The values of the fields in their order; a field that was not found is a fault. -/
def collectFields (found : List (String × φ)) : List (Field φ) → Except Fault (List φ)
  | [] => .ok []
  | field :: fields =>
    match found.find? (·.1 = field.name) with
    | none => .error .mistyped
    | some (_, v) => do return v :: (← collectFields found fields)

/-- Reads the elements of an array as the fields in their order. An array that ends early is
not wanted; one that goes on behind the last field leaves the grammar there. -/
def readPositions : List (Field φ) → List Outline → Ending → Except Fault (List φ)
  | [], [], ending => do ending.check; return []
  | [], _ :: _, _ => .error .malformed
  | _ :: _, [], ending => do ending.check; .error .mistyped
  | field :: fields, v :: vs, ending => do
    let v ← field.read v
    return v :: (← readPositions fields vs ending)

/-- Reads a record: an object with its fields, or an array of exactly them. -/
def readRecord (fields : List (Field φ)) : Outline → Except Fault (List φ)
  | .object members ending => do
    let found ← readFields fields [] members
    ending.check
    collectFields found fields
  | .array elements ending => readPositions fields elements ending
  | other => other.refuse

end Pacing.Json
