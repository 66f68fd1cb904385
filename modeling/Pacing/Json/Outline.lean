import Pacing.Json.Token

/-!
# Outlines

The second stage of reading: the tokens become a tree. The tree is built for every text. Where
the grammar is left, the tree holds the fault at that place, and what follows the fault is of
no interest to a reader that walks the tree in reading order and stops at the first one.
Strings and numbers are still as written, keys keep their order and their repetitions.
-/

namespace Pacing.Json

/-- How an array or object ends: with its bracket, or with the fault found where a comma or
the bracket should stand (for an object also where a key should stand). -/
inductive Ending where
  | closed
  | cut (fault : Fault)
  deriving DecidableEq, Repr

/-- The tree of a text. -/
inductive Outline where
  | null
  | bool (b : Bool)
  | number (n : Numeral)
  | text (t : Quoted)
  | array (elements : List Outline) (ending : Ending)
  | object (members : List (Quoted × Outline)) (ending : Ending)
  /-- A number that breaks off with this fault. -/
  | brokenNumber (fault : Fault)
  /-- No value stands here, for this fault. -/
  | missing (fault : Fault)
  deriving Repr, Inhabited

/-- The fault of a text that goes on with `tokens` where it should not. -/
def unexpected : (tokens : List Token) → Fault
  | [] => .truncated
  | _ :: _ => .malformed

mutual

/-- Reads one value off the tokens. -/
def readValue : (fuel : Nat) → List Token → Outline × List Token
  | 0, tokens => (.missing .truncated, tokens)
  | _ + 1, [] => (.missing .truncated, [])
  | fuel + 1, token :: tokens =>
    match token with
    | .null => (.null, tokens)
    | .bool b => (.bool b, tokens)
    | .number n => (.number n, tokens)
    | .text t => (.text t, tokens)
    | .brokenNumber fault => (.brokenNumber fault, tokens)
    | .broken fault => (.missing fault, tokens)
    | .beginArray =>
      match tokens with
      | [] => (.array [] (.cut .truncated), [])
      | .endArray :: rest => (.array [] .closed, rest)
      | tokens =>
        let (elements, ending, rest) := readElements fuel tokens
        (.array elements ending, rest)
    | .beginObject =>
      match tokens with
      | .endObject :: rest => (.object [] .closed, rest)
      | tokens =>
        let (members, ending, rest) := readMembers fuel tokens
        (.object members ending, rest)
    | _ => (.missing .malformed, tokens)

/-- Reads the elements of an array, up to its end. -/
def readElements : (fuel : Nat) → List Token → List Outline × Ending × List Token
  | 0, tokens => ([], .cut .truncated, tokens)
  | fuel + 1, tokens =>
    match readValue fuel tokens with
    | (value, .comma :: rest) =>
      let (elements, ending, rest) := readElements fuel rest
      (value :: elements, ending, rest)
    | (value, .endArray :: rest) => ([value], .closed, rest)
    | (value, rest) => ([value], .cut (unexpected rest), rest)

/-- Reads the members of an object, up to its end. -/
def readMembers : (fuel : Nat) → List Token → List (Quoted × Outline) × Ending × List Token
  | 0, tokens => ([], .cut .truncated, tokens)
  | fuel + 1, tokens =>
    match tokens with
    | .text key :: .colon :: rest =>
      match readValue fuel rest with
      | (value, .comma :: rest) =>
        let (members, ending, rest) := readMembers fuel rest
        ((key, value) :: members, ending, rest)
      | (value, .endObject :: rest) => ([(key, value)], .closed, rest)
      | (value, rest) => ([(key, value)], .cut (unexpected rest), rest)
    | .text key :: rest => ([(key, .missing (unexpected rest))], .cut (unexpected rest), rest)
    | tokens => ([], .cut (unexpected tokens), tokens)

end

/-- The tree of a text, and whether anything but blanks follows its first value. -/
def outline (text : List Char) : Outline × Bool :=
  let tokens := lex text
  let (value, rest) := readValue (2 * tokens.length + 2) tokens
  (value, !rest.isEmpty)

end Pacing.Json
