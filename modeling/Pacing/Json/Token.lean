import Pacing.Json.Fault

/-!
# Tokens

The first stage of reading: the text becomes a list of tokens. Nothing is rejected here. A
string keeps its pieces even if it ends badly, and a literal or number that cannot be
completed becomes a token that carries its fault, so that the later stages decide which fault
comes first for the reader they are.
-/

namespace Pacing.Json

/-! ### Strings -/

/-- A piece of a string: a character, or a code unit given by four hexadecimal digits. -/
inductive Piece where
  | char (c : Char)
  | codeUnit (u : Nat)
  deriving DecidableEq, Repr

/-- A string as it was written: its pieces up to the closing quote, or up to the fault that
stands in its place. -/
structure Quoted where
  pieces : List Piece
  flaw : Option Fault
  deriving DecidableEq, Repr

/-- The value of a hexadecimal digit of either case. -/
def hexValue? (c : Char) : Option Nat :=
  if '0' ≤ c ∧ c ≤ '9' then some (c.toNat - 48)
  else if 'a' ≤ c ∧ c ≤ 'f' then some (c.toNat - 87)
  else if 'A' ≤ c ∧ c ≤ 'F' then some (c.toNat - 55)
  else none

/-- The code unit with four given hexadecimal digits. -/
def codeUnit? (a b c d : Char) : Option Nat :=
  match hexValue? a, hexValue? b, hexValue? c, hexValue? d with
  | some a, some b, some c, some d => some (((a * 16 + b) * 16 + c) * 16 + d)
  | _, _, _, _ => none

/-- The character a one-letter escape stands for. -/
def escaped? (c : Char) : Option Char :=
  if c = '"' then some '"'
  else if c = '\\' then some '\\'
  else if c = '/' then some '/'
  else if c = 'b' then some (Char.ofNat 8)
  else if c = 'f' then some (Char.ofNat 12)
  else if c = 'n' then some '\n'
  else if c = 'r' then some '\r'
  else if c = 't' then some '\t'
  else none

/-- Number of bytes the characters take in the encoded text. -/
def encodedLength : List Char → Nat
  | [] => 0
  | c :: cs => c.utf8Size + encodedLength cs

/-- A scanned string and the text after it. -/
structure ScannedText where
  quoted : Quoted
  rest : List Char

/-- Puts a piece before a scanned string. -/
def ScannedText.cons (piece : Piece) (scanned : ScannedText) : ScannedText :=
  { scanned with quoted := { scanned.quoted with pieces := piece :: scanned.quoted.pieces } }

/-- A string that ends here, closed or with a fault. -/
def ScannedText.done (flaw : Option Fault) (rest : List Char) : ScannedText := ⟨⟨[], flaw⟩, rest⟩

/-- Scans a string from behind its opening quote. The four digits of a code unit are counted
in bytes of the text: with fewer than four bytes left the text has ended. -/
def scanText : List Char → ScannedText
  | [] => .done (some .truncated) []
  | c :: rest =>
    if c = '"' then .done none rest
    else if c = '\\' then
      match rest with
      | [] => .done (some .truncated) []
      | e :: rest =>
        if e = 'u' then
          match rest with
          | p :: q :: r :: s :: rest =>
            match codeUnit? p q r s with
            | some u => (scanText rest).cons (.codeUnit u)
            | none => .done (some .malformed) rest
          | short =>
            .done (some (if encodedLength short < 4 then .truncated else .malformed)) []
        else
          match escaped? e with
          | some decoded => (scanText rest).cons (.char decoded)
          | none => .done (some .malformed) rest
    else if c.toNat < 32 then .done (some .malformed) rest
    else (scanText rest).cons (.char c)

/-! ### Numbers -/

/-- A number as it was written: its digits, by value. -/
structure Numeral where
  negative : Bool
  whole : List Nat
  fraction : List Nat
  exponent : Option (Bool × List Nat)
  deriving DecidableEq, Repr

/-- The value of a decimal digit. -/
def digitValue? (c : Char) : Option Nat :=
  if '0' ≤ c ∧ c ≤ '9' then some (c.toNat - 48) else none

/-- The decimal digits the text starts with, and the text after them. -/
def scanDigits : List Char → List Nat × List Char
  | [] => ([], [])
  | c :: rest =>
    match digitValue? c with
    | none => ([], c :: rest)
    | some d => let (ds, rest) := scanDigits rest; (d :: ds, rest)

/-- The fault of a number that needs a digit where the text goes on with `rest`. -/
def missingDigit : (rest : List Char) → Fault
  | [] => .truncated
  | _ :: _ => .malformed

/-- Scans the exponent of a number, if there is one. -/
def scanExponent : List Char → Except Fault (Option (Bool × List Nat) × List Char)
  | [] => .ok (none, [])
  | c :: rest =>
    if c = 'e' ∨ c = 'E' then
      let (negative, rest) : Bool × List Char := match rest with
        | [] => (false, [])
        | s :: after => if s = '-' then (true, after) else if s = '+' then (false, after)
          else (false, s :: after)
      match scanDigits rest with
      | ([], rest) => .error (missingDigit rest)
      | (ds, rest) => .ok (some (negative, ds), rest)
    else .ok (none, c :: rest)

/-- Scans the fraction of a number, if there is one. -/
def scanFraction : List Char → Except Fault (List Nat × List Char)
  | [] => .ok ([], [])
  | c :: rest =>
    if c = '.' then
      match scanDigits rest with
      | ([], rest) => .error (missingDigit rest)
      | (ds, rest) => .ok (ds, rest)
    else .ok ([], c :: rest)

/-- Scans the digits before the point: a zero stands alone. -/
def scanWhole (text : List Char) : Except Fault (List Nat × List Char) :=
  match scanDigits text with
  | ([], rest) => .error (missingDigit rest)
  | (0 :: _ :: _, _) => .error .malformed
  | (ds, rest) => .ok (ds, rest)

/-- Scans a number from behind its sign. -/
def scanNumeral (negative : Bool) (text : List Char) : Except Fault (Numeral × List Char) := do
  let (whole, text) ← scanWhole text
  let (fraction, text) ← scanFraction text
  let (exponent, text) ← scanExponent text
  return (⟨negative, whole, fraction, exponent⟩, text)

/-! ### Tokens -/

/-- A token of a document. -/
inductive Token where
  | beginArray
  | endArray
  | beginObject
  | endObject
  | comma
  | colon
  | null
  | bool (b : Bool)
  | number (n : Numeral)
  | text (t : Quoted)
  /-- A number that breaks off. -/
  | brokenNumber (fault : Fault)
  /-- Anything else no value starts with. -/
  | broken (fault : Fault)
  deriving DecidableEq, Repr

/-- The fault of a literal whose remaining letters are `word`, if it has one, and the text
after it. -/
def scanWord : (word text : List Char) → Option Fault × List Char
  | [], text => (none, text)
  | _ :: _, [] => (some .truncated, [])
  | w :: word, c :: text => if w = c then scanWord word text else (some .malformed, text)

/-- The token of a literal with the given remaining letters. -/
def literal (token : Token) (word text : List Char) : Token × List Char :=
  match scanWord word text with
  | (none, rest) => (token, rest)
  | (some fault, rest) => (.broken fault, rest)

/-- The token of a number. -/
def numberToken (negative : Bool) (text : List Char) : Token × List Char :=
  match scanNumeral negative text with
  | .ok (n, rest) => (.number n, rest)
  | .error fault => (.brokenNumber fault, [])

/-- The token that starts with the character `c`, and the text after it. -/
def scanToken (c : Char) (rest : List Char) : Token × List Char :=
  if c = '[' then (.beginArray, rest)
  else if c = ']' then (.endArray, rest)
  else if c = '\x7b' then (.beginObject, rest)
  else if c = '\x7d' then (.endObject, rest)
  else if c = ',' then (.comma, rest)
  else if c = ':' then (.colon, rest)
  else if c = '"' then let s := scanText rest; (.text s.quoted, s.rest)
  else if c = 'n' then literal .null ['u', 'l', 'l'] rest
  else if c = 't' then literal (.bool true) ['r', 'u', 'e'] rest
  else if c = 'f' then literal (.bool false) ['a', 'l', 's', 'e'] rest
  else if c = '-' then numberToken true rest
  else if (digitValue? c).isSome then numberToken false (c :: rest)
  else (.broken .malformed, rest)

/-- Blanks between tokens. -/
def isBlank (c : Char) : Bool := c = ' ' || c = '\n' || c = '\t' || c = '\r'

/-- The tokens of a text, looking at no more than `fuel` characters and tokens. -/
def lexWith : (fuel : Nat) → List Char → List Token
  | 0, _ => []
  | _ + 1, [] => []
  | fuel + 1, c :: rest =>
    if isBlank c then lexWith fuel rest
    else let (token, rest) := scanToken c rest; token :: lexWith fuel rest

/-- The tokens of a text. -/
def lex (text : List Char) : List Token := lexWith text.length text

end Pacing.Json
