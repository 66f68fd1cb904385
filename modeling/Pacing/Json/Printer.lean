import Pacing.Json.Basic

/-!
# Writing documents

The compact text of a document: no blanks, members in the order of the list, and only the
escapes that are needed. Control characters without an escape of their own are written with
four hexadecimal digits; everything else, the slash included, stands for itself.
-/

namespace Pacing.Json

/-- A lower-case hexadecimal digit. -/
def hexDigit (n : Nat) : Char := Nat.digitChar (n % 16)

/-- A character as it is written inside a string. -/
def escapeChar (c : Char) : List Char :=
  if c = '"' then ['\\', '"']
  else if c = '\\' then ['\\', '\\']
  else if c.toNat = 8 then ['\\', 'b']
  else if c.toNat = 12 then ['\\', 'f']
  else if c = '\n' then ['\\', 'n']
  else if c = '\r' then ['\\', 'r']
  else if c = '\t' then ['\\', 't']
  else if c.toNat < 32 then ['\\', 'u', '0', '0', hexDigit (c.toNat / 16), hexDigit c.toNat]
  else [c]

/-- A string between quotes. -/
def quote (s : String) : List Char := '"' :: (s.toList.flatMap escapeChar ++ ['"'])

/-- A number in text. A double that is not finite has none and is written as `null`. -/
def Number.print : Number → String
  | .int n => toString n
  | .float d => d.text?.getD "null"

mutual

/-- The characters of a document's text. -/
def chars : Json → List Char
  | .null => ['n', 'u', 'l', 'l']
  | .bool true => ['t', 'r', 'u', 'e']
  | .bool false => ['f', 'a', 'l', 's', 'e']
  | .number n => n.print.toList
  | .string s => quote s
  | .array [] => ['[', ']']
  | .array (v :: vs) => '[' :: (chars v ++ elementChars vs)
  | .object [] => ['\x7b', '\x7d']
  | .object ((k, v) :: rest) => '\x7b' :: (quote k ++ ':' :: (chars v ++ memberChars rest))

/-- The elements after the first one, each with the comma before it, and the closing bracket. -/
def elementChars : List Json → List Char
  | [] => [']']
  | v :: vs => ',' :: (chars v ++ elementChars vs)

/-- The members after the first one, each with the comma before it, and the closing bracket. -/
def memberChars : List (String × Json) → List Char
  | [] => ['\x7d']
  | (k, v) :: rest => ',' :: (quote k ++ ':' :: (chars v ++ memberChars rest))

end

/-- The compact text of a document. -/
def print (value : Json) : String := String.ofList (chars value)

theorem print_toList (value : Json) : (print value).toList = chars value := by
  simp [print]

end Pacing.Json
