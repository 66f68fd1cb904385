import Pacing.Cli.Alphanumeric

/-!
# Environment files

An environment is a list of variables. A file can add to it: lines of the form `NAME=value`,
with quotes, escapes, comments, values over several lines, and references to variables. What
the environment already has stays as it is. The first line that cannot be read ends the
loading; what came before it counts.
-/

namespace Pacing.Cli

/-- Variables and their values. -/
abbrev Environment := List (String × String)

/-- What a variable is found by: its name, an equals sign and its value. -/
def entryText (name value : String) : List Char := name.toList ++ '=' :: value.toList

/-- The value of a variable: what stands behind the name and an equals sign in the first entry
that starts with both. A name that itself holds an equals sign so finds the rest of a value. -/
def Environment.get? (env : Environment) (name : String) : Option String :=
  if name = "" then none
  else
    env.findSome? fun (key, value) =>
      ((entryText name "").isPrefixOf? (entryText key value)).map String.ofList

namespace Dotenv

/-- Blank characters. -/
def isBlank (c : Char) : Bool :=
  let n := c.toNat
  (9 ≤ n && n ≤ 13) || n = 0x20 || n = 0x85 || n = 0xA0 || n = 0x1680
    || (0x2000 ≤ n && n ≤ 0x200A) || n = 0x2028 || n = 0x2029 || n = 0x202F || n = 0x205F
    || n = 0x3000

/-- The text without blanks at its start. -/
def trimStart (text : List Char) : List Char := text.dropWhile isBlank

/-- The text without blanks at its end. -/
def trimEnd (text : List Char) : List Char := (text.reverse.dropWhile isBlank).reverse

/-! ### Lines

A line of the file goes on with the next one while a quote is open, after an escape, or after
blanks. A comment ends it. -/

/-- Where in a line the reader is. -/
inductive Scan where
  | plain
  | escape
  | single
  | singleEscape
  | double
  | doubleEscape
  | blank
  deriving DecidableEq, Repr

/-- The state after a character outside of quotes. -/
def Scan.outside (c : Char) : Scan :=
  if c = '\\' then .escape
  else if c = '"' then .double
  else if c = '\'' then .single
  else .plain

/-- The state after a character. A comment sign after blanks ends the scan; it is handled by
`scanLine`. -/
def Scan.next (s : Scan) (c : Char) : Scan :=
  match s with
  | .blank => Scan.outside c
  | .escape => .plain
  | .plain =>
    if isBlank c && c != '\n' && c != '\r' then .blank else Scan.outside c
  | .double => if c = '\\' then .doubleEscape else if c = '"' then .plain else .double
  | .doubleEscape => .double
  | .single => if c = '\\' then .singleEscape else if c = '\'' then .plain else .single
  | .singleEscape => .single

/-- Scans a physical line: what comes before a comment if there is one, and the state at the
end otherwise. -/
def scanLine : Scan → List Char → (before : List Char) → Except (List Char) Scan
  | s, [], _ => .ok s
  | s, c :: rest, before =>
    if s = .blank ∧ c = '#' then .error before.reverse
    else scanLine (s.next c) rest (c :: before)

/-- Drops the end of a line. -/
def dropLineEnd (line : List Char) : List Char :=
  match line.reverse with
  | '\n' :: '\r' :: rest => rest.reverse
  | '\n' :: rest => rest.reverse
  | _ => line

/-- Puts physical lines together to logical ones. `pending` is what the present logical line
consists of so far; one that is still open at the end of the file is dropped. -/
def logicalLines : (pending : List Char) → Scan → (physical : List (List Char)) →
    List (List Char)
  | _, _, [] => []
  | pending, s, line :: rest =>
    if (trimStart (pending ++ line)).head? = some '#' then logicalLines [] .plain rest
    else
      match scanLine s line [] with
      | .error before => (pending ++ before) :: logicalLines [] .plain rest
      | .ok .plain => dropLineEnd (pending ++ line) :: logicalLines [] .plain rest
      | .ok s => logicalLines (pending ++ line) s rest

/-! ### Values -/

/-- A reference that is being read: whether its name is in braces, and the name so far, last
character first. -/
structure Reference where
  braced : Bool
  name : List Char

/-- The state of reading a value; the output has its last character first. -/
structure Value where
  output : List Char
  single : Bool
  double : Bool
  escaped : Bool
  /-- Only a comment may follow. -/
  ending : Bool
  reference : Option Reference

/-- The value of a variable that may not be set. -/
def referred (env : Environment) (name : List Char) : List Char :=
  ((env.get? (String.ofList name.reverse)).getD "").toList

namespace Value

/-- A value of which nothing has been read. -/
def start : Value := ⟨[], false, false, false, false, none⟩

/-- Adds a character. -/
def push (v : Value) (c : Char) : Value := { v with output := c :: v.output }

/-- Puts the value of a reference in its place. -/
def resolve (env : Environment) (v : Value) : Value :=
  match v.reference with
  | none => v
  | some ref =>
    { v with output := (referred env ref.name).reverse ++ v.output, reference := none }

/-- Starts a reference. -/
def refer (v : Value) : Value := { v with reference := some ⟨false, []⟩ }

/-- The value after a character of a reference. The name ends at the first character that
cannot be part of it; that character then stands for itself. -/
def stepReference (env : Environment) (v : Value) (ref : Reference) (c : Char) : Value :=
  if Alphanumeric.isAlphanumeric c then
    { v with reference := some { ref with name := c :: ref.name } }
  else if ref.braced then
    if c = '\x7d' then v.resolve env
    else { v with reference := some { ref with name := c :: ref.name } }
  else if c = '\x7b' ∧ ref.name = [] then { v with reference := some ⟨true, []⟩ }
  else if c = '$' then (v.resolve env).refer
  else (v.resolve env).push c

/-- The value after an escaped character, if it may be escaped. -/
def stepEscaped (v : Value) (c : Char) : Option Value :=
  let v := { v with escaped := false }
  if c ∈ ['\\', '\'', '"', '$', ' '] then some (v.push c)
  else if c = 'n' then some (v.push '\n')
  else none

/-- The value after a character, if it may stand there. -/
def step (env : Environment) (v : Value) (c : Char) : Option Value :=
  if v.escaped then v.stepEscaped c
  else if v.single then
    if c = '\'' then some { v with single := false } else some (v.push c)
  else
    match v.reference with
    | some ref => some (v.stepReference env ref c)
    | none =>
      if c = '$' then some v.refer
      else if v.double then
        if c = '"' then some { v with double := false }
        else if c = '\\' then some { v with escaped := true }
        else some (v.push c)
      else if c = '\'' then some { v with single := true }
      else if c = '"' then some { v with double := true }
      else if c = '\\' then some { v with escaped := true }
      else if c = ' ' ∨ c = '\t' then some { v with ending := true }
      else some (v.push c)

/-- The value at its end, if nothing is left open. -/
def finish (env : Environment) (v : Value) : Option String :=
  if v.single || v.double || v.reference.any (·.braced) then none
  else some (String.ofList (v.resolve env).output.reverse)

/-- Reads a value. -/
def read (env : Environment) : Value → List Char → Option String
  | v, [] => v.finish env
  | v, c :: rest =>
    if v.ending then
      if c = ' ' ∨ c = '\t' then read env v rest
      else if c = '#' then v.finish env
      else none
    else
      match v.step env c with
      | some v => read env v rest
      | none => none

end Value

/-! ### Assignments -/

/-- A character a name starts with. -/
def startsName (c : Char) : Bool := c.isAlpha || c = '_'

/-- A character of a name. -/
def isNameChar (c : Char) : Bool := c.isAlphanum || c = '_' || c = '.'

/-- The name the text starts with, and the text after it and the blanks behind it. -/
def readName (text : List Char) : Option (List Char × List Char) :=
  match text with
  | [] => none
  | c :: _ =>
    if startsName c then some (text.takeWhile isNameChar, trimStart (text.dropWhile isNameChar))
    else none

/-- The text behind an equals sign. -/
def readEquals (text : List Char) : Option (List Char) :=
  match text with
  | '=' :: rest => some rest
  | _ => none

/-- The name of an assignment and the text behind its equals sign. The word `export` before the
name is passed over, unless it is itself the name. -/
def readTarget (text : List Char) : Option (List Char × List Char) := do
  let (name, rest) ← readName text
  match readEquals rest with
  | some value => return (name, value)
  | none =>
    if name = ['e', 'x', 'p', 'o', 'r', 't'] then
      let (name, rest) ← readName rest
      return (name, ← readEquals rest)
    else none

/-- A line without content. -/
def isVoid (text : List Char) : Bool :=
  match text with
  | [] => true
  | c :: _ => c = '#'

/-- Reads an assignment; the outer `none` is a line that cannot be read, the inner one a line
without an assignment. -/
def readLine (env : Environment) (line : List Char) : Option (Option (String × String)) :=
  let text := trimStart (trimEnd line)
  if isVoid text then some none
  else do
    let (name, rest) ← readTarget text
    let rest := trimStart rest
    let value ← if isVoid rest then some "" else Value.read env .start rest
    return some (String.ofList name, value)

/-- An assignment that cannot be made: no value can hold a null character. -/
structure Unsettable where
  name : String
  value : String
  deriving DecidableEq, Repr

/-- Adds a variable that is not there yet. -/
def define (env : Environment) (name value : String) : Except Unsettable Environment :=
  if (env.get? name).isSome then .ok env
  else if Char.ofNat 0 ∈ value.toList then .error ⟨name, value⟩
  else .ok (env ++ [(name, value)])

/-- Adds the assignments of logical lines up to the first that cannot be read. One that can be
read but not be made is an error. -/
def loadLines : Environment → List (List Char) → Except Unsettable Environment
  | env, [] => .ok env
  | env, line :: rest =>
    match readLine env line with
    | none => .ok env
    | some none => loadLines env rest
    | some (some (name, value)) => do loadLines (← define env name value) rest

/-! ### Files -/

/-- Cuts bytes into lines, each with its line feed. `line` is the present line backwards. -/
def byteLines : (line : List UInt8) → List UInt8 → List (List UInt8)
  | [], [] => []
  | line, [] => [line.reverse]
  | line, b :: rest =>
    if b = 10 then (b :: line).reverse :: byteLines [] rest else byteLines (b :: line) rest

/-- The lines as text, up to the first that is no text. -/
def decodeLines : List (List UInt8) → List (List Char)
  | [] => []
  | line :: rest =>
    match String.fromUTF8? ⟨line.toArray⟩ with
    | some text => text.toList :: decodeLines rest
    | none => []

/-- The bytes behind a byte order mark. -/
def dropMark : List UInt8 → List UInt8
  | 0xEF :: 0xBB :: 0xBF :: rest => rest
  | bytes => bytes

/-- Adds the variables of a file to an environment. -/
def load (env : Environment) (file : ByteArray) : Except Unsettable Environment :=
  loadLines env (logicalLines [] .plain (decodeLines (byteLines [] (dropMark file.toList))))

end Dotenv

end Pacing.Cli
