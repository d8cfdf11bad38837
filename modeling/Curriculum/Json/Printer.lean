import Curriculum.Json.Basic
import Curriculum.Number.Shortest
import Curriculum.Text.Quoted

/-! JSON text in ASCII: on one line, or indented by two spaces a level. -/

namespace Curriculum.Json

/-- A code unit after a backslash, in four digits. -/
def escapeUnit (n : Nat) : List Char :=
  '\\' :: 'u' :: Text.hexDigits 4 n

/-- How one character stands in a JSON string. Beyond the basic plane it takes two code units. -/
def escapeChar (c : Char) : List Char :=
  if c = '"' || c = '\\' then ['\\', c]
  else if c = '\n' then ['\\', 'n']
  else if c = '\r' then ['\\', 'r']
  else if c = '\t' then ['\\', 't']
  else if c = '\x08' then ['\\', 'b']
  else if c = '\x0c' then ['\\', 'f']
  else if c.toNat < 0x20 || (0x7f ≤ c.toNat && c.toNat < 0x10000) then escapeUnit c.toNat
  else if c.toNat < 0x7f then [c]
  else
    let n := c.toNat - 0x10000
    escapeUnit (0xd800 + n / 0x400) ++ escapeUnit (0xdc00 + n % 0x400)

def escaped (s : String) : String :=
  String.ofList ('"' :: s.toList.flatMap escapeChar ++ ['"'])

/-- A number as JSON text; the values that JSON lacks are named. -/
def numberText : Double → String
  | .nan => "NaN"
  | .infinite negative => if negative then "-Infinity" else "Infinity"
  | x => x.text

mutual

def render : Json → String
  | .null => "null"
  | .bool b => if b then "true" else "false"
  | .int n => toString n
  | .float x => numberText x
  | .str s => escaped s
  | .arr items => "[" ++ ",".intercalate (renderItems items) ++ "]"
  | .obj fields => "\x7b" ++ ",".intercalate (renderFields fields) ++ "\x7d"

def renderItems : List Json → List String
  | [] => []
  | item :: rest => render item :: renderItems rest

def renderFields : List (String × Json) → List String
  | [] => []
  | (key, value) :: rest => (escaped key ++ ":" ++ render value) :: renderFields rest

end

/-- Parts between brackets, one a line, two spaces further in than the brackets; no parts, no lines. -/
def block (depth : Nat) (opening closing : String) : List String → String
  | [] => opening ++ closing
  | parts =>
    let margin (n : Nat) := "\n" ++ String.ofList (List.replicate (2 * n) ' ')
    opening ++ margin (depth + 1) ++ ("," ++ margin (depth + 1)).intercalate parts ++ margin depth ++ closing

mutual

/-- The value over several lines, as it stands at the given depth. -/
def indented (depth : Nat) : Json → String
  | .arr items => block depth "[" "]" (indentedItems (depth + 1) items)
  | .obj fields => block depth "\x7b" "\x7d" (indentedFields (depth + 1) fields)
  | .null => "null"
  | .bool b => if b then "true" else "false"
  | .int n => toString n
  | .float x => numberText x
  | .str s => escaped s

def indentedItems (depth : Nat) : List Json → List String
  | [] => []
  | item :: rest => indented depth item :: indentedItems depth rest

def indentedFields (depth : Nat) : List (String × Json) → List String
  | [] => []
  | (key, value) :: rest => (escaped key ++ ": " ++ indented depth value) :: indentedFields depth rest

end

end Curriculum.Json
