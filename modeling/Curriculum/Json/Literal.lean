import Curriculum.Json.Basic
import Curriculum.Number.Shortest
import Curriculum.Text.Quoted

/-! The text that stands for a value where a text is wanted: a string is its own text, and everything
    else is written as a literal. -/

namespace Curriculum.Json

mutual

/-- The literal for a value: strings are quoted, also inside arrays and objects. -/
def literal : Json → String
  | .null => "None"
  | .bool b => if b then "True" else "False"
  | .int n => toString n
  | .float x => x.text
  | .str s => Text.quoted s
  | .arr items => "[" ++ ", ".intercalate (literals items) ++ "]"
  | .obj fields => "\x7b" ++ ", ".intercalate (fieldLiterals fields) ++ "\x7d"

def literals : List Json → List String
  | [] => []
  | item :: rest => literal item :: literals rest

/-- The literals of several fields, each key quoted before its value. -/
def fieldLiterals : List (String × Json) → List String
  | [] => []
  | (key, value) :: rest => (Text.quoted key ++ ": " ++ literal value) :: fieldLiterals rest

end

def text : Json → String
  | .str s => s
  | v => literal v

end Curriculum.Json
