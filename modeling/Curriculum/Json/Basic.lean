import Curriculum.Number.Double

/-! JSON values, with whole numbers and binary64 numbers apart and the fields of an object in order. -/

namespace Curriculum

inductive Json
  | null
  | bool (b : Bool)
  | int (n : Int)
  | float (x : Double)
  | str (s : String)
  | arr (items : List Json)
  | obj (fields : List (String × Json))

namespace Json

instance : Inhabited Json := ⟨.null⟩

/-- The value of a field of an object; other values have no fields. -/
def field? (key : String) : Json → Option Json
  | .obj fields => fields.lookup key
  | _ => none

/-- Whether the value counts as absent where a default applies: null, false, zero and whatever is
    empty. -/
def isVacant : Json → Bool
  | .null => true
  | .bool b => !b
  | .int n => n = 0
  | .float (.finite _ significand _) => significand = 0
  | .float _ => false
  | .str s => s.isEmpty
  | .arr items => items.isEmpty
  | .obj fields => fields.isEmpty

def isCompound : Json → Bool
  | .arr _ | .obj _ => true
  | _ => false

/-- A number as a JSON value: a whole one as an integer. -/
def ofDouble (x : Double) : Json :=
  match x.integer? with
  | some n => .int n
  | none => .float x

def ofText? : Option String → Json
  | some s => .str s
  | none => .null

def ofTexts (texts : List String) : Json := .arr (texts.map .str)

end Json
end Curriculum
