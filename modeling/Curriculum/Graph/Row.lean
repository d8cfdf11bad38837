import Curriculum.Json.Literal
import Curriculum.Number.Numeral

/-! Rows of a course table. A table comes as JSON objects or as text; either way a row has four trimmed
    texts in the end. -/

namespace Curriculum.Graph

/-- A row of a course table, trimmed. -/
structure Row where
  courseId : String
  name : String
  credits : String
  expression : String
  deriving DecidableEq, Repr

/-! ### Cells -/

/-- The value in a cell; null and NaN are as good as no value. -/
def cell? (column : String) (row : Json) : Option Json :=
  match row.field? column with
  | none | some .null | some (.float .nan) => none
  | some v => some v

def asDouble? : Json → Option Double
  | .int n => some (.ofInt n)
  | .float x => some x
  | _ => none

/-- Whether a cell keeps a column from being whole: it is no whole number. -/
def isGap : Option Json → Bool
  | some (.int _) => false
  | _ => true

/-- The texts of the cells of one column. A column is of one kind: where its values are all numbers, and
    one is not whole or missing, all are written as binary64 numbers. -/
def columnTexts (cells : List (Option Json)) : List (Option String) :=
  let numeric := cells.all fun c => c.all fun v => (asDouble? v).isSome
  if numeric && cells.any isGap then cells.map fun c => c.bind fun v => (asDouble? v).map Double.text
  else cells.map fun c => c.map Json.text

/-- The texts of the column under a name, trimmed; a missing cell has the default text. A table whose
    first row is no object has no columns. -/
def column (rows : List Json) (default : String) (name : String) : List String :=
  let cells := match rows with
    | .obj _ :: _ => rows.map (cell? name)
    | _ => rows.map fun _ => none
  (columnTexts cells).map fun text => Text.trim (text.getD default)

namespace Row

/-- The row of four texts; blank credits are zero. -/
def ofTexts (courseId name credits expression : String) : Row :=
  let credits := Text.trim credits
  ⟨Text.trim courseId, Text.trim name, if credits.isEmpty then "0" else credits, Text.trim expression⟩

def ofJson (rows : List Json) : List Row :=
  let ids := column rows "" "course_id"
  let names := column rows "" "course_name"
  let credits := column rows "0" "credits"
  let expressions := column rows "" "prereq_expression"
  (ids.zip (names.zip (credits.zip expressions))).map fun (id, name, credits, expression) =>
    ofTexts id name credits expression

end Row

/-! ### Credits -/

/-- The number that a text of credits writes, in plain digits. A power of ten beyond `308` over the last
    digit is too large, as is a number beyond the binary64 range; infinity has to be named. -/
def readCredits? (text : String) : Option Double :=
  let cs := text.toList
  match Numeral.infinity? cs with
  | some x => some x
  | none =>
    match Decimal.read? cs with
    | some d =>
      match d.toDouble with
      | .finite negative significand exponent =>
        if 308 < d.exponent then none else some (.finite negative significand exponent)
      | _ => none
    | none => none

/-- The credits of a row, if they are a number that is not negative. -/
def Row.credits? (r : Row) : Option Double :=
  (readCredits? r.credits).filter fun x => !x.isNegative

end Curriculum.Graph
