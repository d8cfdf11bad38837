import Curriculum.Json.Literal
import Curriculum.OrderedMap
import Curriculum.Requirement.Reading

/-! Which courses a student may take, from the requirement texts of all of them. -/

namespace Curriculum

/-- The requirement text of each course; some have none. -/
abbrev Expressions := OrderedMap (Option String)

namespace Expressions

/-- The requirement texts in values: null and NaN are none, a value that is no text has its text. -/
def ofValues (m : OrderedMap Json) : Expressions :=
  m.mapValues fun
    | .null | .float .nan => none
    | v => some v.text

/-- The requirement texts in values where whatever is empty or zero is none as well. -/
def ofPresent (m : OrderedMap Json) : Expressions :=
  m.mapValues fun v => if v.isVacant then none else some v.text

def textOf (m : Expressions) (id : String) : String :=
  ((m.get? id).getD none).getD ""

end Expressions

/-! ### Eligibility -/

section
variable {σ : Type} (read : String → Reading σ Requirement) (done : String → Bool)

/-- Whether a student may take a course with the given requirement text. A text that states nothing is not
    even read. -/
def isEligible (text : Option String) : Reading σ Bool :=
  match text with
  | some s => if Requirement.isStated s then return (← read s).holds done else return true
  | none => return true

/-- The eligibility for each of a list of courses, in order. -/
def eligibilityOf : List (String × Option String) → Reading σ (List (String × Bool))
  | [] => return []
  | (id, text) :: rest => do
    let eligible ← isEligible read done text
    return (id, eligible) :: (← eligibilityOf rest)

/-- The eligibility for every course of a map, in its order. -/
def eligibility (expressions : Expressions) : Reading σ (List (String × Bool)) :=
  eligibilityOf read done expressions.entries

end

end Curriculum
