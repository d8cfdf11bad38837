import Curriculum.Requirement.Basic

/-! The canonical text of a requirement, and the text that shows how far it is met. -/

namespace Curriculum.Requirement

/-! ### Canonical text -/

/-- How tightly a requirement holds together in text: OR least, then AND, a leaf most. -/
def binding : Requirement → Nat
  | .either .. => 1
  | .both .. => 2
  | .nothing | .course _ => 3

/-- The text where at least the given binding is needed; a looser requirement stands in parentheses. A
    right operand of the same operator is looser than its place needs, so the text tells to which side
    operators group. -/
def renderAt (needed : Nat) (r : Requirement) : String :=
  let bare := match r with
    | .nothing => "NONE"
    | .course id => id
    | .both left right => left.renderAt 2 ++ " AND " ++ right.renderAt 3
    | .either left right => left.renderAt 1 ++ " OR " ++ right.renderAt 2
  if r.binding < needed then "(" ++ bare ++ ")" else bare

/-- The canonical text, with parentheses only where they are needed. -/
def render (r : Requirement) : String := r.renderAt 1

/-! ### Progress -/

/-- The operators, where only their kind matters. -/
inductive Operator
  | and
  | or
  deriving DecidableEq, Repr

def Operator.word : Operator → String
  | .and => "AND"
  | .or => "OR"

/-- The requirement with a mark after every course, inside an operator if one is given. Parentheses stand
    around an operator inside the other one. -/
def progressIn (done : String → Bool) (parent : Option Operator) : Requirement → String
  | .nothing => "NONE"
  | .course id => id ++ if done id then " ✓" else " ✗"
  | .both left right => wrap .and (left.progressIn done (some .and)) (right.progressIn done (some .and))
  | .either left right => wrap .or (left.progressIn done (some .or)) (right.progressIn done (some .or))
where
  wrap (op : Operator) (left right : String) : String :=
    let bare := left ++ " " ++ op.word ++ " " ++ right
    if parent = none || parent = some op then bare else "(" ++ bare ++ ")"

/-- The text that shows which courses of the requirement are completed. -/
def progress (done : String → Bool) : Requirement → String
  | .nothing => "No prerequisites"
  | r => r.progressIn done none

end Curriculum.Requirement
