import Curriculum.Json.Literal
import Curriculum.Requirement.Basic

/-! Trees under construction, in which some leaf may be a value that is no requirement. -/

namespace Curriculum

/-- A tree built without any check. -/
inductive Draft
  | foreign (value : Json)
  | nothing
  | course (id : String)
  | both (left right : Draft)
  | either (left right : Draft)

namespace Draft

/-- The foreign value that stops the work on a draft. -/
structure Foreign where
  value : Json

def Foreign.message (f : Foreign) : String :=
  "Not a prerequisite AST node: " ++ f.value.literal

/-- The requirement of a draft, or its leftmost foreign value. -/
def toRequirement : Draft → Except Foreign Requirement
  | .foreign value => .error ⟨value⟩
  | .nothing => .ok .nothing
  | .course id => .ok (.course id)
  | .both l r => do return .both (← l.toRequirement) (← r.toRequirement)
  | .either l r => do return .either (← l.toRequirement) (← r.toRequirement)

def courseIds : Draft → IdSet
  | .foreign _ | .nothing => ∅
  | .course id => .singleton id
  | .both l r | .either l r => l.courseIds ∪ r.courseIds

end Draft
end Curriculum
