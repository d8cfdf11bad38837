import Curriculum.Json.Basic
import Curriculum.OrderedMap

/-! How a student stands: the set of completed courses, or a status for each course. Only a completed
    course counts; a course that is not mentioned does not. -/

namespace Curriculum

inductive CourseStatus
  | completed
  | inProgress
  | planned
  | failed
  | unknown
  deriving DecidableEq, Repr

namespace CourseStatus

def all : List CourseStatus := [.completed, .inProgress, .planned, .failed, .unknown]

def name : CourseStatus → String
  | .completed => "completed"
  | .inProgress => "in_progress"
  | .planned => "planned"
  | .failed => "failed"
  | .unknown => "unknown"

/-- Whether a value is the name of the given status. -/
def isNamedBy (status : CourseStatus) : Json → Bool
  | .str s => s = status.name
  | _ => false

def isName (v : Json) : Bool := all.any (·.isNamedBy v)

end CourseStatus

inductive Standing
  | completed (ids : List String)
  | statuses (map : OrderedMap Json)

namespace Standing

def has : Standing → String → Bool
  | .completed ids, id => ids.contains id
  | .statuses map, id => (map.get? id).any CourseStatus.completed.isNamedBy

end Standing
end Curriculum
