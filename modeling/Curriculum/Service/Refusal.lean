import Curriculum.Json.Membership
import Curriculum.Requirement.Clauses
import Curriculum.Requirement.Reading
import Curriculum.Requirement.Shape

/-! Why the service refuses a request, and the computations that may end that way. -/

namespace Curriculum.Service

inductive Refusal
  | bodyNotObject
  | treeNotObject
  | treeMisshapen (error : Requirement.ShapeError)
  | expressionNotText
  | expressionsNotTexts
  | statusNotObject
  | unknownStatuses (names : List String)
  | completedNotIds
  | invalidIds (ids : List String)
  | knownNotList
  | rowsNotObjects
  | noCourse
  | unreadable (error : SyntaxError)
  | tooManyClauses (error : ClauseLimit)
  deriving DecidableEq, Repr

namespace Refusal

/-- The code that tells a client of what kind a refusal is. -/
def code : Refusal → String
  | .unreadable _ => "PARSE_ERROR"
  | .tooManyClauses _ => "GROUPING_LIMIT"
  | _ => "INVALID_INPUT"

def status : Refusal → Nat
  | .tooManyClauses _ => 422
  | _ => 400

def message : Refusal → String
  | .bodyNotObject => "Request body must be valid JSON."
  | .treeNotObject => "Request body must contain an ast object."
  | .treeMisshapen error => error.message
  | .expressionNotText => "expression must be a string."
  | .expressionsNotTexts => "expressions must be an object of course id to expression."
  | .statusNotObject => "status must be an object of course id to status."
  | .unknownStatuses names => "Unknown course status: " ++ ", ".intercalate names ++ "."
  | .completedNotIds => "completed must be a list of course ids."
  | .invalidIds ids => "Invalid course ids: " ++ ", ".intercalate ids ++ "."
  | .knownNotList => "known_ids must be a list of course ids."
  | .rowsNotObjects => "rows must be a list of objects."
  | .noCourse => "course_id is required."
  | .unreadable error => error.message
  | .tooManyClauses error => error.message

/-- What a refusal tells besides its code and message. -/
def details : Refusal → List (String × Json)
  | .unreadable error => [("position", .int error.position)]
  | .tooManyClauses error => [("limit", .int error.limit)]
  | _ => []

def toJson (r : Refusal) : Json :=
  .obj [("error", .obj ([("error_code", .str r.code), ("message", .str r.message)] ++ r.details))]

end Refusal

/-! ### Handling -/

/-- Why a request has no answer: it is refused, or two values that it brings cannot be compared. -/
inductive Failure
  | refused (refusal : Refusal)
  | incomparable (cause : Incomparable)

/-- A computation of an answer. It changes a memory of type `σ` on the way, also when it fails. -/
abbrev Handling (σ : Type) := ExceptT Failure (StateM σ)

namespace Handling

variable {σ α : Type}

/-- An input that may be refused. -/
def ofInput : Except Refusal α → Handling σ α
  | .ok a => pure a
  | .error refusal => throw (.refused refusal)

/-- A comparison that may fail. -/
def ofComparison : Except Incomparable α → Handling σ α
  | .ok a => pure a
  | .error cause => throw (.incomparable cause)

/-- An expansion that may exceed its cap. -/
def ofExpansion : Except ClauseLimit α → Handling σ α
  | .ok a => pure a
  | .error limit => throw (.refused (.tooManyClauses limit))

/-- A reading of requirement texts, one of which may be unreadable. -/
def ofReading (x : Reading σ α) : Handling σ α :=
  ExceptT.mk fun memory =>
    match x.run memory with
    | (.ok a, memory) => (.ok a, memory)
    | (.error error, memory) => (.error (.refused (.unreadable error)), memory)

end Handling
end Curriculum.Service
