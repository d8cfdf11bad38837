import Curriculum.CourseId.Basic
import Curriculum.Json.Literal
import Curriculum.Requirement.Basic
import Curriculum.Text.Upper

/-! The JSON form of a requirement: an object whose `type` names the kind of tree. -/

namespace Curriculum.Requirement

def toJson : Requirement → Json
  | .nothing => .obj [("type", .str "NONE")]
  | .course id => .obj [("type", .str "COURSE"), ("id", .str id)]
  | .both left right => .obj [("type", .str "AND"), ("left", left.toJson), ("right", right.toJson)]
  | .either left right => .obj [("type", .str "OR"), ("left", left.toJson), ("right", right.toJson)]

/-- Why a JSON value is no requirement. -/
inductive ShapeError
  | notObject
  | missingId
  | invalidId (id : String)
  | tooDeep
  | unknownType (type : String)
  deriving DecidableEq, Repr

def ShapeError.message : ShapeError → String
  | .notObject => "AST node must be an object"
  | .missingId => "COURSE node requires a non-empty string id"
  | .invalidId id => "Invalid course id: " ++ Text.quoted id
  | .tooDeep => "AST nested too deeply"
  | .unknownType type => "Unknown AST node type: " ++ if type.isEmpty then "(missing)" else type

/-- The kind of tree that an object names, in capitals; a value that is no text is named by its text. -/
def kindOf (fields : List (String × Json)) : String :=
  Text.upper (((fields.lookup "type").map Json.text).getD "")

/-- The two operands under an operator, the left one read first. An absent operand is null. -/
def ofOperands (read : Json → Except ShapeError Requirement) (op : Requirement → Requirement → Requirement)
    (fields : List (String × Json)) : Except ShapeError Requirement := do
  let left ← read ((fields.lookup "left").getD .null)
  let right ← read ((fields.lookup "right").getD .null)
  return op left right

/-- The course of an object: its id is a text that is an id as it stands. -/
def ofCourse (fields : List (String × Json)) : Except ShapeError Requirement :=
  match fields.lookup "id" with
  | some (.str id) =>
    if id.isEmpty then .error .missingId
    else if CourseId.normalize? id = some id then .ok (.course id)
    else .error (.invalidId id)
  | _ => .error .missingId

/-- The requirement of a JSON value whose operators may be nested as deep as the first number says. -/
def ofJsonWithin : Nat → Json → Except ShapeError Requirement
  | room, .obj fields =>
    match kindOf fields, room with
    | "NONE", _ => .ok .nothing
    | "COURSE", _ => ofCourse fields
    | "AND", 0 | "OR", 0 => .error .tooDeep
    | "AND", room + 1 => ofOperands (ofJsonWithin room) .both fields
    | "OR", room + 1 => ofOperands (ofJsonWithin room) .either fields
    | kind, _ => .error (.unknownType kind)
  | _, _ => .error .notObject

def ofJson (v : Json) : Except ShapeError Requirement := ofJsonWithin maxDepth v

end Curriculum.Requirement
