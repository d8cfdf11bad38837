import Curriculum.CourseId.Entry
import Curriculum.Eligibility
import Curriculum.Service.Refusal
import Curriculum.Standing

/-! What the service takes from the JSON object that a request brings. Each field has a default and a form
    that it must have. -/

namespace Curriculum.Service

/-! ### Requirements -/

/-- The requirement text; an absent one is empty. -/
def expressionIn (body : Json) : Except Refusal String :=
  match body.field? "expression" with
  | none | some .null => .ok ""
  | some (.str text) => .ok text
  | _ => .error .expressionNotText

def treeIn (body : Json) : Except Refusal Requirement :=
  match body.field? "ast" with
  | some (.obj fields) => (Requirement.ofJson (.obj fields)).mapError .treeMisshapen
  | _ => .error .treeNotObject

def optionalText? : Json → Option (Option String)
  | .str text => some (some text)
  | .null => some none
  | _ => none

def expressionsIn (body : Json) : Except Refusal Expressions :=
  match body.field? "expressions" with
  | some (.obj fields) =>
    match fields.mapM fun (id, v) => (optionalText? v).map (id, ·) with
    | some pairs => .ok (.ofList pairs)
    | none => .error .expressionsNotTexts
  | _ => .error .expressionsNotTexts

/-! ### Students -/

/-- The texts of the values that are no status, in order. -/
def unknownStatuses (values : List Json) : List String :=
  ((values.filter fun v => !CourseStatus.isName v).map Json.text).mergeSort fun a b => a ≤ b

/-- The standing that a status for each course makes. -/
def standingOfStatuses (v : Json) : Except Refusal Standing :=
  match v with
  | .obj fields =>
    let unknown := unknownStatuses (fields.map Prod.snd)
    if unknown.isEmpty then .ok (.statuses (.ofList fields)) else .error (.unknownStatuses unknown)
  | _ => .error .statusNotObject

/-- The texts of an array that holds nothing else. -/
def textsOf? (items : List Json) : Option (List String) :=
  items.mapM fun
    | .str s => some s
    | _ => none

/-- The standing of a student who has completed some courses: a list of ids, or one text with ids of the
    catalog. Ids outside the catalog are dropped from a text and blank ones from a list. -/
def standingOfCompleted (inCatalog : String → Bool) (v : Json) : Except Refusal Standing :=
  match v with
  | .str text =>
    let entry := CourseId.Entry.read inCatalog text
    if entry.invalid.isEmpty then .ok (.completed entry.valid) else .error (.invalidIds entry.invalid)
  | .arr items =>
    match textsOf? items with
    | some ids => .ok (.completed ((ids.map Text.trim).filter fun id => !id.isEmpty))
    | none => .error .completedNotIds
  | _ => .error .completedNotIds

/-- The completed courses; an absent list is empty. -/
def completedIn (inCatalog : String → Bool) (body : Json) : Except Refusal Standing :=
  standingOfCompleted inCatalog ((body.field? "completed").getD (.arr []))

/-- The statuses; where the field is absent or empty, there are none. -/
def statusesIn (body : Json) : Except Refusal Standing :=
  let status := (body.field? "status").getD .null
  standingOfStatuses (if status.isVacant then .obj [] else status)

/-- The statuses where there are any, else the completed courses. -/
def standingIn (inCatalog : String → Bool) (body : Json) : Except Refusal Standing :=
  match body.field? "status" with
  | none | some .null => completedIn inCatalog body
  | some status => standingOfStatuses status

/-! ### Courses -/

/-- The known ids, whatever they are; an absent list is empty. -/
def knownIn (body : Json) : Except Refusal (List Json) :=
  match (body.field? "known_ids").getD (.arr []) with
  | .arr items => .ok items
  | _ => .error .knownNotList

/-- The course that is asked about, trimmed. -/
def courseIn (body : Json) : Except Refusal String :=
  let v := (body.field? "course_id").getD .null
  let id := if v.isVacant then "" else Text.trim v.text
  if id.isEmpty then .error .noCourse else .ok id

/-! ### Tables -/

def isObject : Json → Bool
  | .obj _ => true
  | _ => false

/-- The rows of a course table, all of which are objects. -/
def rowsIn (body : Json) : Except Refusal (List Json) :=
  match body.field? "rows" with
  | some (.arr rows) => if rows.all isObject then .ok rows else .error .rowsNotObjects
  | _ => .error .rowsNotObjects

/-- The id for a graph: the text of the field unless it is absent or empty. -/
def graphIdIn (body : Json) : String :=
  let v := (body.field? "graph_id").getD .null
  if v.isVacant then "temp" else v.text

end Curriculum.Service
