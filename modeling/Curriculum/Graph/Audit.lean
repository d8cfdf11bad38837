import Curriculum.Json.Literal
import Curriculum.Json.Membership
import Curriculum.Requirement.Parser
import Curriculum.Standing
import Curriculum.Text.Blank

/-! The audit of a graph that comes as a JSON value: everything about it that is not as it should be, in
    the order in which it stands. References are compared with the ids of the nodes, and a reference that
    is an array or an object cannot be compared at all: it stops the audit. -/

namespace Curriculum.Graph

/-! ### Faults -/

/-- The lists of a graph. -/
inductive Section
  | nodes
  | edges
  | rules
  deriving DecidableEq, Repr

def Section.name : Section → String
  | .nodes => "nodes"
  | .edges => "edges"
  | .rules => "prereqExpressions"

/-- What may be wrong with a graph, or with the item of a list at an index. -/
inductive Fault
  | graphNotObject
  | badGraphId
  | notArray (list : Section)
  | notObject (list : Section) (index : Nat)
  | badNodeId (index : Nat)
  | duplicateNodeId (index : Nat) (id : String)
  | badNodeType (index : Nat)
  | badCredits (index : Nat)
  | badStatus (index : Nat)
  | danglingSource (index : Nat)
  | danglingTarget (index : Nat)
  | badGroupingId (index : Nat)
  | danglingCourse (index : Nat)
  | badExpression (index : Nat) (error : SyntaxError)
  | unknownCourses (index : Nat) (ids : List String)
  deriving DecidableEq, Repr

def nodeTypes : List String := ["course", "group", "note"]

def Section.item (list : Section) (index : Nat) : String :=
  list.name ++ "[" ++ toString index ++ "]"

def Fault.message : Fault → String
  | .graphNotObject => "graph must be an object"
  | .badGraphId => "id must be a non-empty string"
  | .notArray list => list.name ++ " must be an array"
  | .notObject list i => list.item i ++ " must be an object"
  | .badNodeId i => Section.nodes.item i ++ ".id must be a non-empty string"
  | .duplicateNodeId i id => Section.nodes.item i ++ ".id duplicates " ++ id
  | .badNodeType i => Section.nodes.item i ++ ".nodeType must be one of " ++ (Json.ofTexts nodeTypes).literal
  | .badCredits i => Section.nodes.item i ++ ".credits must be a non-negative number"
  | .badStatus i =>
    Section.nodes.item i ++ ".status must be one of " ++ (Json.ofTexts (CourseStatus.all.map (·.name))).literal
  | .danglingSource i => Section.edges.item i ++ ".source must reference an existing node id"
  | .danglingTarget i => Section.edges.item i ++ ".target must reference an existing node id"
  | .badGroupingId i => Section.edges.item i ++ ".groupingId must be a string"
  | .danglingCourse i => Section.rules.item i ++ ".courseId must reference an existing node id"
  | .badExpression i e => Section.rules.item i ++ ".expression is invalid: " ++ e.text
  | .unknownCourses i ids =>
    Section.rules.item i ++ ".expression references unknown course ids: " ++ ", ".intercalate ids

/-! ### Comparing fields with ids -/

/-- Whether the value of a field, or null where it is absent, is one of the given texts. -/
def fieldIsAmong (texts : List String) (field : String) (v : Json) : Except Incomparable Bool :=
  isAmong texts ((v.field? field).getD .null)

/-! ### Nodes -/

/-- Whether a value may be the credits of a node: a number that is not negative; null is no number. -/
def isCredits : Json → Bool
  | .int n => 0 ≤ n
  | .float x => !x.isNegative
  | _ => false

/-- Whether an optional field is as it should be; null is as good as absent. -/
def optionalField (field : String) (ok : Json → Bool) (v : Json) : Bool :=
  match v.field? field with
  | none | some .null => true
  | some value => ok value

/-- The id of a node: a text that is not blank. -/
def nodeId? (v : Json) : Option String :=
  match v.field? "id" with
  | some (.str id) => if (Text.trim id).isEmpty then none else some id
  | _ => none

/-- What is wrong with a node that has an id, given the ids before it. A node without a type is a
    course. -/
def nodeFaults (ids : List String) (i : Nat) (id : String) (v : Json) : Except Incomparable (List Fault) := do
  let typed ← isAmong nodeTypes ((v.field? "nodeType").getD (.str "course"))
  return (if ids.contains id then [.duplicateNodeId i id] else []) ++
    (if typed then [] else [.badNodeType i]) ++
    (if optionalField "credits" isCredits v then [] else [.badCredits i]) ++
    (if optionalField "status" CourseStatus.isName v then [] else [.badStatus i])

/-- The ids of the nodes from an index on, after the ids before them, and what is wrong with the nodes. -/
def auditNodes (ids : List String) (i : Nat) : List Json → Except Incomparable (List String × List Fault)
  | [] => .ok (ids, [])
  | .obj fields :: rest => do
    match nodeId? (.obj fields) with
    | none =>
      let (ids, faults) ← auditNodes ids (i + 1) rest
      return (ids, .badNodeId i :: faults)
    | some id =>
      let here ← nodeFaults ids i id (.obj fields)
      let (ids, faults) ← auditNodes (ids ++ [id]) (i + 1) rest
      return (ids, here ++ faults)
  | _ :: rest => do
    let (ids, faults) ← auditNodes ids (i + 1) rest
    return (ids, .notObject .nodes i :: faults)

/-! ### Edges -/

def edgeFaults (ids : List String) (i : Nat) : Json → Except Incomparable (List Fault)
  | .obj fields => do
    let source ← fieldIsAmong ids "source" (.obj fields)
    let target ← fieldIsAmong ids "target" (.obj fields)
    let isText : Json → Bool
      | .str _ => true
      | _ => false
    return (if source then [] else [.danglingSource i]) ++ (if target then [] else [.danglingTarget i]) ++
      (if optionalField "groupingId" isText (.obj fields) then [] else [.badGroupingId i])
  | _ => .ok [.notObject .edges i]

/-! ### Rules -/

/-- The requirement text of a rule: empty for a value that is empty or zero, else the text of the value. -/
def ruleText (v : Json) : String :=
  match v.field? "expression" with
  | some value => if value.isVacant then "" else value.text
  | none => ""

def ruleFaults (ids : List String) (i : Nat) : Json → Except Incomparable (List Fault)
  | .obj fields => do
    let course ← fieldIsAmong ids "courseId" (.obj fields)
    let expression := match Requirement.parse (ruleText (.obj fields)) with
      | .error e => [.badExpression i e]
      | .ok r =>
        let unknown := (r.unknownIds fun id => ids.contains id).toList
        if unknown.isEmpty then [] else [.unknownCourses i unknown]
    return (if course then [] else [.danglingCourse i]) ++ expression
  | _ => .ok [.notObject .rules i]

/-! ### Graphs -/

/-- What is wrong with the items of a list, from an index on. -/
def auditItems (faults : Nat → Json → Except Incomparable (List Fault)) (i : Nat) :
    List Json → Except Incomparable (List Fault)
  | [] => .ok []
  | item :: rest => do
    let here ← faults i item
    return here ++ (← auditItems faults (i + 1) rest)

/-- The items of a list of the graph; a value that is no array has none. -/
def itemsOf (list : Section) (v : Json) : List Json :=
  match v.field? list.name with
  | some (.arr items) => items
  | _ => []

/-- What is wrong with a list of the graph as such. The list of rules may be missing. -/
def arrayFaults (list : Section) (v : Json) : List Fault :=
  match list, v.field? list.name with
  | _, some (.arr _) => []
  | .rules, none | .rules, some .null => []
  | list, _ => [.notArray list]

def graphIdFaults (v : Json) : List Fault :=
  match v.field? "id" with
  | some (.str id) => if id.isEmpty then [.badGraphId] else []
  | _ => [.badGraphId]

/-- Everything that is wrong with a graph. -/
def audit : Json → Except Incomparable (List Fault)
  | .obj fields => do
    let g := Json.obj fields
    let (ids, nodes) ← auditNodes [] 0 (itemsOf .nodes g)
    let edges ← auditItems (edgeFaults ids) 0 (itemsOf .edges g)
    let rules ← auditItems (ruleFaults ids) 0 (itemsOf .rules g)
    return graphIdFaults g ++ arrayFaults .nodes g ++ arrayFaults .edges g ++ nodes ++ edges ++
      arrayFaults .rules g ++ rules
  | _ => .ok [.graphNotObject]

def auditReport (faults : List Fault) : Json :=
  .obj [("valid", .bool faults.isEmpty), ("errors", .ofTexts (faults.map (·.message)))]

end Curriculum.Graph
