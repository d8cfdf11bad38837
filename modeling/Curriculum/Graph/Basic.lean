import Curriculum.Json.Literal
import Curriculum.Requirement.Grouping

/-! Prerequisite graphs: courses as nodes, an edge from every prerequisite to the course that needs it,
    and the requirement texts. The edges of one alternative share a grouping id; a mandatory edge has
    none. -/

namespace Curriculum

/-! ### Grouping ids -/

/-- The id of an alternative of a course; alternatives count from one. -/
def groupingId (target : String) (index : String) : String :=
  target ++ "::g" ++ index

/-- What follows the last pair of colons, pairs being found from the left; all of it where there is
    none. -/
def afterColons : List Char → List Char → List Char
  | done, [] => done.reverse
  | _, ':' :: ':' :: rest => afterColons [] rest
  | done, c :: rest => afterColons (c :: done) rest

def groupingLabel (id : String) : String :=
  "Group " ++ String.ofList (afterColons [] id.toList)

namespace Graph

/-! ### Parts -/

structure Node where
  id : String
  title : String
  credits : Double
  deriving DecidableEq, Repr

/-- An edge from a prerequisite to a course, mandatory or in the numbered alternative. -/
structure Edge where
  source : String
  target : String
  group : Option Nat
  deriving DecidableEq, Repr

/-- The requirement text of a course of the graph. -/
structure Rule where
  courseId : String
  expression : String
  deriving DecidableEq, Repr

def Edge.groupingId? (e : Edge) : Option String :=
  e.group.map fun k => groupingId e.target (toString k)

/-- The id of an edge tells its ends and its alternative. -/
def Edge.id (e : Edge) : String :=
  e.source ++ "->" ++ e.target ++
    match e.group with
    | some k => "::g" ++ toString k
    | none => ""

/-! ### JSON forms -/

def Node.toJson (n : Node) : Json :=
  .obj [("id", .str n.id), ("nodeType", .str "course"), ("title", .str n.title), ("credits", .ofDouble n.credits)]

def Edge.toJson (e : Edge) : Json :=
  .obj ([("id", .str e.id), ("source", .str e.source), ("target", .str e.target)] ++
    match e.groupingId? with
    | some id => [("groupingId", .str id), ("label", .str (groupingLabel id))]
    | none => [])

def Rule.toJson (r : Rule) : Json :=
  .obj [("courseId", .str r.courseId), ("expression", .str r.expression)]

/-! ### Edges of a course -/

/-- The edges into a course: the mandatory ones, then the alternatives with their numbers. -/
def edgesOf (target : String) (g : Grouping) : List Edge :=
  (g.mandatory.toList.map fun source => ⟨source, target, none⟩) ++
    (g.groups.toList.zipIdx 1).flatMap fun (group, k) =>
      group.toList.map fun source => ⟨source, target, some k⟩

end Graph

structure Graph where
  id : Json
  nodes : List Graph.Node
  edges : List Graph.Edge
  rules : List Graph.Rule

def Graph.toJson (g : Graph) : Json :=
  .obj [("id", g.id), ("nodes", .arr (g.nodes.map (·.toJson))), ("edges", .arr (g.edges.map (·.toJson))),
    ("prereqExpressions", .arr (g.rules.map (·.toJson)))]

end Curriculum
