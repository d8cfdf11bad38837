import Curriculum.Graph.Audit
import Curriculum.Graph.Compile
import Curriculum.Plan.ChainDepth
import Curriculum.Plan.Required
import Curriculum.Requirement.Printer
import Curriculum.Service.Body

/-! The endpoints of the service: what each computes from the JSON object of a request. The inputs are
    looked at one by one, and the first that is not as it should be decides the refusal. -/

namespace Curriculum

/-! ### Answers -/

def Grouping.toJson (g : Grouping) : Json :=
  .obj [("mandatory", .ofTexts g.mandatory.toList),
    ("groups", .arr (g.groups.toList.map fun group => .ofTexts group.toList))]

def Graph.Compilation.toJson (c : Graph.Compilation) : Json :=
  .obj [("graph", c.graph.toJson), ("diagnostics", .ofTexts (c.diagnostics.map (·.message)))]

def Inconsistency.toJson (i : Inconsistency) : Json :=
  .obj [("course_id", .str i.courseId), ("prereqs_not_completed", .ofTexts i.missing.toList)]

namespace Service

/-- An answer, and a warning for the log if there is one. -/
structure Answer where
  body : Json
  warning : Option String

def Answer.plain (body : Json) : Answer := ⟨body, none⟩

def version : String := "0.1.0"

section
variable {σ : Type} (read : String → Reading σ Requirement) (cap : Option Int)

/-! ### Requirements -/

/-- The requirement that a body states in text. -/
def requirementIn (body : Json) : Handling σ Requirement := do
  .ofReading (read (← .ofInput (expressionIn body)))

/-- The tree of a requirement text, its canonical text and its ids. -/
def parse (body : Json) : Handling σ Answer := do
  let r ← requirementIn read body
  return .plain (.obj [("ast", r.toJson), ("normalized", .str r.render), ("referenced", .ofTexts r.courseIds.toList)])

def stringify (body : Json) : Handling σ Answer := do
  let r ← .ofInput (treeIn body)
  return .plain (.obj [("expression", .str r.render)])

/-- Whether a requirement is met, and the text that shows how far. -/
def evaluate (body : Json) : Handling σ Answer := do
  let r ← requirementIn read body
  let standing ← .ofInput (standingIn (r.courseIds.toList.contains ·) body)
  return .plain (.obj [("satisfied", .bool (r.holds standing.has)), ("check", .str (r.progress standing.has))])

def grouping (body : Json) : Handling σ Answer := do
  let r ← requirementIn read body
  return .plain (← Handling.ofExpansion (r.groupingWithin cap)).toJson

def validateExpression (body : Json) : Handling σ Answer := do
  let text ← .ofInput (expressionIn body)
  let known ← .ofInput (knownIn body)
  let r ← .ofReading (read text)
  let ids ← .ofComparison (textsAmong known)
  return .plain (.obj [("unknown", .ofTexts (r.unknownIds ids.contains).toList)])

/-! ### Graphs -/

/-- The warning about a graph with diagnostics. -/
def compileWarning? (c : Graph.Compilation) : Option String :=
  if c.diagnostics.isEmpty then none
  else some ("[WARN] Compiled graph with " ++ toString c.diagnostics.length ++ " diagnostic(s)")

def compile (body : Json) : Handling σ Answer := do
  let rows ← .ofInput (rowsIn body)
  let c ← .ofExpansion (Graph.compile cap (.str (graphIdIn body)) (Graph.Row.ofJson rows))
  return ⟨c.toJson, compileWarning? c⟩

def validateGraph (body : Json) : Handling σ Answer := do
  let faults ← .ofComparison (Graph.audit ((body.field? "graph").getD .null))
  return .plain (Graph.auditReport faults)

/-- Which courses a student may take, and which of the completed ones lack a prerequisite. -/
def eligibilities (body : Json) : Handling σ Answer := do
  let expressions ← .ofInput (expressionsIn body)
  let standing ← .ofInput (statusesIn body)
  let eligible ← .ofReading (eligibility read standing.has expressions)
  return .plain (.obj [("eligibility", .obj (eligible.map fun (id, b) => (id, .bool b))),
    ("inconsistent", .arr ((inconsistencies expressions standing).map (·.toJson)))])

def unlocks (body : Json) : Handling σ Answer := do
  let expressions ← .ofInput (expressionsIn body)
  let id ← .ofInput (courseIn body)
  let standing ← .ofInput (completedIn expressions.keys.contains body)
  let (m, newly) ← .ofReading do
    let m ← dependents read expressions
    return (m, ← newlyEligible read id m expressions standing.has)
  return .plain (.obj [("course_id", .str id),
    ("direct_unlocks", .ofTexts (directUnlocks id m expressions.keys.length)),
    ("newly_eligible", .ofTexts newly), ("chain_depth", .int (chainDepth m id))])

end

/-! ### Endpoints -/

inductive Endpoint
  | health
  | parse
  | stringify
  | evaluate
  | grouping
  | validateExpression
  | compile
  | validateGraph
  | eligibility
  | unlocks
  deriving DecidableEq, Repr

namespace Endpoint

def paths : List (String × Endpoint) :=
  [("/health", .health), ("/api/expression/parse", .parse), ("/api/expression/stringify", .stringify),
    ("/api/expression/evaluate", .evaluate), ("/api/expression/grouping", .grouping),
    ("/api/expression/validate", .validateExpression), ("/api/graph/compile", .compile),
    ("/api/graph/validate", .validateGraph), ("/api/graph/eligibility", .eligibility),
    ("/api/graph/unlocks", .unlocks)]

/-- The name of an endpoint in the log. -/
def name : Endpoint → String
  | .health => "health_endpoint"
  | .parse => "parse_endpoint"
  | .stringify => "stringify_endpoint"
  | .evaluate => "evaluate_endpoint"
  | .grouping => "grouping_endpoint"
  | .validateExpression => "validate_expression_endpoint"
  | .compile => "compile_endpoint"
  | .validateGraph => "validate_graph_endpoint"
  | .eligibility => "eligibility_endpoint"
  | .unlocks => "unlocks_endpoint"

/-- The answer of an endpoint to a body, if there is one that can be read as an object. -/
def answer {σ : Type} (read : String → Reading σ Requirement) (cap : Option Int) (e : Endpoint)
    (body : Option Json) : Handling σ Answer :=
  match e, body with
  | .health, _ => return .plain (.obj [("status", .str "ok"), ("version", .str version)])
  | .stringify, none => throw (.refused .treeNotObject)
  | _, none => throw (.refused .bodyNotObject)
  | .parse, some body => Service.parse read body
  | .stringify, some body => Service.stringify body
  | .evaluate, some body => Service.evaluate read body
  | .grouping, some body => Service.grouping read cap body
  | .validateExpression, some body => Service.validateExpression read body
  | .compile, some body => Service.compile cap body
  | .validateGraph, some body => Service.validateGraph body
  | .eligibility, some body => Service.eligibilities read body
  | .unlocks, some body => Service.unlocks read body

end Endpoint
end Service
end Curriculum
