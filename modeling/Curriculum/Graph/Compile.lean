import Curriculum.CourseId.Basic
import Curriculum.Graph.Basic
import Curriculum.Graph.Row
import Curriculum.Requirement.Parser

/-! From a course table to a graph. The rows are taken in first, each becoming a node or a diagnostic;
    then the edges are drawn between the nodes that there are. -/

namespace Curriculum.Graph

/-- What is wrong with a row, or with the requirement of a node. -/
inductive Diagnostic
  | missingId
  | invalidId (id : String)
  | duplicateId (id : String)
  | missingName (id : String)
  | invalidCredits (id : String)
  | invalidExpression (id : String) (error : SyntaxError)
  | unknownPrerequisite (prerequisite course : String)
  deriving DecidableEq, Repr

def Diagnostic.message : Diagnostic → String
  | .missingId => "Missing course_id"
  | .invalidId id => "Invalid course_id " ++ id
  | .duplicateId id => "Duplicate course_id " ++ id
  | .missingName id => "Missing course_name for " ++ if id.isEmpty then "(unknown id)" else id
  | .invalidCredits id => "Invalid credits for " ++ id
  | .invalidExpression id error => "Invalid prereq_expression for " ++ id ++ ": " ++ error.message
  | .unknownPrerequisite prerequisite course =>
    "Unknown prerequisite " ++ prerequisite ++ " referenced by " ++ course

/-! ### Taking in rows -/

/-- The rows taken in so far: the nodes, the rules that could be read with their requirements, and the
    diagnostics. -/
structure Intake where
  nodes : List Node
  rules : List (Rule × Requirement)
  diagnostics : List Diagnostic

def Intake.empty : Intake := ⟨[], [], []⟩

def Intake.hasNode (i : Intake) (id : String) : Bool :=
  i.nodes.any fun n => n.id = id

def idFault? (taken : String → Bool) (row : Row) : Option Diagnostic :=
  if row.courseId.isEmpty then some .missingId
  else if (CourseId.normalize? row.courseId).isNone then some (.invalidId row.courseId)
  else if taken row.courseId then some (.duplicateId row.courseId)
  else none

def cellFaults (row : Row) : List Diagnostic :=
  (if row.name.isEmpty then [.missingName row.courseId] else []) ++
    if row.credits?.isNone then [.invalidCredits row.courseId] else []

def Row.ruleText (row : Row) : String :=
  if row.expression.isEmpty then "NONE" else row.expression

/-- The intake with a node for a faultless row, and with its rule if that can be read. -/
def Intake.accept (i : Intake) (row : Row) (credits : Double) : Intake :=
  let nodes := i.nodes ++ [⟨row.courseId, row.name, credits⟩]
  match Requirement.parse row.ruleText with
  | .ok r => ⟨nodes, i.rules ++ [(⟨row.courseId, row.ruleText⟩, r)], i.diagnostics⟩
  | .error e => ⟨nodes, i.rules, i.diagnostics ++ [.invalidExpression row.courseId e]⟩

/-- The intake after one more row. A row with a bad or repeated id is not looked at further; one without
    an id still is. -/
def Intake.add (i : Intake) (row : Row) : Intake :=
  match idFault? i.hasNode row with
  | some .missingId => { i with diagnostics := i.diagnostics ++ .missingId :: cellFaults row }
  | some fault => { i with diagnostics := i.diagnostics ++ [fault] }
  | none =>
    match cellFaults row, row.credits? with
    | [], some credits => i.accept row credits
    | faults, _ => { i with diagnostics := i.diagnostics ++ faults }

def Intake.ofRows (rows : List Row) : Intake := rows.foldl Intake.add .empty

/-! ### Drawing edges -/

/-- A graph and what was wrong on the way to it. -/
structure Compilation where
  graph : Graph
  diagnostics : List Diagnostic

/-- The prerequisites of a rule that are no nodes. -/
def unknownOf (known : String → Bool) (course : String) (r : Requirement) : List Diagnostic :=
  (r.unknownIds known).toList.map fun id => .unknownPrerequisite id course

/-- The edges of every rule between existing nodes, under a cap on the clauses of each requirement. -/
def drawEdges (cap : Option Int) (known : String → Bool) :
    List (Rule × Requirement) → Except ClauseLimit (List Edge)
  | [] => .ok []
  | (rule, r) :: rest => do
    let grouping ← r.groupingWithin cap
    let edges := (edgesOf rule.courseId grouping).filter fun e => known e.source
    return edges ++ (← drawEdges cap known rest)

def Intake.compile (cap : Option Int) (id : Json) (i : Intake) : Except ClauseLimit Compilation := do
  let edges ← drawEdges cap i.hasNode i.rules
  return ⟨⟨id, i.nodes, edges, i.rules.map Prod.fst⟩,
    i.diagnostics ++ i.rules.flatMap fun (rule, r) => unknownOf i.hasNode rule.courseId r⟩

def compile (cap : Option Int) (id : Json) (rows : List Row) : Except ClauseLimit Compilation :=
  (Intake.ofRows rows).compile cap id

def groupedEdges (g : Graph) : Nat := (g.edges.filter fun e => e.group.isSome).length

end Curriculum.Graph
