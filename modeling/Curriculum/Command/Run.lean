import Curriculum.Command.Arguments
import Curriculum.Csv
import Curriculum.Graph.Audit
import Curriculum.Graph.Compile
import Curriculum.Json.Printer
import Curriculum.Text.Blank

/-! What the command does: it compiles a table into a graph, reports what was wrong, audits the graph and
    writes it down. -/

namespace Curriculum.Command

inductive Fatal
  | fileNotFound
  | badTable (error : Csv.Error)
  | tooManyClauses (error : ClauseLimit)
  deriving DecidableEq, Repr

def Fatal.message (path : String) : Fatal → String
  | .fileNotFound => "File not found: " ++ path
  | .badTable error => "Failed to compile " ++ path ++ ": " ++ error.message
  | .tooManyClauses error => "Failed to compile " ++ path ++ ": " ++ error.message

/-! ### Compiling -/

/-- A file name without its last extension. Points at its start begin no extension. -/
def stem (name : List Char) : List Char :=
  let points := name.takeWhile (· = '.')
  let body := name.dropWhile (· = '.')
  points ++ if body.contains '.' then ((body.reverse.dropWhile (· ≠ '.')).drop 1).reverse else body

/-- The id of the graph of a table: the name of its file. -/
def graphId (path : String) : String :=
  String.ofList (stem (path.toList.reverse.takeWhile (· ≠ '/')).reverse)

/-- The rows of a table. The names of its columns are trimmed. -/
def rowsOf (t : Csv.Table) : List Graph.Row :=
  let t := { t with names := t.names.map Text.trim }
  t.rows.map fun row =>
    .ofTexts (t.cell row "course_id") (t.cell row "course_name") (t.cell row "credits")
      (t.cell row "prereq_expression")

/-- The graph of the table in a file. -/
def compileFile (o : Options) (file : Option String) : Except Fatal Graph.Compilation := do
  let some text := file | .error .fileNotFound
  let table ← (Csv.table text).mapError .badTable
  (Graph.compile (clauseCap (some o.maxClauses)) (.str (graphId o.path)) (rowsOf table)).mapError .tooManyClauses

/-! ### Reporting -/

/-- The lines about a graph: its size, and what was wrong with the table. -/
def summary (c : Graph.Compilation) : List String :=
  let count (n : Nat) := toString n
  ("[OK] nodes=" ++ count c.graph.nodes.length ++ " edges=" ++ count c.graph.edges.length ++ " grouped_edges=" ++
      count (Graph.groupedEdges c.graph) ++ " diagnostics=" ++ count c.diagnostics.length) ::
    c.diagnostics.map fun d => "  [WARN] " ++ d.message

/-- What is wrong with a compiled graph. All its references are texts and can be compared. -/
def faultsOf (g : Graph) : List Graph.Fault :=
  match Graph.audit g.toJson with
  | .ok faults => faults
  | .error _ => []

def target? (o : Options) : Option String :=
  o.out.filter fun name => !name.isEmpty

/-- What a run leaves behind: the exit code, the lines for either stream, and a file with its text. -/
structure Outcome where
  code : Nat
  output : List String
  errors : List String
  written : Option (String × String)
  deriving DecidableEq, Repr

/-- The exit code for a graph: one for a fault of the graph, two for a diagnostic where these count. -/
def exitCode (o : Options) (c : Graph.Compilation) (faults : List Graph.Fault) : Nat :=
  if !faults.isEmpty then 1 else if o.strict && !c.diagnostics.isEmpty then 2 else 0

/-- Runs the command on the text of the file at its path, if there is one. -/
def run (o : Options) (file : Option String) : Outcome :=
  match compileFile o file with
  | .error fatal => ⟨1, [], ["[FATAL] " ++ fatal.message o.path], none⟩
  | .ok c =>
    let faults := faultsOf c.graph
    { code := exitCode o c faults
      output := summary c ++ ((target? o).map fun name => "[OK] Wrote " ++ name).toList
      errors := faults.map fun fault => "  [ERROR] " ++ fault.message
      written := (target? o).map fun name => (name, c.graph.toJson.indented 0) }

end Curriculum.Command
