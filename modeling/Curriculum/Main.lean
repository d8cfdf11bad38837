import Curriculum.Command.Run

/-! The command line: it reads the table, runs the command and carries out what that leaves behind. -/

namespace Curriculum.Command

def usage : String :=
  "usage: compile-courses [-h] --path PATH [--out OUT] [--max-clauses MAX_CLAUSES] [--strict]"

def optionsHelp : List String :=
  ["Compile course rows into a prerequisite graph.",
    "",
    "  -h, --help                 show this text and leave",
    "  --path PATH                the table of courses",
    "  --out OUT                  write the graph to this file",
    "  --max-clauses MAX_CLAUSES  the most clauses of one requirement (0 = no limit)",
    "  --strict                   fail where there are diagnostics"]

/-- The text of a file, if there is one. -/
def readFile? (path : String) : IO (Option String) :=
  try
    return some (← IO.FS.readFile path)
  catch _ =>
    return none

end Curriculum.Command

open Curriculum Command in
def main (arguments : List String) : IO UInt32 := do
  match Invocation.ofArguments arguments with
  | .help =>
    IO.println usage
    optionsHelp.forM IO.println
    return 0
  | .misuse =>
    IO.eprintln usage
    return 2
  | .run options =>
    let outcome := run options (← readFile? options.path)
    outcome.output.forM IO.println
    outcome.errors.forM IO.eprintln
    if let some (name, text) := outcome.written then IO.FS.writeFile name text
    return outcome.code.toUInt32
