/-! Tables as comma-separated text. A quote at the start of a cell opens a quoted part, in which commas and
    line ends are plain characters and a quote is written twice; what follows the closing quote belongs to
    the cell as it stands. Lines end with a line feed, a carriage return or both. -/

namespace Curriculum.Csv

/-! ### Lines -/

/-- Where the reader stands: at the start of a line, just after a carriage return, behind blanks at the
    start of a line, at the start of a cell, in a cell, inside quotes, or behind a closing quote. -/
inductive Place
  | lineStart
  | afterReturn
  | margin
  | cellStart
  | inCell
  | inQuotes
  | afterQuote
  deriving DecidableEq, Repr

/-- Whether nothing has come of the line but blanks. -/
def Place.isBlankSoFar : Place → Bool
  | .lineStart | .afterReturn | .margin => true
  | _ => false

/-- Whether a quote opens a quoted part here. -/
def Place.opensQuotes : Place → Bool
  | .lineStart | .afterReturn | .cellStart => true
  | _ => false

/-- The lines of a text, the blank ones as `none`, and whether every quoted part is closed. A quoted part
    that is not closed belongs to no line. -/
structure Lines where
  lines : List (Option (List String))
  closed : Bool
  deriving DecidableEq, Repr

/-- The line that ends here. The finished cells and the characters of the current one come with the last
    one first. -/
def lineAt (place : Place) (cells : List String) (cell : List Char) : Option (List String) :=
  if place.isBlankSoFar then none else some (String.ofList cell.reverse :: cells).reverse

/-- The lines from a place on. -/
def linesFrom (place : Place) (cells : List String) (cell : List Char) : List Char → Lines
  | [] =>
    if place = .inQuotes then ⟨[], false⟩
    else if place.isBlankSoFar then ⟨[], true⟩
    else ⟨[lineAt place cells cell], true⟩
  | c :: rest =>
    if place = .inQuotes then
      if c = '"' then linesFrom .afterQuote cells cell rest else linesFrom .inQuotes cells (c :: cell) rest
    else if c = '\n' then
      let others := linesFrom .lineStart [] [] rest
      if place = .afterReturn then others else { others with lines := lineAt place cells cell :: others.lines }
    else if c = '\r' then
      let others := linesFrom .afterReturn [] [] rest
      { others with lines := lineAt place cells cell :: others.lines }
    else if c = ',' then linesFrom .cellStart (String.ofList cell.reverse :: cells) [] rest
    else if c = '"' && place.opensQuotes then linesFrom .inQuotes cells [] rest
    else if c = '"' && place = .afterQuote then linesFrom .inQuotes cells ('"' :: cell) rest
    else if (c = ' ' || c = '\t') && place.isBlankSoFar then linesFrom .margin cells (c :: cell) rest
    else linesFrom .inCell cells (c :: cell) rest

/-- The lines of a text without the mark that may stand at its start. -/
def lines (text : String) : Lines :=
  match text.toList with
  | '\ufeff' :: rest => linesFrom .lineStart [] [] rest
  | cs => linesFrom .lineStart [] [] cs

/-! ### Tables -/

/-- Why a text is no table. Lines are counted from one, blank ones included. -/
inductive Error
  | noHeader
  | tooManyCells (expected line found : Nat)
  | unclosedQuote (line : Nat)
  deriving DecidableEq, Repr

def Error.message : Error → String
  | .noHeader => "No columns to parse from file"
  | .tooManyCells expected line found =>
    "Error tokenizing data. C error: Expected " ++ toString expected ++ " fields in line " ++ toString line ++
      ", saw " ++ toString found ++ "\n"
  | .unclosedQuote line => "Error tokenizing data. C error: EOF inside string starting at row " ++ toString line

/-- A table: the names of its columns, and its rows, which may be shorter. -/
structure Table where
  names : List String
  rows : List (List String)
  deriving DecidableEq, Repr

/-- The cell of a row in the first column of a name; empty where there is none. -/
def Table.cell (t : Table) (row : List String) (name : String) : String :=
  ((t.names.zip row).lookup name).getD ""

def numbered (lines : List (Option (List String))) : List (Nat × List String) :=
  (lines.zipIdx 1).filterMap fun (line, n) => line.map (n, ·)

/-- The table of a text. The header and the first row say how many cells a row may have. Where the first
    row has more than the header, all rows lose as many at their start. -/
def table (text : String) : Except Error Table :=
  let all := lines text
  let unclosed : Option Error := if all.closed then none else some (.unclosedQuote all.lines.length)
  match numbered all.lines with
  | [] => .error (unclosed.getD .noHeader)
  | (_, header) :: rows =>
    let first := rows.head?.map (·.2.length) |>.getD 0
    let expected := max header.length first
    match rows.find? fun row => expected < row.2.length with
    | some (line, row) => .error (.tooManyCells expected line row.length)
    | none =>
      match unclosed with
      | some error => .error error
      | none => .ok ⟨header, rows.map fun row => row.2.drop (first - header.length)⟩

end Curriculum.Csv
