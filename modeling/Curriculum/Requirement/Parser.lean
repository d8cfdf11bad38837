import Curriculum.Requirement.Basic
import Curriculum.Requirement.Token
import Curriculum.Text.Upper

/-! Reading a requirement from its text. AND binds tighter than OR, and both group to the left.

    The reader takes the tokens one by one. It keeps, for each open parenthesis and for the text as a
    whole, the operators that still wait for their right operand; there are at most two of them, an OR
    and an AND inside its right operand. Whatever the tokens say, a character that starts no token is
    reported as soon as it is next, and a limit of depth as soon as the next token is seen. -/

namespace Curriculum

/-- Why a text is no requirement, with the place of the offence. An unexpected token without a symbol is
    the end of the text. -/
inductive SyntaxError
  | strayCharacter (c : Char) (position : Nat)
  | unexpected (found : Option Symbol) (position : Nat)
  | tooDeep (position : Nat)
  deriving DecidableEq, Repr

namespace SyntaxError

def position : SyntaxError → Nat
  | .strayCharacter _ p | .unexpected _ p | .tooDeep p => p

def message : SyntaxError → String
  | .strayCharacter c _ => "Unexpected character \"" ++ c.toString ++ "\""
  | .unexpected (some s) _ => "Unexpected token " ++ s.kindName
  | .unexpected none _ => "Unexpected token EOF"
  | .tooDeep _ => "Expression nested too deeply"

def text (e : SyntaxError) : String :=
  e.message ++ " at position " ++ toString e.position

end SyntaxError

namespace Requirement

/-! ### The state of the reader -/

/-- An operator that waits for its right operand: its left operand and its place. -/
structure Pending where
  left : Requirement
  position : Nat
  deriving DecidableEq, Repr

/-- The waiting operators between one pair of parentheses. -/
structure Level where
  either : Option Pending
  both : Option Pending
  deriving DecidableEq, Repr

def Level.fresh : Level := ⟨none, none⟩

/-- The levels that an open parenthesis interrupts, the innermost first, each with the place of the
    parenthesis that interrupts it. -/
abbrev Outer := List (Nat × Level)

/-- The reader wants an operand, or it holds one and wants an operator, a closing parenthesis or the
    end. -/
inductive Reader
  | wanting (level : Level) (outer : Outer)
  | holding (operand : Requirement) (level : Level) (outer : Outer)
  deriving DecidableEq, Repr

def Reader.start : Reader := .wanting .fresh []

/-! ### Steps -/

/-- An operand with the waiting operator applied to it, unless that makes it too deep. -/
def join (op : Requirement → Requirement → Requirement) (operand : Requirement) :
    Option Pending → Except SyntaxError Requirement
  | none => .ok operand
  | some p =>
    let whole := op p.left operand
    if maxDepth < whole.depth then .error (.tooDeep p.position) else .ok whole

namespace Reader

/-- What the reader settles before it looks at the next token: that the parentheses are not too many,
    and the AND that waited for the operand. -/
def settle : Reader → Except SyntaxError Reader
  | .wanting level ((position, interrupted) :: outer) =>
    if maxDepth < outer.length + 1 then .error (.tooDeep position)
    else .ok (.wanting level ((position, interrupted) :: outer))
  | .wanting level [] => .ok (.wanting level [])
  | .holding operand level outer => do
    return .holding (← join .both operand level.both) { level with both := none } outer

/-- The reader after the next token, once it is settled. All but AND end the right operand of a waiting
    OR. -/
def shift (r : Reader) (symbol : Symbol) (position : Nat) : Except SyntaxError Reader :=
  match r, symbol with
  | .wanting level outer, .nothing => .ok (.holding .nothing level outer)
  | .wanting level outer, .id name => .ok (.holding (.course name) level outer)
  | .wanting level outer, .opening => .ok (.wanting .fresh ((position, level) :: outer))
  | .holding operand level outer, .and =>
    .ok (.wanting { level with both := some ⟨operand, position⟩ } outer)
  | .holding operand level outer, symbol => do
    let operand ← join .either operand level.either
    match symbol, outer with
    | .or, outer => .ok (.wanting ⟨some ⟨operand, position⟩, none⟩ outer)
    | .closing, (_, interrupted) :: outer => .ok (.holding operand interrupted outer)
    | symbol, _ => .error (.unexpected (some symbol) position)
  | .wanting .., symbol => .error (.unexpected (some symbol) position)

/-- The requirement that a settled reader has read when the text ends. -/
def finish (r : Reader) (position : Nat) : Except SyntaxError Requirement :=
  match r with
  | .holding operand level outer => do
    let operand ← join .either operand level.either
    if outer.isEmpty then .ok operand else .error (.unexpected none position)
  | .wanting .. => .error (.unexpected none position)

/-- The requirement that the tokens from here on complete. -/
def run (ending : Ending) : Reader → List Token → Except SyntaxError Requirement
  | r, [] =>
    match ending with
    | .stray c position => .error (.strayCharacter c position)
    | .finish position => do (← r.settle).finish position
  | r, t :: rest => do
    let r ← (← r.settle).shift t.symbol t.start
    run ending r rest

end Reader

/-! ### Texts -/

def isBlankText (s : String) : Bool := s.toList.all Text.isLayout

def ofScan : Scan → Except SyntaxError Requirement
  | ⟨tokens, ending⟩ => Reader.start.run ending tokens

/-- The requirement that a text writes; a blank text asks for nothing. -/
def parse (s : String) : Except SyntaxError Requirement :=
  match isBlankText s with
  | true => .ok .nothing
  | false => ofScan (Scan.ofText s)

/-- The requirement of a text that may be missing; a missing one asks for nothing. -/
def parse? : Option String → Except SyntaxError Requirement
  | some s => parse s
  | none => .ok .nothing

/-- Whether a text states a requirement: it is neither blank nor the word NONE in some case. -/
def isStated (s : String) : Bool :=
  let core := Text.trimEnds Text.isLayout s.toList
  !core.isEmpty && Text.upper (String.ofList core) != "NONE"

end Requirement
end Curriculum
