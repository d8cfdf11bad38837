import Curriculum.Number.Numeral

/-! The arguments of the command. Options have long names, which may be cut short, and a value follows as
    the next argument or after an equals sign. What looks like a negative number or holds a space is a
    value, unless it begins with an option. -/

namespace Curriculum.Command

/-! ### Arguments -/

inductive Flag
  | help
  | path
  | out
  | maxClauses
  | strict
  deriving DecidableEq, Repr

namespace Flag

def all : List Flag := [.help, .path, .out, .maxClauses, .strict]

/-- The name behind the two hyphens. -/
def word : Flag → String
  | .help => "help"
  | .path => "path"
  | .out => "out"
  | .maxClauses => "max-clauses"
  | .strict => "strict"

/-- The options whose names begin with the given characters. -/
def startingWith (name : List Char) : List Flag :=
  all.filter fun f => name.isPrefixOf f.word.toList

end Flag

/-- An argument by its look: a value, an option perhaps with a value attached, something that looks like an
    option but is none, the short option with something attached that it cannot have, the beginning of
    several options, or the mark behind which all are values. -/
inductive Piece
  | value (text : String)
  | flag (f : Flag) (attached : Option String)
  | other
  | refused
  | ambiguous
  | separator
  deriving DecidableEq, Repr

namespace Piece

/-- Whether the characters are digits of some script. -/
def areDigits (cs : List Char) : Bool :=
  cs.all fun c => (Text.digitValue? c).isSome

/-- Whether the characters behind a hyphen make a negative number, which has digits at its end and may have
    a point. -/
def isNumber (cs : List Char) : Bool :=
  match cs.dropWhile (· ≠ '.') with
  | [] => !cs.isEmpty && areDigits cs
  | _ :: part => !part.isEmpty && areDigits part && areDigits (cs.takeWhile (· ≠ '.'))

/-- An argument that begins with a hyphen but with no option. -/
def ofUnknown (text : String) (body : List Char) : Piece :=
  if isNumber body || body.contains ' ' then .value text else .other

/-- The value behind the first equals sign. -/
def attached? (cs : List Char) : Option String :=
  match cs.dropWhile (· ≠ '=') with
  | [] => none
  | _ :: rest => some (String.ofList rest)

/-- Whether the short option may go on like this. It may be repeated, and what is no option is left over,
    but it takes no value and no further hyphen. -/
def mayFollow : List Char → Bool
  | '=' :: _ | '-' :: _ => false
  | 'h' :: rest => mayFollow rest
  | _ => true

def ofArgument (text : String) : Piece :=
  match text.toList with
  | ['-', '-'] => .separator
  | '-' :: '-' :: body =>
    match Flag.startingWith (body.takeWhile (· ≠ '=')) with
    | [f] => .flag f (attached? body)
    | [] => ofUnknown text ('-' :: body)
    | _ => .ambiguous
  | '-' :: 'h' :: more => if mayFollow more then .flag .help none else .refused
  | '-' :: c :: body => ofUnknown text (c :: body)
  | _ => .value text

/-- The arguments by their looks; behind the separator all are values. -/
def ofArguments : List String → List Piece
  | [] => []
  | text :: rest =>
    match ofArgument text with
    | .separator => .separator :: rest.map .value
    | piece => piece :: ofArguments rest

end Piece

/-! ### Options -/

/-- What the command is asked to do: which table to compile, where to put the graph, the cap on clauses, and
    whether diagnostics count as failure. -/
structure Options where
  path : String
  out : Option String
  maxClauses : Int
  strict : Bool
  deriving DecidableEq, Repr

/-- What the arguments amount to. -/
inductive Invocation
  | run (options : Options)
  | help
  | misuse
  deriving DecidableEq, Repr

/-- The options so far. The path may still be missing, and there may be arguments that belong nowhere. -/
structure Given where
  path : Option String
  out : Option String
  maxClauses : Int
  strict : Bool
  stray : Bool
  deriving DecidableEq, Repr

namespace Given

def nothing : Given := ⟨none, none, 0, false, false⟩

/-- The options with a value for one of them, if it takes one and can read it. -/
def store? (g : Given) (f : Flag) (text : String) : Option Given :=
  match f with
  | .path => some { g with path := some text }
  | .out => some { g with out := some text }
  | .maxClauses =>
    match Numeral.integer text with
    | .ok n => some { g with maxClauses := n }
    | .error _ => none
  | .help | .strict => none

/-- The invocation that the options make, if nothing more comes. -/
def finish (g : Given) : Invocation :=
  match g.path with
  | some path => if g.stray then .misuse else .run ⟨path, g.out, g.maxClauses, g.strict⟩
  | none => .misuse

/-- The invocation that the options and the arguments to come make. Arguments are taken in order, and the
    first that asks for help or makes no sense decides. -/
def collect (g : Given) : List Piece → Invocation
  | [] => g.finish
  | .flag .help none :: _ => .help
  | .flag .strict none :: rest => collect { g with strict := true } rest
  | .flag f none :: .value text :: rest | .flag f (some text) :: rest =>
    match g.store? f text with
    | some g => collect g rest
    | none => .misuse
  | .flag _ none :: _ | .refused :: _ | .ambiguous :: _ => .misuse
  | .value _ :: rest | .other :: rest | .separator :: rest => collect { g with stray := true } rest

end Given

/-- The invocation that some arguments make. An ambiguous one is found before any is taken. -/
def Invocation.ofArguments (arguments : List String) : Invocation :=
  let pieces := Piece.ofArguments arguments
  if pieces.contains .ambiguous then .misuse else Given.nothing.collect pieces

end Curriculum.Command
