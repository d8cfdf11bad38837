import Curriculum.CourseId.Basic

/-! Lists of course ids as people type them: pieces between commas, semicolons and line feeds, sorted
    into ids of the catalog, ids outside it and pieces that are no ids. -/

namespace Curriculum.CourseId

def isSeparator (c : Char) : Bool :=
  c = ',' || c = ';' || c = '\n'

/-- The runs of characters between separators, empty ones included. -/
def splitPieces : List Char → List (List Char)
  | [] => [[]]
  | c :: rest =>
    if isSeparator c then [] :: splitPieces rest else
      match splitPieces rest with
      | [] => [[c]]
      | piece :: pieces => (c :: piece) :: pieces

/-- The pieces of an entry, trimmed and without the blank ones. -/
def pieces (raw : String) : List String :=
  ((splitPieces raw.toList).map fun piece => Text.trim (String.ofList piece)).filter fun piece => !piece.isEmpty

/-- A sorted entry. Each list keeps the order in which its members first came. -/
structure Entry where
  valid : List String
  invalid : List String
  unlisted : List String
  deriving DecidableEq, Repr

namespace Entry

def empty : Entry := ⟨[], [], []⟩

/-- Whether a piece has been placed already. -/
def mentions (e : Entry) (piece : String) : Bool :=
  e.valid.contains piece || e.invalid.contains piece || e.unlisted.contains piece

/-- The entry with one more piece in its place; a piece that came before changes nothing. -/
def place (inCatalog : String → Bool) (e : Entry) (piece : String) : Entry :=
  match normalize? piece with
  | none => if e.mentions piece then e else { e with invalid := e.invalid ++ [piece] }
  | some id =>
    if e.mentions id then e
    else if inCatalog id then { e with valid := e.valid ++ [id] }
    else { e with unlisted := e.unlisted ++ [id] }

/-- The pieces of an entry, each in its place. -/
def read (inCatalog : String → Bool) (raw : String) : Entry :=
  (pieces raw).foldl (place inCatalog) empty

end Entry
end Curriculum.CourseId
