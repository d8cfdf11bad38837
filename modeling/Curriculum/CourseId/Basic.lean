import Curriculum.Text.Blank

/-! Course ids: runs of letters, digits, `_` and `-` that are no keyword of the requirement language.
    The case of an id matters, that of a keyword does not. -/

namespace Curriculum

/-- The characters of ids and keywords: ASCII letters and digits, underscore and hyphen. -/
def isWordChar (c : Char) : Bool :=
  c.isAlphanum || c = '_' || c = '-'

/-- The words with a meaning of their own. -/
inductive Keyword
  | and
  | or
  | nothing
  deriving DecidableEq, Repr

/-- The word with its ASCII letters in capitals. -/
def capitals (word : String) : String :=
  String.ofList (word.toList.map Char.toUpper)

/-- The keyword that a word is, in whatever case it is written. -/
def Keyword.ofWord? (word : String) : Option Keyword :=
  match capitals word with
  | "AND" => some .and
  | "OR" => some .or
  | "NONE" => some .nothing
  | _ => none

namespace CourseId

def isValid (s : String) : Bool :=
  !s.isEmpty && s.toList.all isWordChar && (Keyword.ofWord? s).isNone

/-- The id that a text holds between blanks, if it holds one. -/
def normalize? (raw : String) : Option String :=
  let s := Text.trim raw
  if isValid s then some s else none

theorem normalize?_eq_some_iff {s r : String} : normalize? s = some r ↔ Text.trim s = r ∧ isValid r = true := by
  unfold normalize?
  dsimp only
  constructor
  · intro h
    split at h
    · next hvalid =>
      cases h
      exact ⟨rfl, hvalid⟩
    · cases h
  · rintro ⟨rfl, hvalid⟩
    exact if_pos hvalid

end CourseId
end Curriculum
