import Curriculum.Json.Basic

/-! Comparing values with texts. A value that is no text is none of them, but an array or an object cannot
    be compared at all. -/

namespace Curriculum

/-- A value that cannot be compared with texts, being an array or an object. -/
structure Incomparable where
  value : Json

/-- Whether a value is one of the given texts. -/
def isAmong (texts : List String) (v : Json) : Except Incomparable Bool :=
  match v with
  | .str s => .ok (texts.contains s)
  | v => if v.isCompound then .error ⟨v⟩ else .ok false

/-- The texts among some values, all of which have to be comparable. -/
def textsAmong : List Json → Except Incomparable (List String)
  | [] => .ok []
  | .str s :: rest => do return s :: (← textsAmong rest)
  | v :: rest => if v.isCompound then .error ⟨v⟩ else textsAmong rest

/-- The members of a value as texts: the texts of an array, the characters of a text, the keys of an
    object. Other values have no members. -/
def members : Json → Except Incomparable (List String)
  | .arr items => textsAmong items
  | .str s => .ok (s.toList.map fun c => c.toString)
  | .obj fields => .ok (fields.map Prod.fst)
  | _ => .ok []

end Curriculum
