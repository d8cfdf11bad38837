import Curriculum.Text.UpperTable

/-! Upper case by the full mapping of Unicode: a letter may become several characters. -/

namespace Curriculum.Text

/-- The capital form of one character; a character without one stays as it is. -/
def upperChar (c : Char) : List Char :=
  let n := c.toNat
  match upperExpansions.lookup n with
  | some codes => codes.map Char.ofNat
  | none =>
    match upperRuns.find? fun (first, last, step, _) => first ≤ n && n ≤ last && (n - first) % step = 0 with
    | some (_, _, _, distance) => [Char.ofNat (n + distance).toNat]
    | none => [c]

def upper (s : String) : String :=
  String.ofList (s.toList.flatMap upperChar)

end Curriculum.Text
