import Curriculum.Recent
import Curriculum.Requirement.Parser

/-! Reading requirement texts one after another, by a reader that may remember what it has read. A text
    that is no requirement stops the work, and what was remembered by then stays. -/

namespace Curriculum

/-- A computation that may fail on a requirement text and changes a memory of type `σ` on the way, also
    when it fails. -/
abbrev Reading (σ : Type) := ExceptT SyntaxError (StateM σ)

namespace Reading

def plain {σ : Type} (text : String) : Reading σ Requirement :=
  ExceptT.mk (pure (Requirement.parse text))

/-- The result of a computation that starts without memory. -/
def result {α : Type} (x : Reading Unit α) : Except SyntaxError α := (x.run ()).1

end Reading

/-- The requirements read last, each under a course and the text that was read for it; the text may be
    missing. -/
abbrev Memory := Recent (String × Option String) Requirement

namespace Memory

/-- Reads a text for a course, unless the requirement is remembered. A text that is no requirement is not
    remembered. -/
def read (course : String) (text : Option String) : Reading Memory Requirement :=
  ExceptT.mk fun memory =>
    match memory.get (course, text) with
    | (some r, memory) => (.ok r, memory)
    | (none, memory) =>
      match Requirement.parse? text with
      | .ok r => (.ok r, memory.set (course, text) r)
      | .error e => (.error e, memory)

end Memory
end Curriculum
