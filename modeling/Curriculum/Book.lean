import Curriculum.Eligibility
import Curriculum.Standing

/-! A book of requirement texts that can be edited and that remembers what it has read. The memory is kept
    by course and text, so a new text is always read; the entry of the old one is dropped with it. -/

namespace Curriculum

/-- The requirement texts of some courses and what has been read of them. -/
structure Book where
  expressions : Expressions
  memory : Memory

namespace Book

/-- A book of the given texts that remembers as many requirements as the size says. -/
def ofExpressions (expressions : Expressions) (size : Int) : Book :=
  ⟨expressions, .ofSize size⟩

/-- The text of a course; where it is empty or missing, nothing is required. -/
def expression (b : Book) (course : String) : String :=
  let text := b.expressions.textOf course
  if text.isEmpty then "NONE" else text

/-- The book that does not remember the text of a course. -/
def invalidate (b : Book) (course : String) : Book :=
  { b with memory := b.memory.erase (course, some (b.expression course)) }

def setExpression (b : Book) (course : String) (text : Option String) : Book :=
  { b.invalidate course with expressions := b.expressions.insert course text }

def clear (b : Book) : Book := { b with memory := b.memory.clear }

/-- Reads some text for a course, whatever the book says. -/
def read (course : String) (text : Option String) : Reading Book Requirement :=
  ExceptT.mk fun b =>
    let (r, memory) := Memory.read course text b.memory
    (r, { b with memory := memory })

def requirement (course : String) : Reading Book Requirement := do
  read course (some ((← get).expression course))

/-- The courses that the requirement of a course refers to. A text that states nothing is not read. -/
def prerequisites (course : String) : Reading Book IdSet := do
  if Requirement.isStated ((← get).expression course) then return (← requirement course).courseIds
  else return ∅

/-- Whether a student may take a course. A text that states nothing is not read. -/
def eligible (course : String) (standing : Standing) : Reading Book Bool := do
  if Requirement.isStated ((← get).expression course) then return (← requirement course).holds standing.has
  else return true

end Book
end Curriculum
