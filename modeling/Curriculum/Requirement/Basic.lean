import Curriculum.SortedSet

/-! Course requirements as trees: nothing at all, one course, both of two requirements or either of
    them. -/

namespace Curriculum

/-- What a student must have completed before a course. -/
inductive Requirement
  | nothing
  | course (id : String)
  | both (left right : Requirement)
  | either (left right : Requirement)
  deriving DecidableEq, Repr, Inhabited

namespace Requirement

/-- The deepest nesting of operators, and of parentheses, that is accepted from outside. -/
def maxDepth : Nat := 128

/-- How deep operators are nested; a leaf has depth zero. -/
def depth : Requirement → Nat
  | .nothing | .course _ => 0
  | .both l r | .either l r => max l.depth r.depth + 1

def courseIds : Requirement → IdSet
  | .nothing => ∅
  | .course id => .singleton id
  | .both l r | .either l r => l.courseIds ∪ r.courseIds

def holds (done : String → Bool) : Requirement → Bool
  | .nothing => true
  | .course id => done id
  | .both l r => l.holds done && r.holds done
  | .either l r => l.holds done || r.holds done

def unknownIds (known : String → Bool) (r : Requirement) : IdSet :=
  r.courseIds.filter fun id => !known id

end Requirement
end Curriculum
