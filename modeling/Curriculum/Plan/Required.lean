import Curriculum.Eligibility
import Curriculum.Plan.Unseen
import Curriculum.Requirement.Grouping
import Curriculum.Standing

/-! What a course requires in the long run: its mandatory prerequisites, theirs, and so on. Alternatives
    are a choice and are never followed. From this, the completed courses whose requirements are not
    completed. A walk nests as deep as a chain of courses is long; the stack for it is taken as unlimited. -/

namespace Curriculum

/-- The mandatory prerequisites of a course; a course without a readable requirement has none. -/
def mandatoryOf (expressions : Expressions) (id : String) : List String :=
  match Requirement.parse (expressions.textOf id) with
  | .ok r => r.grouping.mandatory.toList
  | .error _ => []

/-- The courses that are reached from the pending ones along mandatory prerequisites without passing
    through a course that was visited before, each course when it is first met. Only the courses of the
    map lead further. -/
def explore (expressions : Expressions) (visited : List String) : List String → List String
  | [] => []
  | id :: pending =>
    if id ∈ visited then explore expressions visited pending
    else if id ∈ expressions.keys then
      id :: explore expressions (id :: visited) (mandatoryOf expressions id ++ pending)
    else id :: explore expressions (id :: visited) pending
termination_by pending => (unseen expressions.keys visited, pending.length)
decreasing_by
  · exact Prod.Lex.right _ (Nat.lt_succ_self _)
  · next hv hk =>
    exact Prod.Lex.left _ _ (unseen_cons_lt hk hv)
  · rcases Nat.lt_or_eq_of_le (unseen_cons_le expressions.keys visited id) with h | h
    · exact Prod.Lex.left _ _ h
    · rw [h]
      exact Prod.Lex.right _ (Nat.lt_succ_self _)

/-- The courses that a course requires in the long run, and all courses that have been visited after
    looking for them, given those visited before. -/
def required (expressions : Expressions) (id : String) (visited : List String) : IdSet × IdSet :=
  let met := explore expressions visited [id]
  (.ofList (met.flatMap (mandatoryOf expressions)), .ofList (visited ++ met))

/-! ### Consistency -/

def Standing.completedIds : Standing → IdSet
  | .completed ids => .ofList ids
  | .statuses map => .ofList (map.keys.filter (Standing.statuses map).has)

/-- A completed course and what it requires that is not completed. -/
structure Inconsistency where
  courseId : String
  missing : IdSet

/-- What a course requires in the long run and the student has not completed. -/
def missingFor (expressions : Expressions) (standing : Standing) (id : String) : IdSet :=
  (required expressions id []).1.filter fun prerequisite => !standing.has prerequisite

/-- The completed courses with a requirement that is not completed, in order. -/
def inconsistencies (expressions : Expressions) (standing : Standing) : List Inconsistency :=
  (standing.completedIds.toList.map fun id => ⟨id, missingFor expressions standing id⟩).filter
    fun i => !i.missing.isEmpty

end Curriculum
