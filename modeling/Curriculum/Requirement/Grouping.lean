import Curriculum.Requirement.Clauses

/-! The split of a requirement into the courses that every alternative needs and the groups that remain
    to choose from. -/

namespace Curriculum

/-- The mandatory courses of a requirement, and its alternatives without them. -/
structure Grouping where
  mandatory : IdSet
  groups : SortedSet IdSet
  deriving DecidableEq

namespace Grouping

def free : Grouping := ⟨∅, ∅⟩

/-- The grouping of a list of clauses. A clause that needs nothing frees the whole requirement; a clause
    of mandatory courses alone leaves no group. -/
def ofClauses : List IdSet → Grouping
  | [] => free
  | clause :: rest =>
    if (clause :: rest).any (·.isEmpty) then free else
      let mandatory := rest.foldl (· ∩ ·) clause
      ⟨mandatory, (SortedSet.ofList ((clause :: rest).map (· \ mandatory))).filter fun group => !group.isEmpty⟩

end Grouping

namespace Requirement

def grouping (r : Requirement) : Grouping := .ofClauses r.clauses

def groupingWithin (cap : Option Int) (r : Requirement) : Except ClauseLimit Grouping :=
  (r.clausesWithin cap).map .ofClauses

end Requirement
end Curriculum
