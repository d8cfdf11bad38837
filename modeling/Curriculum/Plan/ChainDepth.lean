import Curriculum.Plan.Unlocks
import Curriculum.Plan.Unseen

/-! How long a chain of courses can follow a course. Every course gets its depth once, after those that
    follow it; a course that is met again on the way down to it counts as the end of its chain. The way
    down nests as deep as the chain is long; the stack for it is taken as unlimited. -/

namespace Curriculum

mutual

/-- The depth of a course, and the depths known afterwards. The path holds the courses on the way down. -/
def depthOf (m : Dependents) (path : List String) (known : OrderedMap Nat) (id : String) : Nat × OrderedMap Nat :=
  match known.get? id with
  | some depth => (depth, known)
  | none =>
    if id ∈ path then (0, known)
    else if id ∈ m.keys ∧ m.of id ≠ [] then
      let (deepest, known) := deepestOf m (id :: path) known (m.of id)
      (deepest + 1, known.insert id (deepest + 1))
    else (0, known.insert id 0)
termination_by (unseen m.keys path, 0)
decreasing_by
  next hp hk =>
    exact Prod.Lex.left _ _ (unseen_cons_lt hk.1 hp)

/-- The greatest depth of some courses, and the depths known afterwards. -/
def deepestOf (m : Dependents) (path : List String) (known : OrderedMap Nat) : List String → Nat × OrderedMap Nat
  | [] => (0, known)
  | id :: rest =>
    let (depth, known) := depthOf m path known id
    let (deepest, known) := deepestOf m path known rest
    (max depth deepest, known)
termination_by ids => (unseen m.keys path, ids.length + 1)

end

/-- The depth of every course of the map, in the order in which the depths become known. -/
def chainDepths (m : Dependents) : OrderedMap Nat :=
  m.keys.foldl (fun known id => (depthOf m [] known id).2) ∅

/-- The depth of one course; a course outside the map ends its chain. -/
def chainDepth (m : Dependents) (id : String) : Nat :=
  ((chainDepths m).get? id).getD 0

end Curriculum
