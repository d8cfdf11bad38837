import Curriculum.Requirement.Basic

/-! The alternatives of a requirement: each clause is a set of courses that are enough together. Under a
    cap the expansion stops as soon as some part of the requirement has too many clauses. Without one it
    goes on however many there are, as if memory were unlimited. -/

namespace Curriculum

/-- A cap that was exceeded, and by how many clauses. -/
structure ClauseLimit where
  limit : Int
  count : Nat
  deriving DecidableEq, Repr

def ClauseLimit.message (e : ClauseLimit) : String :=
  "Expression expands to " ++ toString e.count ++ " clauses (limit " ++ toString e.limit ++ ")"

/-- The cap that a number stands for; zero is none. -/
def clauseCap (limit : Option Int) : Option Int :=
  limit.filter (· ≠ 0)

namespace Requirement

/-- Every clause of the one list together with every clause of the other. -/
def products (left right : List IdSet) : List IdSet :=
  left.flatMap fun a => right.map fun b => a ∪ b

/-- The clauses of a requirement: one for each way to choose between the sides of its ORs, in the order of
    the sides, equal ones included. -/
def clauses : Requirement → List IdSet
  | .nothing => [∅]
  | .course id => [.singleton id]
  | .both l r => products l.clauses r.clauses
  | .either l r => l.clauses ++ r.clauses

def checkCap (cap : Option Int) (count : Nat) : Except ClauseLimit Unit :=
  match cap with
  | some limit => if limit < count then .error ⟨limit, count⟩ else .ok ()
  | none => .ok ()

/-- The clauses of a requirement under a cap, which is checked at every operator, the left operand first.
    The leaves are not checked. -/
def clausesWithin (cap : Option Int) : Requirement → Except ClauseLimit (List IdSet)
  | .nothing => .ok [∅]
  | .course id => .ok [.singleton id]
  | .both l r => do
    let left ← l.clausesWithin cap
    let right ← r.clausesWithin cap
    checkCap cap (left.length * right.length)
    return products left right
  | .either l r => do
    let left ← l.clausesWithin cap
    let right ← r.clausesWithin cap
    checkCap cap (left.length + right.length)
    return left ++ right

end Requirement
end Curriculum
