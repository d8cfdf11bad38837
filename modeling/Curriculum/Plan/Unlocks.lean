import Curriculum.Eligibility

/-! What a completed course opens: the courses that refer to it, and those of them that a student may take
    for the first time. -/

namespace Curriculum

/-- For each course, the courses that refer to it. -/
abbrev Dependents := OrderedMap (List String)

namespace Dependents

def of (m : Dependents) (id : String) : List String := (m.get? id).getD []

section
variable {m : Dependents} {id dependent : String}

theorem of_eq_of_get? {listed : List String} (h : m.get? id = some listed) : m.of id = listed := by
  rw [of, h, Option.getD_some]

theorem of_eq_nil (h : id ∉ m.keys) : m.of id = [] := by
  rw [of, OrderedMap.get?_eq_none_iff.mpr h, Option.getD_none]

theorem mem_of_iff : dependent ∈ m.of id ↔ ∃ listed, m.get? id = some listed ∧ dependent ∈ listed := by
  unfold of
  cases m.get? id <;> simp

end

/-- The map with one more course that refers to a prerequisite; a course that is there already is not added
    again. -/
def add (m : Dependents) (prerequisite course : String) : Dependents :=
  let known := m.of prerequisite
  m.insert prerequisite (if known.contains course then known else known ++ [course])

/-- The map of the given requirements: each course is added to all the courses it refers to, in order. -/
def ofRequirements (rs : List (String × Requirement)) : Dependents :=
  rs.foldl (fun m (course, r) => r.courseIds.toList.foldl (fun m id => m.add id course) m) ∅

end Dependents

section
variable {σ : Type} (read : String → Reading σ Requirement)

/-- The requirements of some courses, read in order. -/
def readAll (expressions : Expressions) : List String → Reading σ (List (String × Requirement))
  | [] => return []
  | id :: rest => do
    let r ← read (expressions.textOf id)
    return (id, r) :: (← readAll expressions rest)

/-- For each course that some requirement refers to, the courses that do, in order. The courses are gone
    through in order, and so a course stands where its first dependent puts it. -/
def dependents (expressions : Expressions) : Reading σ Dependents :=
  return .ofRequirements (← readAll read expressions (SortedSet.ofList expressions.keys).toList)

/-- The courses among the given ones that are not completed and become open to a student by one more
    course. -/
def newlyEligibleAmong (id : String) (expressions : Expressions) (done : String → Bool) :
    List String → Reading σ (List String)
  | [] => return []
  | dependent :: rest =>
    if done dependent then newlyEligibleAmong id expressions done rest else do
      let r ← read (expressions.textOf dependent)
      let opens := !r.holds done && r.holds fun course => course = id || done course
      let others ← newlyEligibleAmong id expressions done rest
      return if opens then dependent :: others else others

/-- The courses that become open to a student by completing a course. -/
def newlyEligible (id : String) (m : Dependents) (expressions : Expressions) (done : String → Bool) :
    Reading σ (List String) :=
  newlyEligibleAmong read id expressions done (m.of id)

end

/-- The items before an index; a negative index counts from the end. -/
def takeTo {α : Type} (limit : Int) (items : List α) : List α :=
  items.take (if limit < 0 then limit + items.length else limit).toNat

/-- The first courses that refer to a course, as many as the limit says. -/
def directUnlocks (id : String) (m : Dependents) (limit : Int) : List String :=
  takeTo limit (m.of id)

end Curriculum
