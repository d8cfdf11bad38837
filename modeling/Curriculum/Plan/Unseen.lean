/-! How many members of a list have not been seen yet: the measure by which a walk over finitely many
    courses comes to an end. -/

namespace Curriculum

/-- The number of members of a list that are not among the seen ones. -/
def unseen (all seen : List String) : Nat := all.countP (· ∉ seen)

theorem unseen_cons_le (all seen : List String) (id : String) : unseen all (id :: seen) ≤ unseen all seen :=
  List.countP_mono_left fun x _ hx => by
    simp only [decide_eq_true_eq, List.mem_cons, not_or] at hx ⊢
    exact hx.2

theorem unseen_cons_lt : ∀ {all seen : List String} {id : String}, id ∈ all → id ∉ seen →
    unseen all (id :: seen) < unseen all seen
  | a :: all, seen, id, hall, hseen => by
    by_cases ha : a = id
    · subst ha
      have hle := unseen_cons_le all seen a
      have hl : unseen (a :: all) (a :: seen) = unseen all (a :: seen) := by simp [unseen]
      have hr : unseen (a :: all) seen = unseen all seen + 1 := by simp [unseen, hseen]
      omega
    · have hlt := unseen_cons_lt ((List.mem_cons.mp hall).resolve_left (Ne.symm ha)) hseen
      have hl : unseen (a :: all) (id :: seen) = unseen all (id :: seen) + if a ∉ seen then 1 else 0 := by
        simp [unseen, List.countP_cons, ha]
      have hr : unseen (a :: all) seen = unseen all seen + if a ∉ seen then 1 else 0 := by
        simp [unseen, List.countP_cons]
      omega

end Curriculum
