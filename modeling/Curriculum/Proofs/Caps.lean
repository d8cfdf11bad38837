import Mathlib.Order.Lattice
import Mathlib.Algebra.Order.Ring.Int
import Curriculum.Proofs.Alternatives

/-! How many clauses a requirement has, and what a cap on their number does. No part of a requirement has
    more clauses than the whole, so checking the cap at every operator refuses just the requirements that have
    too many clauses in the end. The refusal is about the first part with too many. The operands of that part
    were within the cap, which bounds the number of clauses that is told by the cap alone. -/

namespace Curriculum.Requirement

variable {m : Int} {s t l r : Requirement}

/-! ### Counting -/

def clauseCount : Requirement → Nat
  | .nothing | .course _ => 1
  | .both l r => l.clauseCount * r.clauseCount
  | .either l r => l.clauseCount + r.clauseCount

/-- The requirement and all its operands, theirs and so on: first those of the left operand, then those of
    the right one, then the requirement itself. -/
def parts : Requirement → List Requirement
  | .nothing => [.nothing]
  | .course id => [.course id]
  | .both l r => l.parts ++ (r.parts ++ [.both l r])
  | .either l r => l.parts ++ (r.parts ++ [.either l r])

theorem length_products (a b : List IdSet) : (products a b).length = a.length * b.length := by
  induction a with
  | nil => simp [products]
  | cons x a ih =>
    have hcons : products (x :: a) b = b.map (x ∪ ·) ++ products a b := rfl
    rw [hcons, List.length_append, List.length_map, ih, List.length_cons, Nat.succ_mul, Nat.add_comm]

theorem length_clauses (t : Requirement) : t.clauses.length = t.clauseCount := by
  induction t with
  | nothing | course id => rfl
  | both l r ihl ihr => rw [clauses, length_products, ihl, ihr, clauseCount]
  | either l r ihl ihr => rw [clauses, List.length_append, ihl, ihr, clauseCount]

theorem clauseCount_pos (t : Requirement) : 0 < t.clauseCount := by
  rw [← length_clauses]
  exact List.length_pos_iff.mpr t.clauses_ne_nil

theorem self_mem_parts (t : Requirement) : t ∈ t.parts := by
  cases t <;> simp [parts]

/-- An operator has at least as many clauses as each of its operands. -/
theorem clauseCount_le_of_mem_parts (h : s ∈ t.parts) : s.clauseCount ≤ t.clauseCount := by
  induction t with
  | nothing | course id => rw [List.mem_singleton.mp h]
  | both l r ihl ihr =>
    simp only [parts, List.mem_append, List.mem_singleton] at h
    rcases h with h | h | rfl
    · exact (ihl h).trans (Nat.le_mul_of_pos_right _ r.clauseCount_pos)
    · exact (ihr h).trans (Nat.le_mul_of_pos_left _ l.clauseCount_pos)
    · exact Nat.le_refl _
  | either l r ihl ihr =>
    simp only [parts, List.mem_append, List.mem_singleton] at h
    rcases h with h | h | rfl
    · exact (ihl h).trans (Nat.le_add_right _ _)
    · exact (ihr h).trans (Nat.le_add_left _ _)
    · exact Nat.le_refl _

/-! ### The first part with too many clauses -/

/-- The first part, in their order, that has more clauses than the cap. -/
def firstExcess? (m : Int) (t : Requirement) : Option Requirement :=
  t.parts.find? fun s => m < s.clauseCount

theorem firstExcess?_eq_none_iff : t.firstExcess? m = none ↔ (t.clauseCount : Int) ≤ m := by
  simp only [firstExcess?, List.find?_eq_none, decide_eq_true_eq, not_lt]
  exact ⟨fun h => h t t.self_mem_parts, fun h s hs => (Int.ofNat_le.mpr (clauseCount_le_of_mem_parts hs)).trans h⟩

theorem firstExcess?_eq_some_iff : t.firstExcess? m = some s ↔ m < s.clauseCount ∧
    ∃ before after, t.parts = before ++ s :: after ∧ ∀ p ∈ before, (p.clauseCount : Int) ≤ m := by
  simp only [firstExcess?, List.find?_eq_some_iff_append, decide_eq_true_eq, Bool.not_eq_true',
    decide_eq_false_iff_not, not_lt]

theorem exists_firstExcess? (h : m < t.clauseCount) : ∃ s, t.firstExcess? m = some s := by
  cases hs : t.firstExcess? m with
  | some s => exact ⟨s, rfl⟩
  | none => exact absurd (firstExcess?_eq_none_iff.mp hs) (not_le.mpr h)

theorem firstExcess?_leaf (hm : 1 ≤ m) (ht : t.clauseCount = 1) : t.firstExcess? m = none := by
  rw [firstExcess?_eq_none_iff, ht]
  exact hm

theorem firstExcess?_both : (both l r).firstExcess? m = (l.firstExcess? m).or ((r.firstExcess? m).or
    (if m < (both l r).clauseCount then some (both l r) else none)) := by
  simp only [firstExcess?, parts, List.find?_append, List.find?_singleton, decide_eq_true_eq]

theorem firstExcess?_either : (either l r).firstExcess? m = (l.firstExcess? m).or ((r.firstExcess? m).or
    (if m < (either l r).clauseCount then some (either l r) else none)) := by
  simp only [firstExcess?, parts, List.find?_append, List.find?_singleton, decide_eq_true_eq]

/-- The first part with too many clauses stands in an operand, or it is the operator and its operands are within
    the cap. -/
theorem firstExcess?_operator_cases (h : (l.firstExcess? m).or ((r.firstExcess? m).or
    (if m < t.clauseCount then some t else none)) = some s) :
    l.firstExcess? m = some s ∨ r.firstExcess? m = some s ∨
      s = t ∧ (l.clauseCount : Int) ≤ m ∧ (r.clauseCount : Int) ≤ m := by
  rw [Option.or_eq_some_iff, Option.or_eq_some_iff] at h
  rcases h with h | ⟨hl, h | ⟨hr, h⟩⟩
  · exact Or.inl h
  · exact Or.inr (Or.inl h)
  · split at h
    · exact Or.inr (Or.inr ⟨(Option.some.inj h).symm, firstExcess?_eq_none_iff.mp hl, firstExcess?_eq_none_iff.mp hr⟩)
    · cases h

theorem clauseCount_le_of_firstExcess (hm : 1 ≤ m) (h : t.firstExcess? m = some s) :
    (s.clauseCount : Int) ≤ max (2 * m) (m * m) := by
  induction t with
  | nothing | course id =>
    rw [firstExcess?_leaf hm rfl] at h
    cases h
  | both l r ihl ihr =>
    rw [firstExcess?_both] at h
    rcases firstExcess?_operator_cases h with h | h | ⟨rfl, hl, hr⟩
    · exact ihl h
    · exact ihr h
    · refine le_max_of_le_right ?_
      rw [clauseCount, Int.natCast_mul]
      exact Int.mul_le_mul hl hr (Int.natCast_nonneg _) (by omega)
  | either l r ihl ihr =>
    rw [firstExcess?_either] at h
    rcases firstExcess?_operator_cases h with h | h | ⟨rfl, hl, hr⟩
    · exact ihl h
    · exact ihr h
    · refine le_max_of_le_left ?_
      rw [clauseCount]
      omega

/-! ### Under a cap -/

/-- What the check of an operator makes of its clauses. -/
theorem checkCap_bind {count : Nat} (ht : t.clauseCount = count) (cs : List IdSet) :
    (checkCap (some m) count >>= fun _ => .ok cs) =
      match if m < t.clauseCount then some t else none with
      | some s => .error ⟨m, s.clauseCount⟩
      | none => .ok cs := by
  subst ht
  rw [checkCap]
  by_cases h : m < t.clauseCount
  · rw [if_pos h, if_pos h]
    rfl
  · rw [if_neg h, if_neg h]
    rfl

/-- The expansion under a cap refuses the first part with too many clauses, and it is the whole expansion where
    there is none. -/
theorem clausesWithin_eq (hm : 1 ≤ m) (t : Requirement) :
    t.clausesWithin (some m) = match t.firstExcess? m with
      | some s => .error ⟨m, s.clauseCount⟩
      | none => .ok t.clauses := by
  induction t with
  | nothing | course id =>
    rw [firstExcess?_leaf hm rfl]
    rfl
  | both l r ihl ihr | either l r ihl ihr =>
    simp only [clausesWithin, ihl, firstExcess?_both, firstExcess?_either]
    cases l.firstExcess? m with
    | some _ => rfl
    | none =>
      rw [ok_bind, ihr]
      cases r.firstExcess? m with
      | some _ => rfl
      | none =>
        rw [ok_bind, length_clauses, length_clauses, Option.none_or, Option.none_or]
        exact checkCap_bind (by rfl) _

theorem groupingWithin_eq_error_iff (hm : 1 ≤ m) {e : ClauseLimit} :
    t.groupingWithin (some m) = .error e ↔ ∃ s, t.firstExcess? m = some s ∧ e = ⟨m, s.clauseCount⟩ := by
  rw [groupingWithin, clausesWithin_eq hm]
  cases t.firstExcess? m with
  | none =>
    constructor
    · intro h
      cases h
    · rintro ⟨s, hs, -⟩
      cases hs
  | some s => simp [Except.map, eq_comm]

theorem groupingWithin_of_le (hm : 1 ≤ m) (h : (t.clauseCount : Int) ≤ m) :
    t.groupingWithin (some m) = .ok t.grouping := by
  rw [groupingWithin, clausesWithin_eq hm, firstExcess?_eq_none_iff.mpr h]
  rfl

/-- Under a cap the grouping is refused just if the requirement has more clauses than that, and otherwise it is
    what it is without a cap. The refusal tells the cap and the number of clauses of the first part that has too
    many, which the cap bounds. -/
theorem cap_refuses_first_excess (t : Requirement) (m : Int) (hm : 1 ≤ m) :
    ((∃ e, t.groupingWithin (clauseCap (some m)) = .error e) ↔ m < t.clauseCount) ∧
    (t.clauseCount ≤ m → t.groupingWithin (clauseCap (some m)) = t.groupingWithin (clauseCap none)) ∧
    t.groupingWithin (clauseCap none) = .ok t.grouping ∧
    ∀ e, t.groupingWithin (clauseCap (some m)) = .error e → ∃ before s after,
      t.parts = before ++ s :: after ∧ (∀ p ∈ before, (p.clauseCount : Int) ≤ m) ∧ m < s.clauseCount ∧
      e = ⟨m, s.clauseCount⟩ ∧ (e.count : Int) ≤ max (2 * m) (m * m) := by
  have hcap : clauseCap (some m) = some m := by
    simp only [clauseCap, Option.filter_some, decide_eq_true_eq]
    exact if_pos (by omega)
  have hnone : t.groupingWithin (clauseCap none) = .ok t.grouping := t.groupingWithin_none
  rw [hcap]
  refine ⟨⟨fun ⟨e, he⟩ => ?_, fun h => ?_⟩, fun h => ?_, hnone, fun e he => ?_⟩
  · refine not_le.mp fun hle => ?_
    rw [groupingWithin_of_le hm hle] at he
    cases he
  · obtain ⟨s, hs⟩ := exists_firstExcess? h
    exact ⟨_, (groupingWithin_eq_error_iff hm).mpr ⟨s, hs, rfl⟩⟩
  · rw [groupingWithin_of_le hm h, hnone]
  · obtain ⟨s, hs, rfl⟩ := (groupingWithin_eq_error_iff hm).mp he
    obtain ⟨hlt, before, after, hparts, hbefore⟩ := firstExcess?_eq_some_iff.mp hs
    exact ⟨before, s, after, hparts, hbefore, hlt, rfl, clauseCount_le_of_firstExcess hm hs⟩

/-- The left operand is refused before all five clauses are there. -/
theorem cap_refuses_first_excess_inside :
    ∃ t : Requirement, t = .either (.both (.either (.course "A") (.course "B")) (.either (.course "C") (.course "D")))
        (.course "E") ∧
      (1 : Int) ≤ 3 ∧ t.clauseCount = 5 ∧ ∃ e, t.groupingWithin (clauseCap (some 3)) = .error e ∧ e = ⟨3, 4⟩ ∧
      ∃ before s after, t.parts = before ++ s :: after ∧ (∀ p ∈ before, (p.clauseCount : Int) ≤ 3) ∧
        e = ⟨3, s.clauseCount⟩ := by
  refine ⟨_, rfl, by decide, rfl, ?_⟩
  obtain ⟨hrefused, -, -, hfirst⟩ := cap_refuses_first_excess (.either (.both (.either (.course "A") (.course "B"))
    (.either (.course "C") (.course "D"))) (.course "E")) 3 (by decide)
  obtain ⟨e, he⟩ := hrefused.mpr (by decide)
  obtain ⟨before, s, after, hparts, hbefore, -, hs, -⟩ := hfirst e he
  exact ⟨e, he, (Except.error.inj he).symm, before, s, after, hparts, hbefore, hs⟩

end Curriculum.Requirement
