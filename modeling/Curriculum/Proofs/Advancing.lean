import Curriculum.Proofs.Consistency

/-! Students who take only courses that are open to them. What a completed course needs, also in the long run,
    was completed before it; so the record of such a student is consistent, and a course that needs itself in
    the long run stays out of reach. The report on the record walks the courses on a stack that is taken as unlimited. -/

namespace Curriculum

variable {m : Expressions} {id p : String}

/-! ### Records -/

/-- The standing of a student who has completed some courses, as a status for each of them. -/
def Standing.ofCompleted (ids : List String) : Standing :=
  .statuses (.ofList (ids.map fun id => (id, .str CourseStatus.completed.name)))

theorem Standing.has_ofCompleted {ids : List String} : (Standing.ofCompleted ids).has id = true ↔ id ∈ ids := by
  simp only [ofCompleted, has, OrderedMap.get?_ofList_const]
  by_cases h : id ∈ ids
  · simp [h, CourseStatus.isNamedBy]
  · simp [h]

/-! ### Advancing -/

/-- The courses of a student, the last one first. Each was new, and it was open to a student with the ones
    before it: it has no entry, or it is told to be eligible. -/
inductive Advances (m : Expressions) : List String → Prop
  | start : Advances m []
  | complete {done : List String} {id : String} : Advances m done → id ∉ done →
    (id ∉ m.keys ∨ m.Tells (Standing.completed done).has id true) → Advances m (id :: done)

section
variable {done : List String} (hm : m.Readable)
include hm

theorem mem_of_demands_open (h : id ∉ m.keys ∨ m.Tells (Standing.completed done).has id true) (hp : m.Demands id p) :
    p ∈ done := by
  have hmet : (m.requirementOf id).holds (Standing.completed done).has = true := by
    rcases h with hkey | htold
    · rw [Expressions.requirementOf_of_not_mem hkey]
      rfl
    · exact (hm.tells_iff.mp htold).2
  exact demands_iff_needs.mp hp done hmet

/-- What a completed course needs in the long run is completed, and it is another course. -/
theorem Advances.needed (h : Advances m done) :
    ∀ id ∈ done, ∀ p, Relation.TransGen m.Demands id p → p ∈ done ∧ p ≠ id := by
  induction h with
  | start => exact fun id hid => absurd hid List.not_mem_nil
  | @complete done new _ hnew hopen ih =>
    intro id hid p hp
    rcases List.mem_cons.mp hid with rfl | hid
    · -- The first course on the way was completed before, and so was all that it needs.
      obtain ⟨q, hq, hqp⟩ := Relation.TransGen.head'_iff.mp hp
      have hqdone := mem_of_demands_open hm hopen hq
      have hpdone : p ∈ done := by
        rcases Relation.reflTransGen_iff_eq_or_transGen.mp hqp with rfl | hqp
        · exact hqdone
        · exact (ih q hqdone p hqp).1
      exact ⟨List.mem_cons_of_mem _ hpdone, fun heq => hnew (heq ▸ hpdone)⟩
    · obtain ⟨hpdone, hne⟩ := ih id hid p hp
      exact ⟨List.mem_cons_of_mem _ hpdone, hne⟩

end

/-- At every point of such a student's way the eligibility can be told, the record is consistent, and every
    completed course has what it requires in the long run, which is not the course itself; so no course is
    completed that needs itself in the long run. -/
theorem consistent_of_advances {m : Expressions} (hm : m.Readable) {done : List String} (h : Advances m done) :
    (∃ told, (eligibility Reading.plain (Standing.completed done).has m).result = .ok told) ∧
    inconsistencies m (.ofCompleted done) = [] ∧
    (∀ id ∈ done, (∀ p ∈ (required m id []).1, p ∈ done) ∧ id ∉ (required m id []).1) ∧
    ∀ id, Relation.TransGen m.Demands id id → id ∉ done := by
  have hneeded := h.needed hm
  refine ⟨⟨_, hm.eligibility_result⟩, inconsistencies_eq_nil fun id hid p hp => ?_, fun id hid => ⟨fun p hp => ?_, ?_⟩, ?_⟩
  · have hdone := Standing.has_ofCompleted.mp hid
    exact Standing.has_ofCompleted.mpr (hneeded id hdone p (transGen_of_mem_required hp)).1
  · exact (hneeded id hid p (transGen_of_mem_required hp)).1
  · exact fun hself => (hneeded id hid id (transGen_of_mem_required hself)).2 rfl
  · exact fun id hcycle hid => (hneeded id hid id hcycle).2 rfl

/-- A student who takes three courses in a row, the last of which leaves a choice. -/
theorem consistent_of_advances_chain :
    ∃ m : Expressions, m = .ofList [("B", some "A"), ("C", some "B and (A or D)"), ("E", none)] ∧ m.Readable ∧
      Advances m ["C", "B", "A"] ∧ inconsistencies m (.ofCompleted ["C", "B", "A"]) = [] ∧
      "C" ∉ (required m "C" []).1 := by
  refine ⟨_, rfl, ?_⟩
  have hm : Expressions.Readable (.ofList [("B", some "A"), ("C", some "B and (A or D)"), ("E", none)]) := by
    decide +kernel
  have hadvances : Advances (.ofList [("B", some "A"), ("C", some "B and (A or D)"), ("E", none)]) ["C", "B", "A"] := by
    refine .complete (.complete (.complete .start (by decide) (.inl (by decide))) (by decide) (.inr ?_)) (by decide) (.inr ?_)
    · exact hm.tells_iff.mpr ⟨by decide, by decide +kernel⟩
    · exact hm.tells_iff.mpr ⟨by decide, by decide +kernel⟩
  obtain ⟨-, hconsistent, hrequired, -⟩ := consistent_of_advances hm hadvances
  exact ⟨hm, hadvances, hconsistent, (hrequired "C" (by decide)).2⟩

end Curriculum
