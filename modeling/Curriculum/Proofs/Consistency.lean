import Curriculum.Proofs.Closure

/-! Consistent records. What a completed course requires in the long run is missing just where the student has
    not completed it, so the report names every completed course with something missing. Nothing is missing
    anywhere as soon as every completed course has its own mandatory prerequisites: the way from a completed
    course to one that is not completed has a first step out of the completed ones. The stack that the walks need is
    taken as unlimited. -/

namespace Curriculum

variable {m : Expressions} {standing : Standing} {id p : String}

/-! ### Completed courses -/

/-- The record gives the course the status of completed ones. -/
def Completed (record : OrderedMap Json) (id : String) : Prop := record.get? id = some (.str "completed")

theorem CourseStatus.isNamedBy_completed_iff {v : Json} : CourseStatus.completed.isNamedBy v = true ↔ v = .str "completed" := by
  cases v with
  | str s => rw [isNamedBy, decide_eq_true_iff, Json.str.injEq, name]
  | _ => simp [isNamedBy]

theorem Standing.has_statuses {record : OrderedMap Json} : (Standing.statuses record).has id = true ↔ Completed record id := by
  simp only [has, Option.any_eq_true, CourseStatus.isNamedBy_completed_iff, exists_eq_right, Completed]

theorem Standing.mem_completedIds : id ∈ standing.completedIds ↔ standing.has id = true := by
  cases standing with
  | completed ids => rw [completedIds, SortedSet.mem_ofList, has, List.contains_iff_mem]
  | statuses record =>
    rw [completedIds, SortedSet.mem_ofList, List.mem_filter, and_iff_right_iff_imp]
    intro h
    refine Decidable.byContradiction fun hid => ?_
    rw [has_statuses, Completed, OrderedMap.get?_eq_none_iff.mpr hid] at h
    cases h

/-! ### The report -/

theorem mem_missingFor_iff : p ∈ missingFor m standing id ↔
    Relation.TransGen m.Demands id p ∧ standing.has p ≠ true := by
  rw [missingFor, SortedSet.mem_filter, mem_required_nil_iff, Bool.not_eq_true', ne_eq, Bool.not_eq_true]

theorem mem_inconsistencies_iff {i : Inconsistency} : i ∈ inconsistencies m standing ↔
    standing.has i.courseId = true ∧ i.missing = missingFor m standing i.courseId ∧ i.missing ≠ ∅ := by
  simp only [inconsistencies, List.mem_filter, List.mem_map, SortedSet.mem_toList, Standing.mem_completedIds,
    Bool.not_eq_true', Bool.eq_false_iff, ne_eq, SortedSet.isEmpty_iff]
  constructor
  · rintro ⟨⟨id, hid, rfl⟩, hne⟩
    exact ⟨hid, rfl, hne⟩
  · rintro ⟨hid, hmissing, hne⟩
    exact ⟨⟨i.courseId, hid, by rw [← hmissing]⟩, hne⟩

theorem courseIds_increasing (m : Expressions) (standing : Standing) :
    ((inconsistencies m standing).map Inconsistency.courseId).Pairwise (· < ·) := by
  have hsub := (List.filter_sublist (l := standing.completedIds.toList.map fun id => ⟨id, missingFor m standing id⟩)
    (p := fun i => !i.missing.isEmpty)).map Inconsistency.courseId
  rw [List.map_map] at hsub
  refine List.Pairwise.sublist hsub ?_
  simpa [Function.comp_def] using standing.completedIds.increasing

theorem inconsistencies_eq_nil (h : ∀ id, standing.has id = true → ∀ p ∈ (required m id []).1, standing.has p = true) :
    inconsistencies m standing = [] := by
  refine List.eq_nil_iff_forall_not_mem.mpr fun i hi => ?_
  obtain ⟨hid, hmissing, hne⟩ := mem_inconsistencies_iff.mp hi
  refine hne (SortedSet.isEmpty_iff.mp (SortedSet.isEmpty_iff_forall.mpr fun p hp => ?_))
  rw [hmissing] at hp
  obtain ⟨hpath, hnot⟩ := mem_missingFor_iff.mp hp
  exact hnot (h i.courseId hid p (mem_required_nil_iff.mpr hpath))

/-- Where completed courses demand completed ones only, they lead to completed ones only. -/
theorem has_of_transGen (hlocal : ∀ id, standing.has id = true → ∀ p, m.Demands id p → standing.has p = true)
    (hid : standing.has id = true) (hpath : Relation.TransGen m.Demands id p) : standing.has p = true := by
  induction hpath with
  | single hp => exact hlocal id hid _ hp
  | tail _ hp ih => exact hlocal _ ih _ hp

theorem inconsistencies_eq_nil_iff : inconsistencies m standing = [] ↔
    ∀ id, standing.has id = true → ∀ p, m.Demands id p → standing.has p = true := by
  constructor
  · intro hnil id hid p hp
    refine Decidable.byContradiction fun hnot => ?_
    have hmissing : p ∈ missingFor m standing id := mem_missingFor_iff.mpr ⟨.single hp, hnot⟩
    have hne : missingFor m standing id ≠ ∅ := by
      intro hempty
      rw [hempty] at hmissing
      exact SortedSet.not_mem_empty hmissing
    have hmem : ⟨id, missingFor m standing id⟩ ∈ inconsistencies m standing := mem_inconsistencies_iff.mpr ⟨hid, rfl, hne⟩
    rw [hnil] at hmem
    exact List.not_mem_nil hmem
  · intro hlocal
    exact inconsistencies_eq_nil fun id hid p hp => has_of_transGen hlocal hid (mem_required_nil_iff.mp hp)

/-- A requirement that is met demands completed courses only. -/
theorem has_of_demands_of_holds {r : Requirement} (hr : Requirement.parse (m.textOf id) = .ok r)
    (hmet : r.holds standing.has = true) (hp : m.Demands id p) : standing.has p = true := by
  rw [Expressions.Demands, mandatoryOf_eq, Expressions.requirementOf_of_parse hr] at hp
  exact (Requirement.holds_iff_grouping.mp hmet).1 p hp

/-- A record has no inconsistency just if every completed course has all its own mandatory prerequisites
    completed; so it has none where every completed course has a requirement that can be read and is met. In any
    case the report names, in order and once, the completed courses that some course which is not completed can be
    reached from along mandatory prerequisites, each with the list of all such courses in order. -/
theorem consistency_is_local (m : Expressions) (record : OrderedMap Json) :
    (inconsistencies m (.statuses record) = [] ↔
      ∀ id, Completed record id → ∀ p ∈ mandatoryOf m id, Completed record p) ∧
    ((∀ id, Completed record id → ∃ r, Requirement.parse (m.textOf id) = .ok r ∧
        r.holds (Standing.statuses record).has = true) →
      inconsistencies m (.statuses record) = []) ∧
    ((inconsistencies m (.statuses record)).map Inconsistency.courseId).Pairwise (· < ·) ∧
    ∀ (id : String) (missing : List String),
      (∃ i ∈ inconsistencies m (.statuses record), i.courseId = id ∧ i.missing.toList = missing) ↔
        Completed record id ∧ missing ≠ [] ∧ missing.Pairwise (· < ·) ∧
          ∀ p, p ∈ missing ↔ Relation.TransGen m.Demands id p ∧ ¬Completed record p := by
  refine ⟨?_, fun h => ?_, courseIds_increasing m _, fun id missing => ?_⟩
  · rw [inconsistencies_eq_nil_iff]
    simp only [Standing.has_statuses]
    rfl
  · refine inconsistencies_eq_nil_iff.mpr fun id hid p hp => ?_
    obtain ⟨r, hr, hmet⟩ := h id (Standing.has_statuses.mp hid)
    exact has_of_demands_of_holds hr hmet hp
  · have hmem : ∀ p, p ∈ missingFor m (.statuses record) id ↔ Relation.TransGen m.Demands id p ∧ ¬Completed record p :=
      fun p => by rw [mem_missingFor_iff, ne_eq, Standing.has_statuses]
    constructor
    · rintro ⟨i, hi, rfl, rfl⟩
      obtain ⟨hid, hmissing, hne⟩ := mem_inconsistencies_iff.mp hi
      refine ⟨Standing.has_statuses.mp hid, fun hnil => hne ?_, i.missing.increasing, fun p => ?_⟩
      · exact SortedSet.isEmpty_iff.mp (List.isEmpty_iff.mpr hnil)
      · rw [SortedSet.mem_toList, hmissing, hmem]
    · rintro ⟨hid, hne, hsorted, hlist⟩
      have heq : (missingFor m (.statuses record) id).toList = missing :=
        eq_of_pairwise_lt (SortedSet.increasing _) hsorted fun p => (hmem p).trans (hlist p).symm
      refine ⟨⟨id, missingFor m (.statuses record) id⟩, mem_inconsistencies_iff.mpr ⟨?_, rfl, fun hempty => hne ?_⟩, rfl, heq⟩
      · exact Standing.has_statuses.mpr hid
      · exact heq.symm.trans (congrArg SortedSet.toList hempty)

/-- A completed course whose own prerequisite is completed but stands on a course that is not, and a record with
    nothing amiss. -/
theorem consistency_is_local_chain :
    ∃ m : Expressions, m = .ofList [("B", some "A"), ("C", some "B and (A or D)")] ∧
      (∃ i ∈ inconsistencies m (.statuses (.ofList [("C", .str "completed"), ("B", .str "completed")])),
        i.courseId = "C" ∧ i.missing.toList = ["A"]) ∧
      (∀ id, Completed (.ofList [("B", .str "completed"), ("A", .str "completed")]) id →
        ∃ r, Requirement.parse (m.textOf id) = .ok r ∧
          r.holds (Standing.statuses (.ofList [("B", .str "completed"), ("A", .str "completed")])).has = true) ∧
      inconsistencies m (.statuses (.ofList [("B", .str "completed"), ("A", .str "completed")])) = [] := by
  obtain ⟨m, hm⟩ : ∃ m : Expressions, m = .ofList [("B", some "A"), ("C", some "B and (A or D)")] := ⟨_, rfl⟩
  have hA : mandatoryOf m "A" = [] := by
    rw [hm]
    decide +kernel
  have hB : mandatoryOf m "B" = ["A"] := by
    rw [hm]
    decide +kernel
  have hC : mandatoryOf m "C" = ["B"] := by
    rw [hm]
    decide +kernel
  have hreached : ∀ p, Relation.TransGen m.Demands "C" p ↔ p = "B" ∨ p = "A" := by
    have hCB : m.Demands "C" "B" := by simp [Expressions.Demands, hC]
    have hBA : m.Demands "B" "A" := by simp [Expressions.Demands, hB]
    refine fun p => ⟨fun hpath => ?_, ?_⟩
    · induction hpath with
      | single hp => simpa [Expressions.Demands, hC] using Or.inl hp
      | tail _ hp ih =>
        rcases ih with rfl | rfl
        · exact Or.inr (by simpa [Expressions.Demands, hB] using hp)
        · simp [Expressions.Demands, hA] at hp
    · rintro (rfl | rfl)
      · exact .single hCB
      · exact .tail (.single hCB) hBA
  obtain ⟨-, -, -, hreport⟩ := consistency_is_local m (.ofList [("C", .str "completed"), ("B", .str "completed")])
  obtain ⟨-, hnone, -⟩ := consistency_is_local m (.ofList [("B", .str "completed"), ("A", .str "completed")])
  have hreadable : m.Readable := by
    rw [hm]
    decide +kernel
  have hmet : ∀ id, Completed (.ofList [("B", .str "completed"), ("A", .str "completed")]) id →
      ∃ r, Requirement.parse (m.textOf id) = .ok r ∧
        r.holds (Standing.statuses (.ofList [("B", .str "completed"), ("A", .str "completed")])).has = true := by
    intro id hid
    have hkeys : id ∈ ["B", "A"] := by
      refine Decidable.byContradiction fun hnot => ?_
      have hnone := OrderedMap.get?_ofList_const (Json.str "completed") id ["B", "A"]
      rw [if_neg hnot] at hnone
      cases hid.symm.trans hnone
    refine ⟨_, hreadable.parse_textOf id, ?_⟩
    simp only [List.mem_cons, List.not_mem_nil, or_false] at hkeys
    rcases hkeys with rfl | rfl
    · rw [hm]
      decide +kernel
    · rw [hm]
      decide +kernel
  refine ⟨m, hm, (hreport "C" ["A"]).mpr ⟨rfl, by decide, by decide, fun p => ?_⟩, hmet, hnone hmet⟩
  rw [hreached]
  constructor
  · intro hp
    rw [List.mem_singleton.mp hp]
    exact ⟨Or.inr rfl, fun h => by cases h⟩
  · rintro ⟨rfl | rfl, hnot⟩
    · exact absurd rfl hnot
    · exact List.mem_singleton_self "A"

end Curriculum
