import Mathlib.Data.Set.Function
import Curriculum.Proofs.Rewriting

/-! Groups and clauses belong together one to one. A group is a clause without the mandatory courses, and
    with them it is that clause again. So no clause is lost but the one of mandatory courses alone, which
    leaves nothing to choose, and two clauses never become the same group. -/

namespace Curriculum.Requirement

variable {t : Requirement} {c g : IdSet}

theorem ne_empty_of_mem_groups (hg : g ∈ t.grouping.groups) : g ≠ ∅ := by
  obtain ⟨-, he, -⟩ := mem_groups.mp hg
  rintro rfl
  cases he

theorem not_mem_mandatory_of_mem_group (hg : g ∈ t.grouping.groups) : ∀ id ∈ g, id ∉ t.grouping.mandatory := by
  obtain ⟨-, -, c, -, rfl⟩ := mem_groups.mp hg
  exact fun id hid => (SortedSet.mem_sdiff.mp hid).2

/-- What a group needs is left of the clause when the mandatory courses are taken away. -/
theorem sdiff_of_mem_groups (hg : g ∈ t.grouping.groups) :
    (t.grouping.mandatory ∪ g) \ t.grouping.mandatory = g :=
  SortedSet.union_sdiff_cancel_left (not_mem_mandatory_of_mem_group hg)

theorem union_mem_clauses_of_mem_groups (hg : g ∈ t.grouping.groups) : t.grouping.mandatory ∪ g ∈ t.clauses := by
  obtain ⟨-, -, c, hc, rfl⟩ := mem_groups.mp hg
  rw [← eq_mandatory_union_residual hc]
  exact hc

theorem union_ne_mandatory_of_mem_groups (hg : g ∈ t.grouping.groups) :
    t.grouping.mandatory ∪ g ≠ t.grouping.mandatory := by
  intro h
  refine ne_empty_of_mem_groups hg ?_
  calc g = (t.grouping.mandatory ∪ g) \ t.grouping.mandatory := (sdiff_of_mem_groups hg).symm
    _ = t.grouping.mandatory \ t.grouping.mandatory := by rw [h]
    _ = ∅ := SortedSet.ext fun id => by simp

/-- Every clause with a course that is not mandatory leaves a group. -/
theorem residual_mem_groups (hne : ∅ ∉ t.clauses) (hc : c ∈ t.clauses) (hm : c ≠ t.grouping.mandatory) :
    c \ t.grouping.mandatory ∈ t.grouping.groups := by
  refine mem_groups.mpr ⟨fun d hd => Bool.eq_false_iff.mpr fun he => ?_, Bool.eq_false_iff.mpr fun he => ?_, c, hc, rfl⟩
  · exact hne (SortedSet.isEmpty_iff.mp he ▸ hd)
  · exact hm (eq_mandatory_of_residual hc he)

/-- The groups, each with the mandatory courses, are the clauses with more than the mandatory courses. -/
theorem bijOn_groups (hne : ∅ ∉ t.clauses) :
    Set.BijOn (fun g => t.grouping.mandatory ∪ g) {g | g ∈ t.grouping.groups}
      {c | c ∈ t.clauses ∧ c ≠ t.grouping.mandatory} := by
  refine ⟨fun g hg => ?_, fun g hg g' hg' heq => ?_, fun c ⟨hc, hm⟩ => ?_⟩
  · exact ⟨union_mem_clauses_of_mem_groups hg, union_ne_mandatory_of_mem_groups hg⟩
  · have hsame : t.grouping.mandatory ∪ g = t.grouping.mandatory ∪ g' := heq
    rw [← sdiff_of_mem_groups hg, hsame, sdiff_of_mem_groups hg']
  · exact ⟨_, residual_mem_groups hne hc hm, (eq_mandatory_union_residual hc).symm⟩

/-- Where the mandatory courses are not enough, the groups have no course in common. -/
theorem exists_group_without (hne : ∅ ∉ t.clauses) (hm : t.grouping.mandatory ∉ t.clauses) (id : String) :
    ∃ g ∈ t.grouping.groups, id ∉ g := by
  have hclause : ∃ c ∈ t.clauses, id ∉ c \ t.grouping.mandatory := by
    by_cases hid : id ∈ t.grouping.mandatory
    · obtain ⟨c, hc⟩ := List.exists_mem_of_ne_nil _ t.clauses_ne_nil
      exact ⟨c, hc, fun h => (SortedSet.mem_sdiff.mp h).2 hid⟩
    · rw [mem_mandatory] at hid
      push Not at hid
      obtain ⟨c, hc, hnot⟩ := hid
      exact ⟨c, hc, fun h => hnot (SortedSet.mem_sdiff.mp h).1⟩
  obtain ⟨c, hc, hid⟩ := hclause
  exact ⟨_, residual_mem_groups hne hc fun heq => hm (heq ▸ hc), hid⟩

/-- Where every clause needs something, the groups stand for the clauses one by one, up to the clause of
    mandatory courses alone. They are listed in order, each in order, none is empty and none comes twice; no
    group names a mandatory course, and no course is in all groups unless the mandatory courses are enough.
    Where some clause needs nothing, nothing is mandatory and there is no group. -/
theorem groups_match_clauses (t : Requirement) :
    (∅ ∉ t.clauses →
      Set.BijOn (fun g => t.grouping.mandatory ∪ g) {g | g ∈ t.grouping.groups}
        {c | c ∈ t.clauses ∧ c ≠ t.grouping.mandatory} ∧
      (∀ g ∈ t.grouping.groups, g ≠ ∅ ∧ g.toList.Pairwise (· < ·) ∧ ∀ id ∈ g, id ∉ t.grouping.mandatory) ∧
      (t.grouping.groups.toList.map SortedSet.toList).Pairwise (List.Lex (· < ·)) ∧
      t.grouping.groups.toList.Nodup ∧
      (t.grouping.mandatory ∉ t.clauses → ∀ id, ∃ g ∈ t.grouping.groups, id ∉ g)) ∧
    (∅ ∈ t.clauses → t.grouping.mandatory.toList = [] ∧ t.grouping.groups.toList = []) := by
  refine ⟨fun hne => ⟨bijOn_groups hne, fun g hg => ?_, ?_, t.grouping.groups.nodup, ?_⟩, fun hempty => ?_⟩
  · exact ⟨ne_empty_of_mem_groups hg, g.increasing, not_mem_mandatory_of_mem_group hg⟩
  · exact List.pairwise_map.mpr t.grouping.groups.increasing
  · exact exists_group_without hne
  · have hfree : t.grouping = Grouping.free := Grouping.ofClauses_of_empty ⟨∅, hempty, rfl⟩
    rw [hfree]
    exact ⟨rfl, rfl⟩

/-- One course for all and three alternatives, one of which goes on from another. -/
theorem groups_match_clauses_three :
    ∃ t : Requirement,
      t = .both (.course "A") (.either (.both (.course "D") (.course "B")) (.either (.course "C") (.course "B"))) ∧
      ∅ ∉ t.clauses ∧ t.grouping.mandatory ∉ t.clauses ∧
      t.grouping.groups.toList.map SortedSet.toList = [["B"], ["B", "D"], ["C"]] ∧
      Set.BijOn (fun g => t.grouping.mandatory ∪ g) {g | g ∈ t.grouping.groups}
        {c | c ∈ t.clauses ∧ c ≠ t.grouping.mandatory} ∧
      ∃ g ∈ t.grouping.groups, "B" ∉ g := by
  refine ⟨_, rfl, ?_⟩
  have hne : ∅ ∉ (both (.course "A")
      (.either (.both (.course "D") (.course "B")) (.either (.course "C") (.course "B")))).clauses := by decide
  obtain ⟨hbij, -, -, -, hcommon⟩ := (groups_match_clauses _).1 hne
  exact ⟨hne, by decide, by decide, hbij, hcommon (by decide) "B"⟩

end Curriculum.Requirement
