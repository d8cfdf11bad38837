import Curriculum.Proofs.Alternatives
import Mathlib.Data.Fintype.EquivFin
import Mathlib.Logic.Relation

/-! How the grouping of a requirement depends on the way in which it is written. The grouping is determined
    by the set of clauses, whatever their order and number. So it does not change where operands of one
    operator change their order or nesting, where an alternative is repeated, where an AND is distributed
    over an OR, and where nothing is added to a requirement. It may change where an operand of an AND is
    repeated, since clauses of the one copy then meet other clauses of the second. -/

namespace Curriculum

namespace Requirement

/-! ### Places -/

/-- A place in a requirement, told by what stands around it. -/
inductive Place
  | whole
  | leftOfBoth (place : Place) (right : Requirement)
  | rightOfBoth (left : Requirement) (place : Place)
  | leftOfEither (place : Place) (right : Requirement)
  | rightOfEither (left : Requirement) (place : Place)

/-- The requirement that has the given one at a place. -/
def Place.fill : Place → Requirement → Requirement
  | .whole, x => x
  | .leftOfBoth p r, x => .both (p.fill x) r
  | .rightOfBoth l p, x => .both l (p.fill x)
  | .leftOfEither p r, x => .either (p.fill x) r
  | .rightOfEither l p, x => .either l (p.fill x)

section
variable {x y : Requirement}

theorem mem_clauses_both {c : IdSet} : c ∈ (both x y).clauses ↔ ∃ a ∈ x.clauses, ∃ b ∈ y.clauses, a ∪ b = c :=
  mem_products

theorem mem_clauses_either {c : IdSet} : c ∈ (either x y).clauses ↔ c ∈ x.clauses ∨ c ∈ y.clauses :=
  List.mem_append

theorem products_subset {a a' b b' : List IdSet} (ha : a ⊆ a') (hb : b ⊆ b') : products a b ⊆ products a' b' := by
  intro c hc
  obtain ⟨s, hs, t, ht, rfl⟩ := mem_products.mp hc
  exact mem_products.mpr ⟨s, ha hs, t, hb ht, rfl⟩

theorem append_subset_append {a a' b b' : List IdSet} (ha : a ⊆ a') (hb : b ⊆ b') : a ++ b ⊆ a' ++ b' :=
  List.append_subset.mpr
    ⟨List.Subset.trans ha (List.subset_append_left a' b'), List.Subset.trans hb (List.subset_append_right a' b')⟩

/-- More clauses at a place make more clauses of the whole. -/
theorem Place.clauses_fill_subset (p : Place) (h : x.clauses ⊆ y.clauses) :
    (p.fill x).clauses ⊆ (p.fill y).clauses := by
  induction p with
  | whole => exact h
  | leftOfBoth p r ih => exact products_subset ih (List.Subset.refl _)
  | rightOfBoth l p ih => exact products_subset (List.Subset.refl _) ih
  | leftOfEither p r ih => exact append_subset_append ih (List.Subset.refl _)
  | rightOfEither l p ih => exact append_subset_append (List.Subset.refl _) ih

theorem Place.holds_fill (p : Place) {done : String → Bool} (h : x.holds done = y.holds done) :
    (p.fill x).holds done = (p.fill y).holds done := by
  induction p with
  | whole => exact h
  | leftOfBoth p r ih | rightOfBoth l p ih | leftOfEither p r ih | rightOfEither l p ih => simp only [fill, holds, ih]

end

/-! ### The same clauses -/

theorem mem_groups {t : Requirement} {g : IdSet} : g ∈ t.grouping.groups ↔
    (∀ c ∈ t.clauses, c.isEmpty = false) ∧ g.isEmpty = false ∧ ∃ c ∈ t.clauses, c \ t.grouping.mandatory = g :=
  Grouping.mem_groups

/-- Both requirements have the same set of clauses. -/
def SameClauses (x y : Requirement) : Prop := ∀ c, c ∈ x.clauses ↔ c ∈ y.clauses

namespace SameClauses
variable {x y : Requirement}

theorem of_subset (h : x.clauses ⊆ y.clauses) (h' : y.clauses ⊆ x.clauses) : SameClauses x y :=
  fun _ => ⟨fun hc => h hc, fun hc => h' hc⟩

theorem fill (h : SameClauses x y) (p : Place) : SameClauses (p.fill x) (p.fill y) :=
  of_subset (p.clauses_fill_subset fun c hc => (h c).mp hc) (p.clauses_fill_subset fun c hc => (h c).mpr hc)

/-- The grouping sees the set of clauses only. -/
theorem grouping_eq (h : SameClauses x y) : x.grouping = y.grouping := by
  have hmandatory : x.grouping.mandatory = y.grouping.mandatory := by
    refine SortedSet.ext fun id => ?_
    rw [mem_mandatory, mem_mandatory]
    simp only [h _]
  have hgroups : x.grouping.groups = y.grouping.groups := by
    refine SortedSet.ext fun g => ?_
    rw [mem_groups, mem_groups, hmandatory]
    simp only [h _]
  calc x.grouping = ⟨x.grouping.mandatory, x.grouping.groups⟩ := rfl
    _ = ⟨y.grouping.mandatory, y.grouping.groups⟩ := by rw [hmandatory, hgroups]
    _ = y.grouping := rfl

end SameClauses

/-! ### Rewriting -/

/-- Ways to write a requirement differently. -/
inductive Rule : Requirement → Requirement → Prop
  | both_comm (x y : Requirement) : Rule (.both x y) (.both y x)
  | either_comm (x y : Requirement) : Rule (.either x y) (.either y x)
  | both_assoc (x y z : Requirement) : Rule (.both (.both x y) z) (.both x (.both y z))
  | either_assoc (x y z : Requirement) : Rule (.either (.either x y) z) (.either x (.either y z))
  | either_self (x : Requirement) : Rule x (.either x x)
  | both_either (x y z : Requirement) : Rule (.both x (.either y z)) (.either (.both x y) (.both x z))
  | both_nothing (x : Requirement) : Rule x (.both x .nothing)

/-- One use of a rule at some place. -/
inductive Rewrite : Requirement → Requirement → Prop
  | inside (p : Place) {x y : Requirement} : Rule x y → Rewrite (p.fill x) (p.fill y)

/-- The one requirement comes from the other by uses of rules, each in either direction. -/
abbrev Rewritten : Requirement → Requirement → Prop := Relation.EqvGen Rewrite

theorem Rule.sameClauses {x y : Requirement} (h : Rule x y) : SameClauses x y := by
  cases h with
  | both_comm x y =>
    have hswap : ∀ x y : Requirement, (both x y).clauses ⊆ (both y x).clauses := by
      intro x y c hc
      obtain ⟨a, ha, b, hb, rfl⟩ := mem_clauses_both.mp hc
      exact mem_clauses_both.mpr ⟨b, hb, a, ha, SortedSet.union_comm b a⟩
    exact .of_subset (hswap x y) (hswap y x)
  | either_comm x y => exact fun c => by rw [mem_clauses_either, mem_clauses_either, or_comm]
  | both_assoc x y z =>
    intro c
    constructor
    · intro hc
      obtain ⟨ab, hab, d, hd, rfl⟩ := mem_clauses_both.mp hc
      obtain ⟨a, ha, b, hb, rfl⟩ := mem_clauses_both.mp hab
      exact mem_clauses_both.mpr ⟨a, ha, b ∪ d, mem_clauses_both.mpr ⟨b, hb, d, hd, rfl⟩,
        (SortedSet.union_assoc a b d).symm⟩
    · intro hc
      obtain ⟨a, ha, bd, hbd, rfl⟩ := mem_clauses_both.mp hc
      obtain ⟨b, hb, d, hd, rfl⟩ := mem_clauses_both.mp hbd
      exact mem_clauses_both.mpr ⟨a ∪ b, mem_clauses_both.mpr ⟨a, ha, b, hb, rfl⟩, d, hd,
        SortedSet.union_assoc a b d⟩
  | either_assoc x y z => exact fun c => by simp only [mem_clauses_either, or_assoc]
  | either_self => exact fun c => by rw [mem_clauses_either, or_self]
  | both_either x y z =>
    intro c
    simp only [mem_clauses_either, mem_clauses_both, or_and_right, exists_or, and_or_left]
  | both_nothing => exact fun c => by simp [mem_clauses_both, clauses.eq_def nothing]

/-- However a requirement is rewritten, its grouping stays the same. -/
theorem grouping_eq_of_rewritten (t t' : Requirement) (h : Rewritten t t') : t'.grouping = t.grouping := by
  induction h with
  | rel t t' h =>
    obtain ⟨p, hr⟩ := h
    exact (hr.sameClauses.fill p).grouping_eq.symm
  | refl t => rfl
  | symm t t' _ ih => exact ih.symm
  | trans t t' t'' _ _ ih ih' => exact ih'.trans ih

/-- Distributing an AND, changing the order inside and dropping a repeated alternative. -/
theorem grouping_eq_of_rewritten_distributed :
    Rewritten (.both (.course "A") (.either (.course "B") (.either (.course "C") (.course "C"))))
        (.either (.both (.course "B") (.course "A")) (.both (.course "A") (.course "C"))) ∧
      (Requirement.either (.both (.course "B") (.course "A")) (.both (.course "A") (.course "C"))).grouping =
        (Requirement.both (.course "A") (.either (.course "B") (.either (.course "C") (.course "C")))).grouping := by
  have h : Rewritten (.both (.course "A") (.either (.course "B") (.either (.course "C") (.course "C"))))
      (.either (.both (.course "B") (.course "A")) (.both (.course "A") (.course "C"))) := by
    refine .trans _ (.both (.course "A") (.either (.course "B") (.course "C"))) _ (.symm _ _ (.rel _ _ ?_)) ?_
    · exact .inside (.rightOfBoth (.course "A") (.rightOfEither (.course "B") .whole)) (.either_self (.course "C"))
    · refine .trans _ _ _ (.rel _ _ (.inside .whole (.both_either _ _ _))) (.rel _ _ ?_)
      exact .inside (.leftOfEither .whole _) (.both_comm _ _)
  exact ⟨h, grouping_eq_of_rewritten _ _ h⟩

/-! ### Repeated operands -/

section
variable {x : Requirement}

theorem holds_both_self (x : Requirement) (done : String → Bool) : (both x x).holds done = x.holds done :=
  Bool.and_self _

theorem clauses_subset_both_self (x : Requirement) : x.clauses ⊆ (both x x).clauses :=
  fun c hc => mem_clauses_both.mpr ⟨c, hc, c, hc, SortedSet.union_self c⟩

/-- A clause that needs nothing is one that everybody completes. -/
theorem exists_isEmpty_iff_holds {t : Requirement} :
    (∃ c ∈ t.clauses, c.isEmpty = true) ↔ t.holds (fun _ => false) = true := by
  rw [holds_iff_clause]
  simp [SortedSet.isEmpty_iff_forall, Completes]

theorem mem_courseIds_of_clause {c : IdSet} {id : String} (hc : c ∈ x.clauses) (hid : id ∈ c) : id ∈ x.courseIds := by
  induction x generalizing c with
  | nothing =>
    rw [List.mem_singleton.mp hc] at hid
    exact absurd hid SortedSet.not_mem_empty
  | course _ =>
    rw [List.mem_singleton.mp hc] at hid
    exact hid
  | both l r ihl ihr =>
    obtain ⟨a, ha, b, hb, rfl⟩ := mem_clauses_both.mp hc
    rcases SortedSet.mem_union.mp hid with hid | hid
    · exact SortedSet.mem_union.mpr (Or.inl (ihl ha hid))
    · exact SortedSet.mem_union.mpr (Or.inr (ihr hb hid))
  | either l r ihl ihr =>
    rcases mem_clauses_either.mp hc with hc | hc
    · exact SortedSet.mem_union.mpr (Or.inl (ihl hc hid))
    · exact SortedSet.mem_union.mpr (Or.inr (ihr hc hid))

end

/-! ### Requirements that the same students meet -/

section
variable {t t' : Requirement} (h : ∀ done, t'.holds done = t.holds done)
include h

theorem mandatory_eq_of_holds : t'.grouping.mandatory = t.grouping.mandatory := by
  refine SortedSet.ext fun id => ?_
  rw [mem_mandatory_iff_needs, mem_mandatory_iff_needs]
  unfold Needs
  simp only [h]

theorem nonempty_clauses_of_holds (ht : ∀ c ∈ t.clauses, c.isEmpty = false) : ∀ c ∈ t'.clauses, c.isEmpty = false := by
  intro c hc
  rw [Bool.eq_false_iff]
  intro he
  have hfree := exists_isEmpty_iff_holds.mp ⟨c, hc, he⟩
  rw [h] at hfree
  obtain ⟨d, hd, he⟩ := exists_isEmpty_iff_holds.mpr hfree
  rw [ht d hd] at he
  cases he

/-- A group of the one requirement contains a group of the other, unless that one is met by its mandatory
    courses. -/
theorem exists_group_subset {g : IdSet} (hg : g ∈ t'.grouping.groups) :
    t.grouping.mandatory ∈ t.clauses ∨ ∃ g' ∈ t.grouping.groups, ∀ id ∈ g', id ∈ g := by
  obtain ⟨hne, -, c', hc', rfl⟩ := mem_groups.mp hg
  -- Who has completed just the clause of the group meets both requirements.
  have hmet : t'.holds (fun id => decide (id ∈ c')) = true :=
    t'.holds_iff_clause.mpr ⟨c', hc', fun id hid => decide_eq_true hid⟩
  rw [h] at hmet
  obtain ⟨c, hc, hsub⟩ := t.holds_iff_clause.mp hmet
  cases he : (c \ t.grouping.mandatory).isEmpty with
  | true => exact Or.inl (eq_mandatory_of_residual hc he ▸ hc)
  | false =>
    have hnonempty := nonempty_clauses_of_holds (fun done => (h done).symm) hne
    refine Or.inr ⟨_, mem_groups.mpr ⟨hnonempty, he, c, hc, rfl⟩, fun id hid => ?_⟩
    obtain ⟨hid, hm⟩ := SortedSet.mem_sdiff.mp hid
    rw [mandatory_eq_of_holds h]
    exact SortedSet.mem_sdiff.mpr ⟨of_decide_eq_true (hsub id hid), hm⟩

/-- With more clauses there are more groups, if the same students meet the requirement. -/
theorem groups_subset_of_clauses (hsub : t.clauses ⊆ t'.clauses) {g : IdSet} (hg : g ∈ t.grouping.groups) :
    g ∈ t'.grouping.groups := by
  obtain ⟨hne, he, c, hc, rfl⟩ := mem_groups.mp hg
  refine mem_groups.mpr ⟨nonempty_clauses_of_holds h hne, he, c, hsub hc, ?_⟩
  rw [mandatory_eq_of_holds h]

end

/-! ### Repeated operands at any place -/

/-- A clause is what it needs beside the mandatory courses, together with them. -/
theorem eq_mandatory_union_residual {t : Requirement} {c : IdSet} (hc : c ∈ t.clauses) :
    c = t.grouping.mandatory ∪ (c \ t.grouping.mandatory) := by
  refine SortedSet.ext fun id => ?_
  rw [SortedSet.mem_union, SortedSet.mem_sdiff]
  constructor
  · intro hid
    by_cases hm : id ∈ t.grouping.mandatory
    · exact Or.inl hm
    · exact Or.inr ⟨hid, hm⟩
  · rintro (hm | ⟨hid, -⟩)
    · exact mandatory_subset hc id hm
    · exact hid

/-- Two requirements of one grouping have the same clauses, up to the one of mandatory courses alone. -/
theorem mem_clauses_of_grouping_eq {t t' : Requirement} (h : t'.grouping = t.grouping)
    (hne : ∀ c ∈ t'.clauses, c.isEmpty = false) {c : IdSet} (hc : c ∈ t'.clauses) :
    c ∈ t.clauses ∨ c = t.grouping.mandatory := by
  cases he : (c \ t'.grouping.mandatory).isEmpty with
  | true => exact Or.inr (h ▸ eq_mandatory_of_residual hc he)
  | false =>
    have hg : c \ t'.grouping.mandatory ∈ t'.grouping.groups := mem_groups.mpr ⟨hne, he, c, hc, rfl⟩
    rw [h] at hg
    obtain ⟨-, -, d, hd, heq⟩ := mem_groups.mp hg
    refine Or.inl ?_
    rw [eq_mandatory_union_residual hc, h, ← heq, ← eq_mandatory_union_residual hd]
    exact hd

theorem eq_of_union_singleton {c d : IdSet} {z : String} (hc : z ∉ c) (hd : z ∉ d)
    (h : c ∪ .singleton z = d ∪ .singleton z) : c = d := by
  refine SortedSet.ext fun id => ?_
  have hmem : id ∈ c ∪ .singleton z ↔ id ∈ d ∪ .singleton z := by rw [h]
  simp only [SortedSet.mem_union, SortedSet.mem_singleton] at hmem
  by_cases hid : id = z
  · subst hid
    exact ⟨fun h => absurd h hc, fun h => absurd h hd⟩
  · simpa only [hid, or_false] using hmem

/-- The clauses of a requirement beside one more course. -/
theorem mem_clauses_both_course {x : Requirement} {z : String} {c : IdSet} :
    c ∈ (both x (.course z)).clauses ↔ ∃ a ∈ x.clauses, a ∪ .singleton z = c := by
  simp [mem_clauses_both, clauses.eq_def (course z)]

/-- Only where the union of two clauses is a clause again may the operand be repeated anywhere. -/
theorem union_mem_clauses_of_repeatable {x : Requirement}
    (h : ∀ p : Place, (p.fill (.both x x)).grouping = (p.fill x).grouping) {a b : IdSet} (ha : a ∈ x.clauses)
    (hb : b ∈ x.clauses) : a ∪ b ∈ x.clauses := by
  -- Beside a course that the operand does not name, no clause is empty.
  obtain ⟨z, hz⟩ := Infinite.exists_notMem_finset x.courseIds.toList.toFinset
  have hfresh : ∀ c ∈ x.clauses, z ∉ c := fun c hc hzc =>
    hz (List.mem_toFinset.mpr (mem_courseIds_of_clause hc hzc))
  have hne : ∀ c ∈ (both (both x x) (.course z)).clauses, c.isEmpty = false := by
    intro c hc
    obtain ⟨d, -, rfl⟩ := mem_clauses_both_course.mp hc
    refine Bool.eq_false_iff.mpr fun he => SortedSet.isEmpty_iff_forall.mp he z ?_
    exact SortedSet.mem_union.mpr (Or.inr (SortedSet.mem_singleton.mpr rfl))
  have hab : z ∉ a ∪ b := fun hzab => (SortedSet.mem_union.mp hzab).elim (hfresh a ha) (hfresh b hb)
  have hunion : a ∪ b ∪ .singleton z ∈ (both (both x x) (.course z)).clauses :=
    mem_clauses_both_course.mpr ⟨a ∪ b, mem_clauses_both.mpr ⟨a, ha, b, hb, rfl⟩, rfl⟩
  rcases mem_clauses_of_grouping_eq (h (.leftOfBoth .whole (.course z))) hne hunion with hmem | hmem
  · obtain ⟨c, hc, heq⟩ := mem_clauses_both_course.mp hmem
    rw [← eq_of_union_singleton (hfresh c hc) hab heq]
    exact hc
  · -- The union is needed in any case, so it is no larger than either clause.
    have hsub : ∀ id ∈ b, id ∈ a := by
      intro id hid
      have hm : id ∈ (Place.fill (.leftOfBoth .whole (.course z)) x).grouping.mandatory := by
        rw [← hmem]
        exact SortedSet.mem_union.mpr (Or.inl (SortedSet.mem_union.mpr (Or.inr hid)))
      have hida := mandatory_subset (mem_clauses_both_course.mpr ⟨a, ha, rfl⟩) id hm
      rcases SortedSet.mem_union.mp hida with hida | hida
      · exact hida
      · rw [SortedSet.mem_singleton.mp hida] at hid
        exact absurd hid (hfresh b hb)
    rw [SortedSet.union_eq_left hsub]
    exact ha

/-- An operand of an AND that is repeated, at any place, leaves the mandatory courses and all groups as they
    are; a group that it adds contains one that was there, or the mandatory courses were enough before. It adds
    none at any place just if the union of two clauses of the operand is always a clause of it. -/
theorem grouping_of_repeated_operand (x : Requirement) :
    (∀ p : Place,
      (p.fill (.both x x)).grouping.mandatory = (p.fill x).grouping.mandatory ∧
      (∀ g ∈ (p.fill x).grouping.groups, g ∈ (p.fill (.both x x)).grouping.groups) ∧
      ∀ g ∈ (p.fill (.both x x)).grouping.groups,
        (p.fill x).grouping.mandatory ∈ (p.fill x).clauses ∨
          ∃ g' ∈ (p.fill x).grouping.groups, ∀ id ∈ g', id ∈ g) ∧
    ((∀ p : Place, (p.fill (.both x x)).grouping = (p.fill x).grouping) ↔
      ∀ a ∈ x.clauses, ∀ b ∈ x.clauses, a ∪ b ∈ x.clauses) := by
  refine ⟨fun p => ?_, fun h a ha b hb => union_mem_clauses_of_repeatable h ha hb, fun h p => ?_⟩
  · have hholds : ∀ done, (p.fill (.both x x)).holds done = (p.fill x).holds done :=
      fun done => p.holds_fill (holds_both_self x done)
    have hsub := p.clauses_fill_subset (clauses_subset_both_self x)
    exact ⟨mandatory_eq_of_holds hholds, fun g hg => groups_subset_of_clauses hholds hsub hg,
      fun g hg => exists_group_subset hholds hg⟩
  · have hsame : SameClauses (.both x x) x := by
      refine .of_subset (fun c hc => ?_) (clauses_subset_both_self x)
      obtain ⟨a, ha, b, hb, rfl⟩ := mem_clauses_both.mp hc
      exact h a ha b hb
    exact (hsame.fill p).grouping_eq

/-- Repeating an operand may change the grouping: twice the choice between two courses has a group of both. -/
theorem grouping_ne_of_repeated_choice :
    ¬∀ (p : Place) (x : Requirement), (p.fill (.both x x)).grouping = (p.fill x).grouping := by
  intro h
  have hroot := h .whole (.either (.course "A") (.course "B"))
  revert hroot
  decide

end Requirement
end Curriculum
