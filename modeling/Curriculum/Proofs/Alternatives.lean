import Curriculum.Proofs.Except
import Curriculum.Requirement.Grouping
import Curriculum.Standing

/-! What the clauses and the grouping of a requirement mean for a student. A requirement is met when some
    clause of it is completed; its mandatory courses are those that every student who meets it has
    completed, and beside them one group is needed, unless the mandatory courses are enough. -/

namespace Curriculum

/-- All courses of the set are completed. -/
def Completes (done : String → Bool) (ids : IdSet) : Prop := ∀ id ∈ ids, done id = true

theorem completes_union {done : String → Bool} {s t : IdSet} :
    Completes done (s ∪ t) ↔ Completes done s ∧ Completes done t := SortedSet.forall_mem_union

theorem Completes.mono {done : String → Bool} {s t : IdSet} (h : Completes done t) (hst : ∀ id ∈ s, id ∈ t) :
    Completes done s := fun id hid => h id (hst id hid)

/-! ### Clauses -/

namespace Requirement

theorem mem_products {left right : List IdSet} {c : IdSet} :
    c ∈ products left right ↔ ∃ a ∈ left, ∃ b ∈ right, a ∪ b = c := by
  simp [products]

theorem clauses_ne_nil (r : Requirement) : r.clauses ≠ [] := by
  induction r with
  | nothing | course id => simp [clauses]
  | both l r ihl ihr =>
    obtain ⟨a, ha⟩ := List.exists_mem_of_ne_nil _ ihl
    obtain ⟨b, hb⟩ := List.exists_mem_of_ne_nil _ ihr
    exact List.ne_nil_of_mem (mem_products.mpr ⟨a, ha, b, hb, rfl⟩)
  | either l r ihl _ => simp [clauses, ihl]

theorem holds_iff_clause {done : String → Bool} (r : Requirement) :
    r.holds done = true ↔ ∃ c ∈ r.clauses, Completes done c := by
  induction r with
  | nothing => simp [holds, clauses, Completes]
  | course id => simp [holds, clauses, Completes]
  | both l r ihl ihr =>
    rw [holds, Bool.and_eq_true, ihl, ihr]
    constructor
    · rintro ⟨⟨a, ha, hda⟩, b, hb, hdb⟩
      exact ⟨a ∪ b, mem_products.mpr ⟨a, ha, b, hb, rfl⟩, completes_union.mpr ⟨hda, hdb⟩⟩
    · rintro ⟨c, hc, hd⟩
      obtain ⟨a, ha, b, hb, rfl⟩ := mem_products.mp hc
      obtain ⟨hda, hdb⟩ := completes_union.mp hd
      exact ⟨⟨a, ha, hda⟩, b, hb, hdb⟩
  | either l r ihl ihr =>
    rw [holds, Bool.or_eq_true, ihl, ihr, clauses]
    simp only [List.mem_append, or_and_right, exists_or]

/-- A cap refuses or changes nothing. -/
theorem eq_clauses_of_within {cap : Option Int} {r : Requirement} {cs : List IdSet}
    (h : r.clausesWithin cap = .ok cs) : cs = r.clauses := by
  induction r generalizing cs with
  | nothing | course id => exact (Except.ok.inj h).symm
  | both l r ihl ihr | either l r ihl ihr =>
    obtain ⟨left, hl, h⟩ := bind_eq_ok.mp h
    obtain ⟨right, hr, h⟩ := bind_eq_ok.mp h
    obtain ⟨-, -, h⟩ := bind_eq_ok.mp h
    rw [← Except.ok.inj h, ihl hl, ihr hr]
    rfl

theorem clausesWithin_none (r : Requirement) : r.clausesWithin none = .ok r.clauses := by
  induction r with
  | nothing | course id => rfl
  | both l r ihl ihr | either l r ihl ihr =>
    rw [clausesWithin, ihl, ihr]
    rfl

end Requirement

/-! ### Groupings -/

namespace Grouping
variable {cs : List IdSet}

theorem mem_foldl_inter {id : String} : ∀ {rest : List IdSet} {c : IdSet},
    id ∈ rest.foldl (· ∩ ·) c ↔ id ∈ c ∧ ∀ d ∈ rest, id ∈ d
  | [], c => by simp
  | d :: rest, c => by
    rw [List.foldl_cons, mem_foldl_inter, SortedSet.mem_inter, List.forall_mem_cons, and_assoc]

theorem ofClauses_of_empty (h : ∃ c ∈ cs, c.isEmpty = true) : ofClauses cs = free := by
  cases cs with
  | nil => rfl
  | cons c rest => exact if_pos (List.any_eq_true.mpr h)

theorem ofClauses_cons {c : IdSet} {rest : List IdSet} (h : ∀ d ∈ c :: rest, d.isEmpty = false) :
    ofClauses (c :: rest) = ⟨rest.foldl (· ∩ ·) c,
      (SortedSet.ofList ((c :: rest).map (· \ rest.foldl (· ∩ ·) c))).filter fun group => !group.isEmpty⟩ := by
  refine if_neg fun hany => ?_
  obtain ⟨d, hd, he⟩ := List.any_eq_true.mp hany
  rw [h d hd] at he
  cases he

theorem empty_or_not (cs : List IdSet) : (∃ c ∈ cs, c.isEmpty = true) ∨ ∀ c ∈ cs, c.isEmpty = false := by
  by_cases h : ∃ c ∈ cs, c.isEmpty = true
  · exact Or.inl h
  · exact Or.inr fun c hc => Bool.eq_false_iff.mpr fun he => h ⟨c, hc, he⟩

/-- The mandatory courses are those in every clause; an empty clause has none. -/
theorem mem_mandatory (hne : cs ≠ []) {id : String} : id ∈ (ofClauses cs).mandatory ↔ ∀ c ∈ cs, id ∈ c := by
  rcases empty_or_not cs with ⟨c, hc, he⟩ | hcs
  · rw [ofClauses_of_empty ⟨c, hc, he⟩]
    refine ⟨fun h => absurd h SortedSet.not_mem_empty, fun h => ?_⟩
    exact absurd (h c hc) (SortedSet.isEmpty_iff_forall.mp he id)
  · cases cs with
    | nil => exact absurd rfl hne
    | cons c rest =>
      rw [ofClauses_cons hcs, List.forall_mem_cons]
      exact mem_foldl_inter

/-- The groups are what the clauses need beside the mandatory courses, where that is something, unless a
    clause needs nothing at all. -/
theorem mem_groups {g : IdSet} : g ∈ (ofClauses cs).groups ↔
    (∀ c ∈ cs, c.isEmpty = false) ∧ g.isEmpty = false ∧ ∃ c ∈ cs, c \ (ofClauses cs).mandatory = g := by
  rcases empty_or_not cs with ⟨c, hc, he⟩ | hcs
  · rw [ofClauses_of_empty ⟨c, hc, he⟩]
    refine ⟨fun h => absurd h SortedSet.not_mem_empty, fun ⟨h, _⟩ => ?_⟩
    rw [h c hc] at he
    cases he
  · cases cs with
    | nil => exact ⟨fun h => absurd h SortedSet.not_mem_empty, fun ⟨_, _, c, hc, _⟩ => absurd hc List.not_mem_nil⟩
    | cons c rest =>
      rw [ofClauses_cons hcs, SortedSet.mem_filter, SortedSet.mem_ofList, List.mem_map, Bool.not_eq_true']
      exact ⟨fun ⟨h, hg⟩ => ⟨hcs, hg, h⟩, fun ⟨_, hg, h⟩ => ⟨h, hg⟩⟩

end Grouping

namespace Requirement

theorem groupingWithin_none (r : Requirement) : r.groupingWithin none = .ok r.grouping := by
  rw [groupingWithin, clausesWithin_none]
  rfl

theorem eq_grouping_of_within {cap : Option Int} {r : Requirement} {g : Grouping}
    (h : r.groupingWithin cap = .ok g) : g = r.grouping := by
  cases hc : r.clausesWithin cap with
  | error e =>
    rw [groupingWithin, hc] at h
    cases h
  | ok cs =>
    rw [groupingWithin, hc] at h
    rw [← Except.ok.inj h, eq_clauses_of_within hc]
    rfl

theorem mem_mandatory {r : Requirement} {id : String} :
    id ∈ r.grouping.mandatory ↔ ∀ c ∈ r.clauses, id ∈ c :=
  Grouping.mem_mandatory r.clauses_ne_nil

theorem mandatory_subset {r : Requirement} {c : IdSet} (hc : c ∈ r.clauses) : ∀ id ∈ r.grouping.mandatory, id ∈ c :=
  fun _ hid => mem_mandatory.mp hid c hc

/-- Who completes the mandatory courses and what a clause needs beside them completes the clause. -/
theorem completes_of_residual {r : Requirement} {done : String → Bool} {c : IdSet}
    (hm : Completes done r.grouping.mandatory) (hg : Completes done (c \ r.grouping.mandatory)) :
    Completes done c := by
  intro id hid
  by_cases hmem : id ∈ r.grouping.mandatory
  · exact hm id hmem
  · exact hg id (SortedSet.mem_sdiff.mpr ⟨hid, hmem⟩)

theorem eq_mandatory_of_residual {r : Requirement} {c : IdSet} (hc : c ∈ r.clauses)
    (he : (c \ r.grouping.mandatory).isEmpty = true) : c = r.grouping.mandatory := by
  refine SortedSet.ext fun id => ⟨fun hid => Classical.byContradiction fun hn => ?_, mandatory_subset hc id⟩
  exact SortedSet.isEmpty_iff_forall.mp he id (SortedSet.mem_sdiff.mpr ⟨hid, hn⟩)

theorem holds_iff_grouping {r : Requirement} {done : String → Bool} :
    r.holds done = true ↔ Completes done r.grouping.mandatory ∧
      (r.grouping.groups = ∅ ∨ (∃ g ∈ r.grouping.groups, Completes done g) ∨ r.grouping.mandatory ∈ r.clauses) := by
  rw [holds_iff_clause]
  constructor
  · rintro ⟨c, hc, hd⟩
    refine ⟨hd.mono (mandatory_subset hc), ?_⟩
    rcases Grouping.empty_or_not r.clauses with hfree | hcs
    · exact Or.inl (congrArg Grouping.groups (Grouping.ofClauses_of_empty hfree))
    · cases hg : (c \ r.grouping.mandatory).isEmpty with
      | true => exact Or.inr (Or.inr (eq_mandatory_of_residual hc hg ▸ hc))
      | false =>
        refine Or.inr (Or.inl ⟨_, Grouping.mem_groups.mpr ⟨hcs, hg, c, hc, rfl⟩, hd.mono fun id hid => ?_⟩)
        exact (SortedSet.mem_sdiff.mp hid).1
  · rintro ⟨hm, hgroups | ⟨g, hg, hd⟩ | hclause⟩
    · rcases Grouping.empty_or_not r.clauses with ⟨c, hc, he⟩ | hcs
      · exact ⟨c, hc, fun id hid => absurd hid (SortedSet.isEmpty_iff_forall.mp he id)⟩
      · -- No group is left, so any clause is the mandatory courses.
        obtain ⟨c, hc⟩ := List.exists_mem_of_ne_nil _ r.clauses_ne_nil
        cases hg : (c \ r.grouping.mandatory).isEmpty with
        | true => exact ⟨c, hc, eq_mandatory_of_residual hc hg ▸ hm⟩
        | false =>
          have hmem : c \ r.grouping.mandatory ∈ r.grouping.groups := Grouping.mem_groups.mpr ⟨hcs, hg, c, hc, rfl⟩
          rw [hgroups] at hmem
          exact absurd hmem SortedSet.not_mem_empty
    · obtain ⟨-, -, c, hc, rfl⟩ := Grouping.mem_groups.mp hg
      exact ⟨c, hc, completes_of_residual hm hd⟩
    · exact ⟨_, hclause, hm⟩

/-- The clauses and the grouping tell alike whether a requirement is met. -/
theorem holds_agrees_with_clauses_and_grouping (t : Requirement) (done : String → Bool) :
    (t.holds done = true ↔ ∃ c ∈ t.clauses, Completes done c) ∧
    (t.holds done = true ↔ Completes done t.grouping.mandatory ∧
      (t.grouping.groups = ∅ ∨ (∃ g ∈ t.grouping.groups, Completes done g) ∨ t.grouping.mandatory ∈ t.clauses)) :=
  ⟨t.holds_iff_clause, holds_iff_grouping⟩

/-- The mandatory courses may be enough although there is a group. -/
example : (Requirement.either (.course "A") (.both (.course "A") (.course "B"))).grouping =
    ⟨.singleton "A", .singleton (.singleton "B")⟩ := by decide

/-! ### Mandatory courses -/

/-- Whoever meets the requirement has completed the course. -/
def Needs (t : Requirement) (id : String) : Prop :=
  ∀ ids : List String, t.holds (Standing.completed ids).has = true → id ∈ ids

theorem completes_completed {ids : List String} {s : IdSet} :
    Completes (Standing.completed ids).has s ↔ ∀ id ∈ s, id ∈ ids := by
  simp [Completes, Standing.has]

theorem mem_mandatory_iff_needs {t : Requirement} {id : String} : id ∈ t.grouping.mandatory ↔ t.Needs id := by
  rw [mem_mandatory]
  constructor
  · intro h ids hm
    obtain ⟨c, hc, hd⟩ := t.holds_iff_clause.mp hm
    exact completes_completed.mp hd id (h c hc)
  · -- A student with the courses of one clause only meets the requirement.
    intro h c hc
    exact h c.toList (t.holds_iff_clause.mpr ⟨c, hc, completes_completed.mpr fun _ hid => hid⟩)

/-- The mandatory courses, in order, are the courses that the requirement needs. So they do not depend on how
    the requirement is written, but only on who meets it. -/
theorem mandatory_is_exactly_needed (t : Requirement) :
    (∀ l : List String, l = t.grouping.mandatory.toList ↔ l.Pairwise (· < ·) ∧ ∀ id, id ∈ l ↔ t.Needs id) ∧
    ∀ t' : Requirement, (∀ ids : List String,
        t.holds (Standing.completed ids).has = t'.holds (Standing.completed ids).has) →
      t.grouping.mandatory.toList = t'.grouping.mandatory.toList := by
  refine ⟨fun l => ⟨?_, fun ⟨hl, hm⟩ => ?_⟩, fun t' h => ?_⟩
  · rintro rfl
    exact ⟨t.grouping.mandatory.increasing, fun _ => mem_mandatory_iff_needs⟩
  · exact eq_of_pairwise_lt hl t.grouping.mandatory.increasing fun id => (hm id).trans mem_mandatory_iff_needs.symm
  · have hneeds : ∀ id, t.Needs id ↔ t'.Needs id := fun id => by
      unfold Needs
      simp only [h]
    refine eq_of_pairwise_lt t.grouping.mandatory.increasing t'.grouping.mandatory.increasing fun id => ?_
    exact mem_mandatory_iff_needs.trans ((hneeds id).trans mem_mandatory_iff_needs.symm)

end Requirement
end Curriculum
