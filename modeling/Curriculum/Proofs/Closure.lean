import Mathlib.Logic.Relation
import Curriculum.Plan.Required
import Curriculum.Proofs.Readable

/-! What a course requires in the long run. The walk meets just the courses that some pending one leads to
    past the visited ones, and what is required are the mandatory prerequisites of the courses met. So the
    requirements in the long run are the transitive closure of the mandatory prerequisites, cycles or not, and
    it makes no difference that the walk is asked for course by course with one set of visited courses. The walk
    nests as deep as the courses lead on, on a stack that is taken as unlimited. -/

namespace Curriculum

variable {m : Expressions} {id p : String} {visited pending found after : List String}

/-! ### Mandatory prerequisites -/

/-- The second course is a mandatory prerequisite of the first one. -/
def Expressions.Demands (m : Expressions) (id prerequisite : String) : Prop := prerequisite ∈ mandatoryOf m id

theorem mandatoryOf_eq (m : Expressions) (id : String) :
    mandatoryOf m id = (m.requirementOf id).grouping.mandatory.toList := by
  unfold mandatoryOf Expressions.requirementOf
  cases Requirement.parse (m.textOf id) with
  | error e => rfl
  | ok r => rfl

theorem mandatoryOf_of_not_mem (h : id ∉ m.keys) : mandatoryOf m id = [] := by
  rw [mandatoryOf_eq, Expressions.requirementOf_of_not_mem h]
  rfl

theorem demands_iff_needs : m.Demands id p ↔ (m.requirementOf id).Needs p := by
  unfold Expressions.Demands
  rw [mandatoryOf_eq, SortedSet.mem_toList]
  exact Requirement.mem_mandatory_iff_needs

/-- The second course is the first one, or it is reached from it along mandatory prerequisites none of which
    was visited. -/
def Expressions.Leads (m : Expressions) (visited : List String) : String → String → Prop :=
  Relation.ReflTransGen fun id prerequisite => m.Demands id prerequisite ∧ prerequisite ∉ visited

theorem leads_nil_iff : m.Leads [] id p ↔ Relation.ReflTransGen m.Demands id p := by
  simp only [Expressions.Leads, List.not_mem_nil, not_false_eq_true, and_true]

theorem Expressions.Leads.of_visited (h : m.Leads visited id p) : Relation.ReflTransGen m.Demands id p :=
  Relation.ReflTransGen.mono (fun _ _ hstep => hstep.1) _ _ h

/-- What pending courses lead to is the first of them, or it is led to without coming through the first one
    again: by a course that it demands, or by another pending one. -/
theorem exists_leads_cons_iff (hid : id ∉ visited) : (∃ q ∈ id :: pending, q ∉ visited ∧ m.Leads visited q p) ↔
    p = id ∨ ∃ q ∈ mandatoryOf m id ++ pending, q ∉ id :: visited ∧ m.Leads (id :: visited) q p := by
  constructor
  · rintro ⟨q, hq, hqv, hpath⟩
    induction hpath with
    | refl =>
      by_cases heq : q = id
      · exact Or.inl heq
      · refine Or.inr ⟨q, List.mem_append_right _ ((List.mem_cons.mp hq).resolve_left heq), ?_, .refl⟩
        exact List.not_mem_cons_of_ne_of_not_mem heq hqv
    | @tail b c _ hbc ih =>
      by_cases heq : c = id
      · exact Or.inl heq
      have hc : c ∉ id :: visited := List.not_mem_cons_of_ne_of_not_mem heq hbc.2
      -- Where the way comes through the first course, it begins anew with what that course demands.
      rcases ih with rfl | ⟨q', hq', hv', hpath'⟩
      · exact Or.inr ⟨c, List.mem_append_left _ hbc.1, hc, .refl⟩
      · exact Or.inr ⟨q', hq', hv', hpath'.tail ⟨hbc.1, hc⟩⟩
  · rintro (rfl | ⟨q, hq, hv, hpath⟩)
    · exact ⟨p, List.mem_cons_self .., hid, .refl⟩
    · have hqv : q ∉ visited := fun h => hv (List.mem_cons_of_mem _ h)
      have hpath' : m.Leads visited q p :=
        Relation.ReflTransGen.mono (fun _ _ hstep => ⟨hstep.1, fun h => hstep.2 (List.mem_cons_of_mem _ h)⟩) _ _ hpath
      rcases List.mem_append.mp hq with hq | hq
      · exact ⟨id, List.mem_cons_self .., hid, .head ⟨hq, hqv⟩ hpath'⟩
      · exact ⟨q, List.mem_cons_of_mem _ hq, hqv, hpath'⟩

/-! ### The walk -/

theorem explore_nil : explore m visited [] = [] := by
  rw [explore]

theorem explore_of_mem (h : id ∈ visited) : explore m visited (id :: pending) = explore m visited pending := by
  rw [explore, if_pos h]

theorem explore_of_not_mem (h : id ∉ visited) :
    explore m visited (id :: pending) = id :: explore m (id :: visited) (mandatoryOf m id ++ pending) := by
  rw [explore, if_neg h]
  split
  · rfl
  · next hkey => rw [mandatoryOf_of_not_mem hkey, List.nil_append]

/-- Induction along the walk. Courses outside the map lead nowhere, so they need no case of their own. -/
@[elab_as_elim]
theorem explore_induct (m : Expressions) {motive : List String → List String → Prop}
    (done : ∀ visited, motive visited [])
    (skip : ∀ visited id pending, id ∈ visited → motive visited pending → motive visited (id :: pending))
    (meet : ∀ visited id pending, id ∉ visited → motive (id :: visited) (mandatoryOf m id ++ pending) →
      motive visited (id :: pending))
    (visited pending : List String) : motive visited pending := by
  fun_induction explore m visited pending with
  | case1 visited => exact done visited
  | case2 visited id pending h ih => exact skip visited id pending h ih
  | case3 visited id pending h hkey ih => exact meet visited id pending h ih
  | case4 visited id pending h hkey ih =>
    refine meet visited id pending h ?_
    rw [mandatoryOf_of_not_mem hkey]
    exact ih

/-- The walk meets the courses that a pending one leads to. -/
theorem mem_explore_iff :
    p ∈ explore m visited pending ↔ ∃ id ∈ pending, id ∉ visited ∧ m.Leads visited id p := by
  induction visited, pending using explore_induct m with
  | done visited => simp [explore_nil]
  | skip visited id pending h ih =>
    rw [explore_of_mem h, ih]
    simp [h]
  | meet visited id pending h ih => rw [explore_of_not_mem h, List.mem_cons, ih, exists_leads_cons_iff h]

theorem mem_required_iff : p ∈ (required m id visited).1 ↔
    id ∉ visited ∧ ∃ q, m.Leads visited id q ∧ m.Demands q p := by
  simp only [required, SortedSet.mem_ofList, List.mem_flatMap, mem_explore_iff, List.mem_singleton, exists_eq_left,
    and_assoc, exists_and_left]
  rfl

theorem mem_visited_iff : p ∈ (required m id visited).2 ↔ p ∈ visited ∨ id ∉ visited ∧ m.Leads visited id p := by
  simp only [required, SortedSet.mem_ofList, List.mem_append, mem_explore_iff, List.mem_singleton, exists_eq_left]

theorem required_of_mem (h : id ∈ visited) : required m id visited = (∅, .ofList visited) := by
  rw [required, explore_of_mem h, explore_nil, List.append_nil]
  rfl

theorem mem_required_nil_iff : p ∈ (required m id []).1 ↔ Relation.TransGen m.Demands id p := by
  simp only [mem_required_iff, List.not_mem_nil, not_false_eq_true, true_and, leads_nil_iff,
    Relation.TransGen.tail'_iff]

theorem transGen_of_mem_required (h : p ∈ (required m id visited).1) : Relation.TransGen m.Demands id p := by
  obtain ⟨-, q, hq, hp⟩ := mem_required_iff.mp h
  exact .tail' hq.of_visited hp

/-! ### Asked for course by course -/

/-- A search that comes to an end. The pending courses are looked into one after the other, each together with
    all that it demands before the next one; a course that was visited by then is passed over. The courses found
    are the mandatory prerequisites of those looked into. -/
inductive Searched (m : Expressions) : (visited pending found after : List String) → Prop
  | done {visited : List String} : Searched m visited [] [] visited
  | skip {visited pending found after : List String} {id : String} : id ∈ visited →
    Searched m visited pending found after → Searched m visited (id :: pending) found after
  | look {visited pending below between found after : List String} {id : String} : id ∉ visited →
    Searched m (id :: visited) (mandatoryOf m id) below between → Searched m between pending found after →
    Searched m visited (id :: pending) (mandatoryOf m id ++ below ++ found) after

namespace Searched

theorem split {first rest : List String} (h : Searched m visited (first ++ rest) found after) :
    ∃ below between others, Searched m visited first below between ∧ Searched m between rest others after ∧
      found = below ++ others := by
  induction first generalizing visited found with
  | nil => exact ⟨[], visited, found, .done, h, rfl⟩
  | cons id first ih =>
    cases h with
    | skip hid h =>
      obtain ⟨below, between, others, hfirst, hrest, heq⟩ := ih h
      exact ⟨below, between, others, .skip hid hfirst, hrest, heq⟩
    | look hid hlook h =>
      obtain ⟨below, between, others, hfirst, hrest, rfl⟩ := ih h
      exact ⟨_, between, others, .look hid hlook hfirst, hrest, (List.append_assoc ..).symm⟩

/-- The search ends as the walk does. -/
theorem of_explore (m : Expressions) (visited pending : List String) :
    Searched m visited pending ((explore m visited pending).flatMap (mandatoryOf m))
      ((explore m visited pending).reverse ++ visited) := by
  induction visited, pending using explore_induct m with
  | done visited =>
    rw [explore_nil]
    exact .done
  | skip visited id pending h ih =>
    rw [explore_of_mem h]
    exact .skip h ih
  | meet visited id pending h ih =>
    obtain ⟨below, between, others, hbelow, hothers, heq⟩ := ih.split
    have hlook := look h hbelow hothers
    rw [List.append_assoc, ← heq] at hlook
    simpa only [explore_of_not_mem h, List.flatMap_cons, List.reverse_cons, List.append_assoc,
      List.singleton_append] using hlook

theorem functional {found' after' : List String} (h : Searched m visited pending found after)
    (h' : Searched m visited pending found' after') : found = found' ∧ after = after' := by
  induction h generalizing found' after' with
  | done =>
    cases h'
    exact ⟨rfl, rfl⟩
  | skip hid _ ih =>
    cases h' with
    | skip _ h' => exact ih h'
    | look hnot => exact absurd hid hnot
  | look hid _ _ ihlook ih =>
    cases h' with
    | skip hmem => exact absurd hmem hid
    | look _ hlook' h' =>
      obtain ⟨rfl, rfl⟩ := ihlook hlook'
      obtain ⟨rfl, rfl⟩ := ih h'
      exact ⟨rfl, rfl⟩

theorem required_eq (h : Searched m visited [id] found after) :
    required m id visited = (.ofList found, .ofList after) := by
  obtain ⟨rfl, rfl⟩ := (of_explore m visited [id]).functional h
  refine congrArg (Prod.mk _) (SortedSet.ext fun p => ?_)
  simp only [SortedSet.mem_ofList, List.mem_append, List.mem_reverse, or_comm]

end Searched

/-- The search for what a course requires comes to an end, and with nothing where the course was visited.
    Otherwise the courses that it leads to past the visited ones are visited as well, and their mandatory
    prerequisites are required. With nothing visited before, the courses required are those reached by one or more
    steps along mandatory prerequisites, so the course itself is among them just if it is on a cycle. -/
theorem required_is_closure (m : Expressions) (id : String) (visited : List String) :
    (∃ found after, Searched m visited [id] found after) ∧
    (∀ found after, Searched m visited [id] found after → required m id visited = (.ofList found, .ofList after)) ∧
    (id ∈ visited → required m id visited = (∅, .ofList visited)) ∧
    (id ∉ visited →
      (∀ p, p ∈ (required m id visited).2 ↔ p ∈ visited ∨ m.Leads visited id p) ∧
      ∀ p, p ∈ (required m id visited).1 ↔ ∃ q, m.Leads visited id q ∧ m.Demands q p) ∧
    (∀ p, p ∈ (required m id []).1 ↔ Relation.TransGen m.Demands id p) ∧
    (id ∈ (required m id []).1 ↔ Relation.TransGen m.Demands id id) := by
  refine ⟨⟨_, _, .of_explore m visited [id]⟩, fun _ _ h => h.required_eq, required_of_mem, fun h => ⟨fun p => ?_, fun p => ?_⟩,
    fun p => mem_required_nil_iff, mem_required_nil_iff⟩
  · rw [mem_visited_iff, and_iff_right h]
  · rw [mem_required_iff, and_iff_right h]

/-- Two courses that demand each other, and a course that was visited before. -/
theorem required_is_closure_cycle :
    ∃ m : Expressions, m = .ofList [("A", some "B and C"), ("B", some "A"), ("C", some "D")] ∧
      ("C" ∈ ["C"] ∧ required m "C" ["C"] = (∅, .ofList ["C"])) ∧
      ("A" ∉ ["C"] ∧ "A" ∈ (required m "A" ["C"]).1 ∧ "B" ∈ (required m "A" ["C"]).2) ∧
      ∃ found after, Searched m ["C"] ["A"] found after ∧ required m "A" ["C"] = (.ofList found, .ofList after) := by
  obtain ⟨m, hm⟩ : ∃ m : Expressions, m = .ofList [("A", some "B and C"), ("B", some "A"), ("C", some "D")] := ⟨_, rfl⟩
  have hAB : "B" ∈ mandatoryOf m "A" := by
    rw [hm]
    decide +kernel
  have hBA : "A" ∈ mandatoryOf m "B" := by
    rw [hm]
    decide +kernel
  have hpath : m.Leads ["C"] "A" "B" := .single ⟨hAB, by decide⟩
  obtain ⟨-, -, hvisited, -⟩ := required_is_closure m "C" ["C"]
  obtain ⟨⟨found, after, hsearch⟩, hends, -, hnew, -⟩ := required_is_closure m "A" ["C"]
  obtain ⟨hafter, hfound⟩ := hnew (by decide)
  refine ⟨m, hm, ⟨by decide, hvisited (by decide)⟩, ⟨by decide, ?_, ?_⟩, found, after, hsearch, hends found after hsearch⟩
  · exact (hfound "A").mpr ⟨"B", hpath, hBA⟩
  · exact (hafter "B").mpr (Or.inr hpath)

end Curriculum
