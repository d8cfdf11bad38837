import Curriculum.Proofs.Canonical
import Curriculum.Proofs.Intake

/-! Compiling and auditing agree. Whatever the rows of a table hold, the audit of the compiled graph finds no
    fault but rules that refer to courses that are no nodes, and it finds one just if the compilation has
    reported an unknown prerequisite. -/

namespace Curriculum

namespace Graph
variable {cap : Option Int} {id : Json} {rows : List Row} {c : Compilation}

/-! ### What is compiled -/

/-- A compiled graph holds the intake of its rows and the edges between its nodes. -/
theorem compile_eq_ok (h : compile cap id rows = .ok c) :
    ∃ edges, drawEdges cap (Intake.ofRows rows).hasNode (Intake.ofRows rows).rules = .ok edges ∧
      c.graph = ⟨id, (Intake.ofRows rows).nodes, edges, (Intake.ofRows rows).rules.map Prod.fst⟩ ∧
      c.diagnostics = (Intake.ofRows rows).diagnostics ++ (Intake.ofRows rows).rules.flatMap fun (rule, r) =>
        unknownOf (Intake.ofRows rows).hasNode rule.courseId r := by
  obtain ⟨edges, hedges, h⟩ := bind_eq_ok.mp h
  rw [← Except.ok.inj h]
  exact ⟨edges, hedges, rfl, rfl⟩

theorem wellFormed_of_compile (h : compile cap id rows = .ok c) : c.graph.WellFormed := by
  obtain ⟨edges, hedges, hg, -⟩ := compile_eq_ok h
  have hi := Intake.sound_ofRows rows
  rw [hg]
  refine ⟨hi.distinct, hi.named, hi.credited, fun e he => ?_, fun rule hrule => ?_⟩
  · obtain ⟨hknown, entry, hentry, htarget⟩ := of_mem_drawEdges hedges he
    exact ⟨Intake.hasNode_iff.mp hknown, htarget ▸ (hi.ruled entry hentry).1⟩
  · obtain ⟨entry, hentry, rfl⟩ := List.mem_map.mp hrule
    obtain ⟨hc, hne, hr⟩ := hi.ruled entry hentry
    exact ⟨hc, hne, entry.2, hr⟩

/-! ### What is reported -/

/-- For a rule that was read, the graph lacks the courses that the compilation reports. -/
theorem unknownIn_eq_unknownIds {g : Graph} {i : Intake} (hn : g.nodes = i.nodes) {rule : Rule} {r : Requirement}
    (hr : Requirement.parse rule.expression = .ok r) : g.unknownIn rule = (r.unknownIds i.hasNode).toList := by
  have hknown : (fun id => g.nodeIds.contains id) = i.hasNode := by
    funext id
    rw [Bool.eq_iff_iff, List.contains_iff_mem, Intake.hasNode_iff, nodeIds, hn]
  unfold unknownIn
  rw [hr, hknown]

/-- An unknown prerequisite is reported just where a rule of the graph refers to it. -/
theorem mem_diagnostics_iff (h : compile cap id rows = .ok c) {x course : String} :
    .unknownPrerequisite x course ∈ c.diagnostics ↔
      ∃ rule ∈ c.graph.rules, rule.courseId = course ∧ x ∈ c.graph.unknownIn rule := by
  obtain ⟨edges, -, hg, hd⟩ := compile_eq_ok h
  have hi := Intake.sound_ofRows rows
  have hnodes : c.graph.nodes = (Intake.ofRows rows).nodes := by rw [hg]
  have hrules : c.graph.rules = (Intake.ofRows rows).rules.map Prod.fst := by rw [hg]
  rw [hd, hrules, List.mem_append, List.mem_flatMap]
  constructor
  · rintro (hmem | ⟨entry, hentry, hmem⟩)
    · exact absurd rfl (hi.reported _ hmem x course)
    · obtain ⟨y, hy, heq⟩ := List.mem_map.mp hmem
      cases heq
      refine ⟨entry.1, List.mem_map.mpr ⟨entry, hentry, rfl⟩, rfl, ?_⟩
      rw [unknownIn_eq_unknownIds hnodes (hi.ruled entry hentry).2.2]
      exact hy
  · rintro ⟨rule, hrule, rfl, hx⟩
    obtain ⟨entry, hentry, rfl⟩ := List.mem_map.mp hrule
    rw [unknownIn_eq_unknownIds hnodes (hi.ruled entry hentry).2.2] at hx
    exact Or.inr ⟨entry, hentry, List.mem_map.mpr ⟨x, hx, rfl⟩⟩

theorem eq_unknownPrerequisite_of_message {d : Diagnostic} {x course : String}
    (hm : d.message = "Unknown prerequisite " ++ x ++ " referenced by " ++ course) :
    ∃ x course, d = .unknownPrerequisite x course := by
  refine Classical.byContradiction fun hn => ?_
  exact Diagnostic.OfRow.message_ne (fun x course heq => hn ⟨x, course, heq⟩) x course hm

/-- No diagnostic reads like that of an unknown prerequisite just if no rule refers to an unknown course. -/
theorem dangling_eq_nil_iff_messages (h : compile cap id rows = .ok c) : c.graph.dangling = [] ↔
    ∀ x course, "Unknown prerequisite " ++ x ++ " referenced by " ++ course ∉ c.diagnostics.map Diagnostic.message := by
  rw [dangling_eq_nil]
  constructor
  · intro hnone x course hmem
    obtain ⟨d, hd, hm⟩ := List.mem_map.mp hmem
    obtain ⟨y, target, rfl⟩ := eq_unknownPrerequisite_of_message hm
    obtain ⟨rule, hrule, -, hy⟩ := (mem_diagnostics_iff h).mp hd
    rw [hnone rule hrule] at hy
    exact absurd hy List.not_mem_nil
  · intro hnone rule hrule
    refine List.eq_nil_iff_forall_not_mem.mpr fun x hx => ?_
    exact hnone x rule.courseId (List.mem_map.mpr ⟨_, (mem_diagnostics_iff h).mpr ⟨rule, hrule, rfl, hx⟩, rfl⟩)

/-! ### The audit of a compiled graph -/

theorem unknownCourses_message (k : Nat) (ids : List String) : (Fault.unknownCourses k ids).message =
    "prereqExpressions[" ++ toString k ++ "].expression references unknown course ids: " ++ ", ".intercalate ids := by
  have hitem : Section.rules.item k = "prereqExpressions[" ++ toString k ++ "]" := rfl
  have hbracket : "]" ++ ".expression references unknown course ids: " =
      "].expression references unknown course ids: " := by decide
  rw [Fault.message, hitem, ← hbracket]
  simp only [String.append_assoc]

/-- The audit of the graph compiled from any rows tells of each rule, by its place, which of the courses that
    its requirement names are no nodes, and finds no other fault. So the graph is valid just if the compilation
    reports no unknown prerequisite. -/
theorem audit_of_compiled (cap : Option Int) (id : String) (rows : List Row) (c : Compilation) (hid : id ≠ "")
    (h : compile cap (.str id) rows = .ok c) :
    ∃ dangling : List (Nat × List String),
      (audit c.graph.toJson).map auditReport = .ok (.obj [("valid", .bool dangling.isEmpty),
        ("errors", .ofTexts (dangling.map fun (k, ids) =>
          "prereqExpressions[" ++ toString k ++ "].expression references unknown course ids: " ++
            ", ".intercalate ids))]) ∧
      dangling.Pairwise (fun a b => a.1 < b.1) ∧
      (∀ k ids, (k, ids) ∈ dangling ↔ ids ≠ [] ∧ ids.Pairwise (· < ·) ∧
        ∃ rule r, c.graph.rules[k]? = some rule ∧ Requirement.parse rule.expression = .ok r ∧
          ∀ x, x ∈ ids ↔ x ∈ r.courseIds ∧ x ∉ c.graph.nodes.map Node.id) ∧
      (dangling = [] ↔ ∀ x course,
        "Unknown prerequisite " ++ x ++ " referenced by " ++ course ∉ c.diagnostics.map Diagnostic.message) := by
  refine ⟨c.graph.dangling, ?_, c.graph.dangling_increasing, fun k ids => mem_dangling, dangling_eq_nil_iff_messages h⟩
  have hgraph : c.graph.id = .str id := by
    obtain ⟨edges, -, hg, -⟩ := compile_eq_ok h
    rw [hg]
  rw [audit_toJson hgraph hid (wellFormed_of_compile h)]
  simp only [Except.map, auditReport, List.isEmpty_map, List.map_map, Function.comp_def, unknownCourses_message]

/-- A course that needs a course of the table and one outside it. -/
theorem audit_of_compiled_one_unknown :
    ∃ c, "g" ≠ "" ∧
      compile none (.str "g") [⟨"A", "Algebra", "3", "B AND C"⟩, ⟨"B", "Biology", "1.5", ""⟩] = .ok c ∧
      c.diagnostics.map Diagnostic.message = ["Unknown prerequisite C referenced by A"] ∧
      ∃ dangling : List (Nat × List String), (0, ["C"]) ∈ dangling ∧
        (audit c.graph.toJson).map auditReport = .ok (.obj [("valid", .bool dangling.isEmpty),
          ("errors", .ofTexts (dangling.map fun (k, ids) =>
            "prereqExpressions[" ++ toString k ++ "].expression references unknown course ids: " ++
              ", ".intercalate ids))]) := by
  have hread : Requirement.parse "B AND C" = .ok (.both (.course "B") (.course "C")) :=
    Requirement.parse_render_of_valid (r := .both (.course "B") (.course "C")) (by decide) (by decide)
  have hnone : Requirement.parse "NONE" = .ok .nothing :=
    Requirement.parse_render_of_valid (r := .nothing) (by decide) (by decide)
  have hrows : Intake.ofRows [⟨"A", "Algebra", "3", "B AND C"⟩, ⟨"B", "Biology", "1.5", ""⟩] =
      ⟨[⟨"A", "Algebra", .ofInt 3⟩, ⟨"B", "Biology", .ofRatio false 3 2⟩],
        [(⟨"A", "B AND C"⟩, .both (.course "B") (.course "C")), (⟨"B", "NONE"⟩, .nothing)], []⟩ := by
    unfold Intake.ofRows
    rw [List.foldl_cons, Intake.add_of_faultless (x := .ofInt 3) (by decide +kernel) (by decide +kernel)
      (by decide +kernel) (by exact hread)]
    rw [List.foldl_cons, Intake.add_of_faultless (x := .ofRatio false 3 2) (r := .nothing) (by decide +kernel)
      (by decide +kernel) (by decide +kernel) (by exact hnone)]
    rfl
  have hc : compile none (.str "g") [⟨"A", "Algebra", "3", "B AND C"⟩, ⟨"B", "Biology", "1.5", ""⟩] = .ok
      ⟨⟨.str "g", [⟨"A", "Algebra", .ofInt 3⟩, ⟨"B", "Biology", .ofRatio false 3 2⟩], [⟨"B", "A", none⟩],
        [⟨"A", "B AND C"⟩, ⟨"B", "NONE"⟩]⟩, [.unknownPrerequisite "C" "A"]⟩ := by
    rw [compile, hrows]
    rfl
  obtain ⟨dangling, hreport, -, hmem, -⟩ := audit_of_compiled none "g" _ _ (by decide) hc
  refine ⟨_, by decide, hc, by decide, dangling, (hmem 0 ["C"]).mpr ⟨by decide, by simp, _, _, rfl, hread, ?_⟩, hreport⟩
  intro x
  simp only [Requirement.courseIds, SortedSet.mem_union, SortedSet.mem_singleton, List.map_cons, List.map_nil,
    List.mem_cons, List.not_mem_nil, or_false, not_or]
  constructor
  · rintro rfl
    decide
  · rintro ⟨rfl | rfl, -, hx⟩
    · exact absurd rfl hx
    · rfl

end Graph
end Curriculum
