import Curriculum.Proofs.Admission

/-! The order of the rows of a table. Where no two rows share a valid id, each row is taken in as if it were the only
    one, and references are looked up when all rows have been taken in. So the same rows in another order make the same
    graph and the same diagnostics, each in another order, and a reference to a later row is as good as one to an
    earlier row. -/

namespace Curriculum.Graph

/-! ### Rows one by one -/

/-- No two rows have the same id, as far as their ids are valid. -/
def Unrepeated (rows : List Row) : Prop := (rows.filterMap fun row => CourseId.normalize? row.courseId).Nodup

theorem Unrepeated.of_append {front back : List Row} (h : Unrepeated (front ++ back)) : Unrepeated front := by
  rw [Unrepeated, List.filterMap_append] at h
  exact (List.nodup_append.mp h).1

/-- A valid id of the last row is in no row before it. -/
theorem Unrepeated.ne_of_mem {rows : List Row} {row other : Row} (h : Unrepeated (rows ++ [row]))
    (hid : (CourseId.normalize? row.courseId).isSome = true) (hother : other ∈ rows) : other.courseId ≠ row.courseId := by
  intro heq
  obtain ⟨id, hid⟩ := Option.isSome_iff_exists.mp hid
  rw [Unrepeated, List.filterMap_append] at h
  refine (List.nodup_append.mp h).2.2 id (List.mem_filterMap.mpr ⟨other, hother, heq ▸ hid⟩) id ?_ rfl
  exact List.mem_filterMap.mpr ⟨row, List.mem_singleton.mpr rfl, hid⟩

theorem Table.Textual.perm {rows rows' : Table} (h : rows.Textual) (hperm : rows.Perm rows') : rows'.Textual := by
  intro name hname
  obtain ⟨texts, htexts⟩ := h name hname
  have hcells : (rows.cells name).Perm (rows'.cells name) := hperm.map _
  have htext : ∀ c ∈ rows'.cells name, c ∈ Set.range fun text : Option String => text.map Json.str := by
    intro c hc
    rw [← hcells.mem_iff, htexts] at hc
    obtain ⟨text, -, rfl⟩ := List.mem_map.mp hc
    exact Set.mem_range_self text
  have hrange : rows'.cells name ∈ Set.range (List.map fun text : Option String => text.map Json.str) := by
    rw [Set.range_list_map]
    exact htext
  obtain ⟨texts', htexts'⟩ := hrange
  exact ⟨texts', htexts'.symm⟩

namespace Intake
variable {i : Intake} {row : Row}

/-- Both intakes together. -/
instance : Append Intake := ⟨fun i j => ⟨i.nodes ++ j.nodes, i.rules ++ j.rules, i.diagnostics ++ j.diagnostics⟩⟩

theorem append_def (i j : Intake) :
    i ++ j = ⟨i.nodes ++ j.nodes, i.rules ++ j.rules, i.diagnostics ++ j.diagnostics⟩ := rfl

/-- The row as the only one. -/
def ofRow (row : Row) : Intake := Intake.empty.add row

theorem accept_eq_append (i : Intake) (row : Row) (x : Double) : i.accept row x = i ++ Intake.empty.accept row x := by
  unfold accept
  cases Requirement.parse row.ruleText <;> simp [append_def, empty]

/-- A row is taken in as the only one, unless its id is taken. -/
theorem add_eq_append (h : (CourseId.normalize? row.courseId).isSome = true → i.hasNode row.courseId = false) :
    i.add row = i ++ ofRow row := by
  have hfault : idFault? i.hasNode row = idFault? Intake.empty.hasNode row := by
    have hempty : Intake.empty.hasNode row.courseId = false := rfl
    unfold idFault?
    cases hid : CourseId.normalize? row.courseId with
    | none => rfl
    | some id => rw [h (by rw [hid]; rfl), hempty]
  have hreport : ∀ ds, { i with diagnostics := i.diagnostics ++ ds } = i ++ { Intake.empty with diagnostics := ds } := by
    intro ds
    simp [append_def, empty]
  unfold ofRow add
  rw [hfault]
  split
  · exact hreport _
  · exact hreport _
  · split
    · exact accept_eq_append i row _
    · exact hreport _

/-- Rows that share no valid id are taken in each as the only one. -/
theorem ofRows_eq {rows : List Row} (h : Unrepeated rows) : ofRows rows =
    ⟨rows.flatMap fun row => (ofRow row).nodes, rows.flatMap fun row => (ofRow row).rules,
      rows.flatMap fun row => (ofRow row).diagnostics⟩ := by
  induction rows using List.reverseRecOn with
  | nil => rfl
  | append_singleton rows row ih =>
    have hnew : (CourseId.normalize? row.courseId).isSome = true → (ofRows rows).hasNode row.courseId = false := by
      intro hid
      rw [hasNode_ofRows, List.any_eq_false]
      intro other hother hsame
      exact h.ne_of_mem hid hother (of_decide_eq_true (Bool.and_eq_true_iff.mp hsame).2)
    rw [ofRows_append_singleton, add_eq_append hnew, ih h.of_append, append_def]
    simp only [List.flatMap_append, List.flatMap_singleton]

/-- The intakes hold the same, in whatever order. -/
structure Reordered (i j : Intake) : Prop where
  nodes : i.nodes.Perm j.nodes
  rules : i.rules.Perm j.rules
  diagnostics : i.diagnostics.Perm j.diagnostics

theorem reordered_ofRows {rows rows' : List Row} (h : Unrepeated rows) (hperm : rows.Perm rows') :
    (ofRows rows).Reordered (ofRows rows') := by
  have h' : Unrepeated rows' := (hperm.filterMap _).nodup_iff.mp h
  rw [ofRows_eq h, ofRows_eq h']
  exact ⟨hperm.flatMap_right _, hperm.flatMap_right _, hperm.flatMap_right _⟩

theorem Reordered.hasNode_eq {i j : Intake} (h : i.Reordered j) : i.hasNode = j.hasNode := by
  funext id
  rw [Bool.eq_iff_iff, hasNode_iff, hasNode_iff]
  exact (h.nodes.map Node.id).mem_iff

end Intake

/-! ### Compiling -/

/-- The compilations make the same graph and report the same, in whatever order. -/
structure Compilation.Reordered (c d : Compilation) : Prop where
  id : c.graph.id = d.graph.id
  nodes : c.graph.nodes.Perm d.graph.nodes
  edges : c.graph.edges.Perm d.graph.edges
  rules : c.graph.rules.Perm d.graph.rules
  diagnostics : c.diagnostics.Perm d.diagnostics

section
variable {cap : Option Int} {id : Json} {rows : List Row} {c : Compilation}

theorem reordered_of_compile {rows' : List Row} {d : Compilation} (h : Unrepeated rows) (hperm : rows.Perm rows')
    (hc : compile cap id rows = .ok c) (hd : compile cap id rows' = .ok d) : c.Reordered d := by
  have hintake := Intake.reordered_ofRows h hperm
  obtain ⟨edges, hedges, hgraph, hdiagnostics⟩ := compile_eq_ok hc
  obtain ⟨edges', hedges', hgraph', hdiagnostics'⟩ := compile_eq_ok hd
  rw [eq_of_drawEdges hedges] at hgraph
  rw [eq_of_drawEdges hedges', ← hintake.hasNode_eq] at hgraph'
  rw [← hintake.hasNode_eq] at hdiagnostics'
  refine ⟨?_, ?_, ?_, ?_, ?_⟩
  · rw [hgraph, hgraph']
  · rw [hgraph, hgraph']
    exact hintake.nodes
  · rw [hgraph, hgraph']
    exact hintake.rules.flatMap_right _
  · rw [hgraph, hgraph']
    exact hintake.rules.map _
  · rw [hdiagnostics, hdiagnostics']
    exact hintake.diagnostics.append (hintake.rules.flatMap_right _)

/-- A course is a node just if a complete row makes it one, wherever the row stands. -/
theorem mem_nodeIds_of_compile (h : compile cap id rows = .ok c) {x : String} :
    x ∈ c.graph.nodeIds ↔ ∃ row ∈ rows, row.isComplete = true ∧ row.courseId = x := by
  obtain ⟨edges, -, hgraph, -⟩ := compile_eq_ok h
  rw [hgraph, nodeIds, ← Intake.hasNode_iff, Intake.hasNode_ofRows]
  simp

/-- The edges are those of the rules, as far as they come from nodes. -/
theorem mem_edges_of_compile (h : compile cap id rows = .ok c) {e : Edge} : e ∈ c.graph.edges ↔
    ∃ rule ∈ c.graph.rules, ∃ r, Requirement.parse rule.expression = .ok r ∧ e ∈ edgesOf rule.courseId r.grouping ∧
      e.source ∈ c.graph.nodeIds := by
  obtain ⟨edges, hedges, hgraph, -⟩ := compile_eq_ok h
  have hsound := Intake.sound_ofRows rows
  rw [hgraph, eq_of_drawEdges hedges, nodeIds]
  constructor
  · intro he
    obtain ⟨⟨rule, r⟩, hentry, he⟩ := List.mem_flatMap.mp he
    obtain ⟨he, hsource⟩ := List.mem_filter.mp he
    exact ⟨rule, List.mem_map.mpr ⟨_, hentry, rfl⟩, r, (hsound.ruled _ hentry).2.2, he, Intake.hasNode_iff.mp hsource⟩
  · rintro ⟨rule, hrule, r, hr, he, hsource⟩
    obtain ⟨entry, hentry, rfl⟩ := List.mem_map.mp hrule
    obtain rfl : entry.2 = r := Except.ok.inj ((hsound.ruled _ hentry).2.2.symm.trans hr)
    exact List.mem_flatMap.mpr ⟨entry, hentry, List.mem_filter.mpr ⟨he, Intake.hasNode_iff.mpr hsource⟩⟩

/-- A reference is reported just if it leads to no node. -/
theorem mem_unknown_of_compile (h : compile cap id rows = .ok c) {x course : String} :
    .unknownPrerequisite x course ∈ c.diagnostics ↔ ∃ rule ∈ c.graph.rules, rule.courseId = course ∧
      ∃ r, Requirement.parse rule.expression = .ok r ∧ x ∈ r.courseIds ∧ x ∉ c.graph.nodeIds := by
  rw [mem_diagnostics_iff h]
  refine exists_congr fun rule => and_congr_right fun hrule => and_congr_right fun _ => ?_
  obtain ⟨-, -, r, hr⟩ := (wellFormed_of_compile h).ruled rule hrule
  rw [(c.graph.unknownIn_spec hr).2]
  refine ⟨fun hx => ⟨r, hr, hx⟩, fun ⟨r', hr', hx⟩ => ?_⟩
  obtain rfl : r = r' := Except.ok.inj (hr.symm.trans hr')
  exact hx

end

/-- A table of texts in which no two rows have the same valid id makes the same graph and the same diagnostics in
    whatever order its rows stand. References are resolved against all rows: an edge is drawn, or a prerequisite is
    reported as unknown, by whether some complete row has its id, and not by where the row stands. -/
theorem compile_of_perm {rows rows' : Table} (id : Json) (htextual : rows.Textual) (hdistinct : Unrepeated rows.toRows)
    (hperm : rows.Perm rows') : ∃ c d, compile none id rows.toRows = .ok c ∧ compile none id rows'.toRows = .ok d ∧
      c.Reordered d ∧
      (∀ e, e ∈ c.graph.edges ↔ ∃ rule ∈ c.graph.rules, ∃ r, Requirement.parse rule.expression = .ok r ∧
        e ∈ edgesOf rule.courseId r.grouping ∧ ∃ row ∈ rows.toRows, row.isComplete = true ∧ row.courseId = e.source) ∧
      ∀ x course, .unknownPrerequisite x course ∈ c.diagnostics ↔ ∃ rule ∈ c.graph.rules, rule.courseId = course ∧
        ∃ r, Requirement.parse rule.expression = .ok r ∧ x ∈ r.courseIds ∧
          ¬∃ row ∈ rows.toRows, row.isComplete = true ∧ row.courseId = x := by
  obtain ⟨c, hc⟩ := exists_compile id rows.toRows
  obtain ⟨d, hd⟩ := exists_compile id rows'.toRows
  have hrows : rows.toRows.Perm rows'.toRows := by
    rw [htextual.toRows_eq, (htextual.perm hperm).toRows_eq]
    exact hperm.map _
  refine ⟨c, d, hc, hd, reordered_of_compile hdistinct hrows hc hd, fun e => ?_, fun x course => ?_⟩
  · simp only [mem_edges_of_compile hc, mem_nodeIds_of_compile hc]
  · simp only [mem_unknown_of_compile hc, mem_nodeIds_of_compile hc]

/-- A course that needs one of a later row and one of no row, and a row without an id between them. -/
def forwardTable : Table :=
  [[("course_id", .str "A"), ("course_name", .str "Algebra"), ("prereq_expression", .str "B AND C")],
    [("course_name", .str "Nameless")],
    [("course_id", .str "B"), ("course_name", .str "Biology"), ("credits", .str "4")]]

/-- In either order the course is joined with the one and the other is reported. -/
theorem compile_of_perm_forward : forwardTable.Textual ∧ Unrepeated forwardTable.toRows ∧
    forwardTable.Perm forwardTable.reverse ∧
    ∃ c d, compile none (.str "temp") forwardTable.toRows = .ok c ∧
      compile none (.str "temp") (Table.toRows forwardTable.reverse) = .ok d ∧ c.Reordered d ∧
      ⟨"B", "A", none⟩ ∈ d.graph.edges ∧ .unknownPrerequisite "C" "A" ∈ d.diagnostics := by
  have htextual : forwardTable.Textual := by
    intro name hname
    simp only [List.mem_cons, List.not_mem_nil, or_false] at hname
    rcases hname with rfl | rfl | rfl | rfl
    · exact ⟨[some "A", none, some "B"], rfl⟩
    · exact ⟨[some "Algebra", some "Nameless", some "Biology"], rfl⟩
    · exact ⟨[none, none, some "4"], rfl⟩
    · exact ⟨[some "B AND C", none, none], rfl⟩
  have hdistinct : Unrepeated forwardTable.toRows := by
    rw [Unrepeated]
    decide +kernel
  have hperm : forwardTable.Perm forwardTable.reverse := (List.reverse_perm forwardTable).symm
  obtain ⟨c, d, hc, hd, hreordered, hedges, hunknown⟩ := compile_of_perm (.str "temp") htextual hdistinct hperm
  have hrules : (Intake.ofRows forwardTable.toRows).rules.map Prod.fst = [⟨"A", "B AND C"⟩, ⟨"B", "NONE"⟩] := by
    decide +kernel
  have hrule : ⟨"A", "B AND C"⟩ ∈ c.graph.rules := by
    obtain ⟨edges, -, hgraph, -⟩ := compile_eq_ok hc
    rw [hgraph, hrules]
    exact List.mem_cons_self ..
  have hread : Requirement.parse "B AND C" = .ok (.both (.course "B") (.course "C")) := by decide +kernel
  refine ⟨htextual, hdistinct, hperm, c, d, hc, hd, hreordered, hreordered.edges.mem_iff.mp ?_,
    hreordered.diagnostics.mem_iff.mp ?_⟩
  · exact (hedges _).mpr ⟨_, hrule, _, hread, by decide, by decide +kernel⟩
  · exact (hunknown _ _).mpr ⟨_, hrule, rfl, _, hread, by decide, by decide +kernel⟩

end Curriculum.Graph
