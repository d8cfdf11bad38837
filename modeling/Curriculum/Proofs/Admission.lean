import Curriculum.Proofs.BlankRows
import Curriculum.Proofs.Compiled

/-! Which rows of a table become nodes. A row that is complete becomes one unless a complete row before it has its id;
    an incomplete row takes no id. The rules are those of the nodes whose text can be read. No row is passed over in
    silence: the first pass reports something about a row just if it becomes no node or its rule cannot be read. So
    the rows that become no nodes may as well be left out, and the graph is the same. -/

namespace Curriculum.Graph

/-! ### Places -/

section
variable {α β : Type}

/-- The items at the places with a property, in order. -/
def keepAt (p : Nat → Bool) (items : List α) : List α := (items.zipIdx.filter fun (_, k) => p k).map Prod.fst

theorem keepAt_append_singleton (p : Nat → Bool) (items : List α) (x : α) :
    keepAt p (items ++ [x]) = keepAt p items ++ if p items.length then [x] else [] := by
  unfold keepAt
  rw [List.zipIdx_append, List.filter_append, List.map_append, List.zipIdx_singleton, Nat.zero_add]
  cases h : p items.length <;> simp [h]

theorem keepAt_congr {p q : Nat → Bool} {items : List α} (h : ∀ k < items.length, p k = q k) :
    keepAt p items = keepAt q items := by
  unfold keepAt
  congr 1
  refine List.filter_congr fun entry hentry => ?_
  obtain ⟨x, k⟩ := entry
  exact h k (List.snd_lt_of_mem_zipIdx hentry)

theorem keepAt_map (p : Nat → Bool) (f : α → β) (items : List α) : keepAt p (items.map f) = (keepAt p items).map f := by
  unfold keepAt
  rw [List.zipIdx_map, List.filter_map, List.map_map, List.map_map]
  rfl

theorem mem_of_mem_keepAt {p : Nat → Bool} {items : List α} {x : α} (h : x ∈ keepAt p items) : x ∈ items := by
  obtain ⟨⟨y, k⟩, hentry, rfl⟩ := List.mem_map.mp h
  exact List.fst_mem_of_mem_zipIdx (List.mem_filter.mp hentry).1

end

/-! ### Complete rows -/

/-- A row has a good id, a name and credits. -/
def Row.isComplete (row : Row) : Bool :=
  (CourseId.normalize? row.courseId).isSome && !row.name.isEmpty && row.credits?.isSome

/-- A row becomes a node behind the given ones: it is complete, and no complete one of them has its id. -/
def Row.isAdmitted (before : List Row) (row : Row) : Bool :=
  row.isComplete && !before.any fun other => other.isComplete && other.courseId = row.courseId

/-- The row at the place becomes a node. -/
def admits (rows : List Row) (k : Nat) : Bool := rows[k]?.any (Row.isAdmitted (rows.take k))

/-- The rows that become nodes, in order. -/
def admitted (rows : List Row) : List Row := keepAt (admits rows) rows

theorem admitted_append_singleton (rows : List Row) (row : Row) :
    admitted (rows ++ [row]) = admitted rows ++ if row.isAdmitted rows then [row] else [] := by
  have hbefore : ∀ k < rows.length, admits (rows ++ [row]) k = admits rows k := by
    intro k hk
    rw [admits, List.getElem?_append_left hk, List.take_append_of_le_length (Nat.le_of_lt hk), admits]
  have hlast : admits (rows ++ [row]) rows.length = row.isAdmitted rows := by
    simp [admits]
  rw [admitted, keepAt_append_singleton, keepAt_congr hbefore, hlast, admitted]

/-- A row is admitted behind the rows that became nodes, if it is behind all. -/
theorem Row.isAdmitted_of_admitted {before : List Row} {row : Row} (h : row.isAdmitted before = true) :
    row.isAdmitted (admitted before) = true := by
  simp only [isAdmitted, Bool.and_eq_true, Bool.not_eq_true', List.any_eq_false] at h ⊢
  exact ⟨h.1, fun other hother => h.2 other (mem_of_mem_keepAt hother)⟩

/-- The rows that become nodes would all become nodes without the others. -/
theorem admitted_admitted (rows : List Row) : admitted (admitted rows) = admitted rows := by
  induction rows using List.reverseRecOn with
  | nil => rfl
  | append_singleton rows row ih =>
    rw [admitted_append_singleton]
    split
    · next h => rw [admitted_append_singleton, ih, if_pos (Row.isAdmitted_of_admitted h)]
    · rw [List.append_nil, ih]

/-! ### One row -/

/-- The node that a row makes if it has credits. -/
def Row.node? (row : Row) : Option Node := row.credits?.map fun x => ⟨row.courseId, row.name, x⟩

/-- The rule that a row makes, with its requirement, if that can be read. -/
def Row.rule? (row : Row) : Option (Rule × Requirement) :=
  (Requirement.parse row.ruleText).toOption.map fun r => (⟨row.courseId, row.ruleText⟩, r)

theorem map_rule?_eq (rows : List Row) : (rows.filterMap Row.rule?).map Prod.fst =
    (rows.filter fun row => (Requirement.parse row.ruleText).isOk).map fun row => ⟨row.courseId, row.ruleText⟩ := by
  induction rows with
  | nil => rfl
  | cons row rows ih =>
    cases hread : Requirement.parse row.ruleText <;>
      simp [Row.rule?, hread, ih, Except.toOption, Except.isOk, Except.toBool]

namespace Intake
variable {i : Intake} {row : Row}

theorem cellFaults_eq_nil_iff : cellFaults row = [] ↔ row.name.isEmpty = false ∧ row.credits?.isSome = true := by
  unfold cellFaults
  cases row.name.isEmpty <;> cases row.credits? <;> simp

theorem idFault?_eq_none_iff {taken : String → Bool} : idFault? taken row = none ↔
    (CourseId.normalize? row.courseId).isSome = true ∧ taken row.courseId = false := by
  have hempty : row.courseId.isEmpty = true → (CourseId.normalize? row.courseId).isSome = false := by
    intro h
    rw [String.isEmpty_iff.mp h]
    decide
  unfold idFault?
  cases he : row.courseId.isEmpty with
  | true => simp [hempty he]
  | false => cases CourseId.normalize? row.courseId <;> cases taken row.courseId <;> simp

theorem add_of_admitted (hcomplete : row.isComplete = true) (hnew : i.hasNode row.courseId = false) :
    ∃ x, row.credits? = some x ∧ i.add row = i.accept row x := by
  simp only [Row.isComplete, Bool.and_eq_true, Bool.not_eq_true'] at hcomplete
  obtain ⟨⟨hid, hname⟩, hcredits⟩ := hcomplete
  obtain ⟨x, hx⟩ := Option.isSome_iff_exists.mp hcredits
  refine ⟨x, hx, ?_⟩
  unfold add
  rw [idFault?_eq_none_iff.mpr ⟨hid, hnew⟩, cellFaults_eq_nil_iff.mpr ⟨hname, hcredits⟩, hx]

theorem add_of_refused (h : row.isComplete = true → i.hasNode row.courseId = true) :
    ∃ ds, ds ≠ [] ∧ i.add row = { i with diagnostics := i.diagnostics ++ ds } := by
  unfold add
  split
  · exact ⟨_, List.cons_ne_nil _ _, rfl⟩
  · exact ⟨_, List.cons_ne_nil _ _, rfl⟩
  · next hfault =>
    obtain ⟨hid, hnew⟩ := idFault?_eq_none_iff.mp hfault
    have hfaults : cellFaults row ≠ [] := by
      intro hnil
      obtain ⟨hname, hcredits⟩ := cellFaults_eq_nil_iff.mp hnil
      rw [h (by simp [Row.isComplete, hid, hname, hcredits])] at hnew
      cases hnew
    split
    · next hnil _ => exact absurd hnil hfaults
    · exact ⟨_, hfaults, rfl⟩

theorem accept_nodes (i : Intake) (row : Row) (x : Double) :
    (i.accept row x).nodes = i.nodes ++ [⟨row.courseId, row.name, x⟩] := by
  unfold accept
  cases Requirement.parse row.ruleText <;> rfl

theorem accept_rules (i : Intake) (row : Row) (x : Double) :
    (i.accept row x).rules = i.rules ++ row.rule?.toList := by
  unfold accept Row.rule?
  cases Requirement.parse row.ruleText with
  | ok r => rfl
  | error e => exact (List.append_nil _).symm

/-- Accepting a row adds a diagnostic just if its rule cannot be read. -/
theorem accept_diagnostics (i : Intake) (row : Row) (x : Double) :
    ∃ ds, (i.accept row x).diagnostics = i.diagnostics ++ ds ∧ (ds = [] ↔ (Requirement.parse row.ruleText).isOk = true) := by
  unfold accept
  cases Requirement.parse row.ruleText with
  | ok r => exact ⟨[], (List.append_nil _).symm, iff_of_true rfl rfl⟩
  | error e => exact ⟨[_], rfl, iff_of_false nofun nofun⟩

/-! ### All rows -/

theorem ofRows_append_singleton (rows : List Row) (row : Row) : ofRows (rows ++ [row]) = (ofRows rows).add row := by
  rw [ofRows, List.foldl_append, List.foldl_cons, List.foldl_nil, ofRows]

/-- The ids that are taken are those of complete rows. -/
theorem hasNode_ofRows (rows : List Row) (id : String) :
    (ofRows rows).hasNode id = rows.any fun row => row.isComplete && row.courseId = id := by
  induction rows using List.reverseRecOn with
  | nil => rfl
  | append_singleton rows row ih =>
    rw [ofRows_append_singleton, List.any_append, ← ih, List.any_cons, List.any_nil, Bool.or_false]
    by_cases hrefused : row.isComplete = true → (ofRows rows).hasNode row.courseId = true
    · obtain ⟨ds, -, hadd⟩ := add_of_refused hrefused
      rw [hadd]
      refine (Bool.or_eq_left_iff_imp.mpr fun h => ?_).symm
      obtain ⟨hcomplete, hid⟩ := Bool.and_eq_true_iff.mp h
      rw [← of_decide_eq_true hid]
      exact hrefused hcomplete
    · obtain ⟨hcomplete, hnew⟩ := Classical.not_imp.mp hrefused
      obtain ⟨x, -, hadd⟩ := add_of_admitted hcomplete (Bool.eq_false_iff.mpr hnew)
      rw [hadd, hcomplete, Bool.true_and, hasNode, accept_nodes, List.any_append, List.any_cons, List.any_nil, Bool.or_false,
        hasNode]

/-- A row that is admitted is accepted, and any other adds diagnostics only. -/
theorem add_ofRows_cases (rows : List Row) (row : Row) :
    (row.isAdmitted rows = true ∧ ∃ x, row.credits? = some x ∧ (ofRows rows).add row = (ofRows rows).accept row x) ∨
    (row.isAdmitted rows = false ∧ ∃ ds, ds ≠ [] ∧
      (ofRows rows).add row = { ofRows rows with diagnostics := (ofRows rows).diagnostics ++ ds }) := by
  have hadmitted : row.isAdmitted rows = (row.isComplete && !(ofRows rows).hasNode row.courseId) := by
    rw [hasNode_ofRows, Row.isAdmitted]
  rw [hadmitted]
  cases hcomplete : row.isComplete with
  | false => exact .inr ⟨rfl, add_of_refused fun h => absurd (hcomplete.symm.trans h) Bool.false_ne_true⟩
  | true =>
    cases hnode : (ofRows rows).hasNode row.courseId with
    | false => exact .inl ⟨rfl, add_of_admitted hcomplete hnode⟩
    | true => exact .inr ⟨rfl, add_of_refused fun _ => hnode⟩

/-- The nodes are those of the admitted rows and the rules are those of them that can be read. -/
theorem nodes_and_rules_ofRows (rows : List Row) : (ofRows rows).nodes.map some = (admitted rows).map Row.node? ∧
    (ofRows rows).rules = (admitted rows).filterMap Row.rule? := by
  induction rows using List.reverseRecOn with
  | nil => exact ⟨rfl, rfl⟩
  | append_singleton rows row ih =>
    obtain ⟨hnodes, hrules⟩ := ih
    rw [ofRows_append_singleton, admitted_append_singleton]
    rcases add_ofRows_cases rows row with ⟨hadmitted, x, hx, hadd⟩ | ⟨hadmitted, ds, -, hadd⟩
    · have hnode : row.node? = some ⟨row.courseId, row.name, x⟩ := by rw [Row.node?, hx, Option.map_some]
      have hrule : [row].filterMap Row.rule? = row.rule?.toList := by cases h : row.rule? <;> simp [h]
      rw [hadmitted, if_pos rfl, hadd, accept_nodes, accept_rules, List.map_append, List.map_append, List.filterMap_append,
        hnodes, hrules, hrule, List.map_singleton, List.map_singleton, hnode]
      exact ⟨rfl, rfl⟩
    · rw [hadmitted, if_neg Bool.false_ne_true, List.append_nil, hadd]
      exact ⟨hnodes, hrules⟩

/-! ### Reports -/

/-- The diagnostics that taking in a row adds. -/
def reports (i : Intake) (row : Row) : List Diagnostic := (i.add row).diagnostics.drop i.diagnostics.length

theorem reports_eq {ds : List Diagnostic} (h : (i.add row).diagnostics = i.diagnostics ++ ds) : i.reports row = ds := by
  rw [reports, h, List.drop_left]

/-- Taking in a row adds to the diagnostics what is reported about it, and this is nothing just if the row becomes a
    node and its rule can be read. -/
theorem reports_spec (rows : List Row) (row : Row) :
    ((ofRows rows).add row).diagnostics = (ofRows rows).diagnostics ++ (ofRows rows).reports row ∧
    ((ofRows rows).reports row = [] ↔ row.isAdmitted rows = true ∧ (Requirement.parse row.ruleText).isOk = true) := by
  rcases add_ofRows_cases rows row with ⟨hadmitted, x, -, hadd⟩ | ⟨hadmitted, ds, hds, hadd⟩
  · obtain ⟨ds, hgrows, hnil⟩ := (ofRows rows).accept_diagnostics row x
    rw [← hadd] at hgrows
    rw [reports_eq hgrows, hadmitted, hnil]
    exact ⟨hgrows, (and_iff_right rfl).symm⟩
  · have hgrows : ((ofRows rows).add row).diagnostics = (ofRows rows).diagnostics ++ ds := by rw [hadd]
    rw [reports_eq hgrows, hadmitted]
    exact ⟨hgrows, iff_of_false hds fun h => Bool.false_ne_true h.1⟩

end Intake

/-- What the first pass reports about the row at the place. -/
def reportsAt (rows : List Row) (k : Nat) : List Diagnostic := rows[k]?.elim [] (Intake.ofRows (rows.take k)).reports

theorem reportsAt_append {rows : List Row} {k : Nat} (hk : k < rows.length) (row : Row) :
    reportsAt (rows ++ [row]) k = reportsAt rows k := by
  rw [reportsAt, List.getElem?_append_left hk, List.take_append_of_le_length (Nat.le_of_lt hk), reportsAt]

theorem reportsAt_eq_nil_iff {rows : List Row} {k : Nat} {row : Row} (h : rows[k]? = some row) : reportsAt rows k = [] ↔
    admits rows k = true ∧ (Requirement.parse row.ruleText).isOk = true := by
  rw [reportsAt, admits, h]
  exact (Intake.reports_spec _ row).2

/-- The first pass reports about the rows one by one. -/
theorem diagnostics_ofRows (rows : List Row) :
    (Intake.ofRows rows).diagnostics = (List.range rows.length).flatMap (reportsAt rows) := by
  induction rows using List.reverseRecOn with
  | nil => rfl
  | append_singleton rows row ih =>
    have hlast : reportsAt (rows ++ [row]) rows.length = (Intake.ofRows rows).reports row := by simp [reportsAt]
    have hbefore : (List.range rows.length).flatMap (reportsAt (rows ++ [row])) =
        (List.range rows.length).flatMap (reportsAt rows) :=
      List.flatMap_congr fun k hk => reportsAt_append (List.mem_range.mp hk) row
    rw [Intake.ofRows_append_singleton, (Intake.reports_spec rows row).1, ih, List.length_append, List.length_singleton,
      List.range_succ, List.flatMap_append, hbefore, List.flatMap_singleton, hlast]

/-! ### Compiling -/

/-- Without a cap every table is compiled. -/
theorem exists_compile (id : Json) (rows : List Row) : ∃ c, compile none id rows = .ok c := by
  rw [compile, Intake.compile, drawEdges_none]
  exact ⟨_, rfl⟩

theorem compile_graph (cap : Option Int) (id : Json) (i : Intake) : (i.compile cap id).map Compilation.graph =
    (drawEdges cap i.hasNode i.rules).map fun edges => ⟨id, i.nodes, edges, i.rules.map Prod.fst⟩ := by
  unfold Intake.compile
  cases drawEdges cap i.hasNode i.rules <;> rfl

/-- Without the rows that become no nodes the graph is the same. -/
theorem compile_admitted (cap : Option Int) (id : Json) (rows : List Row) :
    (compile cap id (admitted rows)).map Compilation.graph = (compile cap id rows).map Compilation.graph := by
  obtain ⟨hnodes, hrules⟩ := Intake.nodes_and_rules_ofRows rows
  obtain ⟨hnodes', hrules'⟩ := Intake.nodes_and_rules_ofRows (admitted rows)
  rw [admitted_admitted] at hnodes' hrules'
  have hsame : (Intake.ofRows (admitted rows)).nodes = (Intake.ofRows rows).nodes :=
    List.map_injective_iff.mpr (Option.some_injective Node) (hnodes'.trans hnodes.symm)
  have hknown : (Intake.ofRows (admitted rows)).hasNode = (Intake.ofRows rows).hasNode := by
    funext id
    rw [Intake.hasNode, hsame, Intake.hasNode]
  rw [compile, compile, compile_graph, compile_graph, hknown, hsame, hrules', hrules]

/-- The diagnostics are those of the first pass and then those of references. -/
theorem diagnostics_of_compile {cap : Option Int} {id : Json} {rows : List Row} {c : Compilation}
    (h : compile cap id rows = .ok c) : ∃ later, c.diagnostics = (List.range rows.length).flatMap (reportsAt rows) ++ later ∧
      ∀ d ∈ later, ∃ x course, d = .unknownPrerequisite x course := by
  obtain ⟨edges, -, -, hdiagnostics⟩ := compile_eq_ok h
  rw [hdiagnostics, diagnostics_ofRows]
  refine ⟨_, rfl, fun d hd => ?_⟩
  obtain ⟨entry, -, hd⟩ := List.mem_flatMap.mp hd
  obtain ⟨x, -, rfl⟩ := List.mem_map.mp hd
  exact ⟨x, _, rfl⟩

/-! ### Tables of texts -/

/-- Every cell that a row is made of holds a text or is missing. -/
def Table.Textual (rows : Table) : Prop :=
  ∀ name ∈ ["course_id", "course_name", "credits", "prereq_expression"], ∃ texts : List (Option String),
    rows.cells name = texts.map fun text => text.map .str

/-- The text in a cell, or the default where there is none. -/
def cellText (default name : String) (fields : List (String × Json)) : String :=
  ((cell? name (.obj fields)).map Json.text).getD default

/-- The row that cells make, whatever the other rows of the table are. -/
def Row.ofCells (fields : List (String × Json)) : Row :=
  .ofTexts (cellText "" "course_id" fields) (cellText "" "course_name" fields) (cellText "0" "credits" fields)
    (cellText "" "prereq_expression" fields)

/-- A column of texts is written cell by cell. -/
theorem columnTexts_of_texts {cells : List (Option Json)} {texts : List (Option String)}
    (h : cells = texts.map fun text => text.map .str) : columnTexts cells = cells.map fun c => c.map Json.text := by
  unfold columnTexts
  dsimp only
  split
  · next hnumeric =>
    obtain ⟨hnumeric, -⟩ := Bool.and_eq_true_iff.mp hnumeric
    refine List.map_congr_left fun c hc => ?_
    have hnumber := List.all_eq_true.mp hnumeric c hc
    rw [h] at hc
    obtain ⟨text, -, rfl⟩ := List.mem_map.mp hc
    cases text with
    | none => rfl
    | some s => exact absurd hnumber Bool.false_ne_true
  · rfl

theorem Table.Textual.column_eq {rows : Table} (h : rows.Textual) {name : String}
    (hname : name ∈ ["course_id", "course_name", "credits", "prereq_expression"]) (default : String) :
    column (rows.map .obj) default name = rows.map fun fields => Text.trim (cellText default name fields) := by
  obtain ⟨texts, htexts⟩ := h name hname
  rw [column_of_table, columnTexts_of_texts htexts, Table.cells, List.map_map, List.map_map]
  rfl

theorem Table.Textual.toRows_eq {rows : Table} (h : rows.Textual) : rows.toRows = rows.map Row.ofCells := by
  rw [toRows_of_columns (h.column_eq (by decide) "") (h.column_eq (by decide) "") (h.column_eq (by decide) "0")
    (h.column_eq (by decide) "")]
  refine List.map_congr_left fun fields _ => ?_
  simp only [Row.ofCells, Row.ofTexts, Text.trim_trim]

theorem Table.Textual.keepAt {rows : Table} (h : rows.Textual) (p : Nat → Bool) : Textual (keepAt p rows) := by
  intro name hname
  obtain ⟨texts, htexts⟩ := h name hname
  refine ⟨Graph.keepAt p texts, ?_⟩
  rw [cells, ← keepAt_map, ← cells, htexts, keepAt_map]

/-! ### The rows of a table -/

/-- In a table of texts each row is read by itself, and it becomes a node just if it is complete and no complete row
    before it has its id. The rules are those of the nodes that can be read, in their order. Nothing is reported about
    a row, before the references are looked at, just if it becomes a node and its rule can be read. The graph is the
    same without the rows that become no nodes. -/
theorem rows_accounted_for (cap : Option Int) (id : Json) {rows : Table} (h : rows.Textual) :
    rows.toRows = rows.map Row.ofCells ∧
    (cap = none → ∃ c, compile cap id rows.toRows = .ok c) ∧
    (∀ c, compile cap id rows.toRows = .ok c →
      c.graph.nodes.map some = (admitted rows.toRows).map Row.node? ∧
      (c.graph.nodes.map Node.id).Nodup ∧
      (∀ x, x ∈ c.graph.nodes.map Node.id ↔ ∃ row ∈ rows.toRows, row.isComplete = true ∧ row.courseId = x) ∧
      c.graph.rules = ((admitted rows.toRows).filter fun row => (Requirement.parse row.ruleText).isOk).map
        (fun row => ⟨row.courseId, row.ruleText⟩) ∧
      ∃ later, c.diagnostics = (List.range rows.length).flatMap (reportsAt rows.toRows) ++ later ∧
        ∀ d ∈ later, ∃ x course, d = .unknownPrerequisite x course) ∧
    (∀ k row, rows.toRows[k]? = some row →
      (admits rows.toRows k = false → reportsAt rows.toRows k ≠ []) ∧
      (admits rows.toRows k = true → (reportsAt rows.toRows k ≠ [] ↔ (Requirement.parse row.ruleText).isOk = false))) ∧
    (compile cap id (Table.toRows (keepAt (admits rows.toRows) rows))).map Compilation.graph =
      (compile cap id rows.toRows).map Compilation.graph := by
  refine ⟨h.toRows_eq, ?_, fun c hc => ?_, fun k row hrow => ?_, ?_⟩
  · rintro rfl
    exact exists_compile id rows.toRows
  · obtain ⟨edges, -, hgraph, -⟩ := compile_eq_ok hc
    obtain ⟨hnodes, hrules⟩ := Intake.nodes_and_rules_ofRows rows.toRows
    have hlength : rows.toRows.length = rows.length := by rw [h.toRows_eq, List.length_map]
    rw [← hlength]
    refine ⟨?_, ?_, fun x => ?_, ?_, diagnostics_of_compile hc⟩
    · rw [hgraph, hnodes]
    · rw [hgraph]
      exact (Intake.sound_ofRows _).distinct
    · rw [hgraph, ← Intake.hasNode_iff, Intake.hasNode_ofRows]
      simp
    · rw [hgraph, ← map_rule?_eq, hrules]
  · refine ⟨fun hrefused hnil => ?_, fun hadmitted => ?_⟩
    · rw [((reportsAt_eq_nil_iff hrow).mp hnil).1] at hrefused
      cases hrefused
    · rw [Ne, reportsAt_eq_nil_iff hrow, and_iff_right hadmitted, Bool.not_eq_true]
  · rw [(h.keepAt _).toRows_eq, ← keepAt_map, ← h.toRows_eq]
    exact compile_admitted cap id rows.toRows

/-- A table with a row of each kind: one without a name, a complete one with its id, one more with that id, one with
    bad credits, and a complete one whose rule cannot be read. -/
def mixedTable : Table :=
  [[("course_id", .str " A "), ("credits", .str "3")],
    [("course_id", .str "A"), ("course_name", .str "Algebra"), ("credits", .null)],
    [("course_id", .str "A"), ("course_name", .str "Again"), ("prereq_expression", .str "B OR")],
    [("course_id", .str "B"), ("course_name", .str "Biology"), ("credits", .str "-1")],
    [("course_id", .str "C"), ("course_name", .str "Chemistry"), ("credits", .str "4"), ("prereq_expression", .str "A AND")]]

/-- Two rows become nodes, and the row without a name and the one whose rule cannot be read are reported. -/
theorem rows_accounted_for_mixed : mixedTable.Textual ∧ ∃ c, compile none (.str "temp") mixedTable.toRows = .ok c ∧
    c.graph.nodes.map some = [some ⟨"A", "Algebra", .ofInt 0⟩, some ⟨"C", "Chemistry", .ofInt 4⟩] ∧
    c.graph.rules = [⟨"A", "NONE"⟩] ∧
    reportsAt mixedTable.toRows 0 ≠ [] ∧ reportsAt mixedTable.toRows 1 = [] ∧ reportsAt mixedTable.toRows 4 ≠ [] ∧
    (compile none (.str "temp") (Table.toRows (keepAt (fun k => k = 1 || k = 4) mixedTable))).map Compilation.graph =
      .ok c.graph := by
  have htextual : mixedTable.Textual := by
    intro name hname
    simp only [List.mem_cons, List.not_mem_nil, or_false] at hname
    rcases hname with rfl | rfl | rfl | rfl
    · exact ⟨[some " A ", some "A", some "A", some "B", some "C"], rfl⟩
    · exact ⟨[none, some "Algebra", some "Again", some "Biology", some "Chemistry"], rfl⟩
    · exact ⟨[some "3", none, none, some "-1", some "4"], rfl⟩
    · exact ⟨[none, none, some "B OR", none, some "A AND"], rfl⟩
  obtain ⟨-, htotal, hcompiled, hreported, hleft⟩ := rows_accounted_for none (.str "temp") htextual
  obtain ⟨c, hc⟩ := htotal rfl
  obtain ⟨hnodes, -, -, hrules, -⟩ := hcompiled c hc
  have hadmits : ∀ k < mixedTable.length, admits mixedTable.toRows k = (k = 1 || k = 4) := by decide +kernel
  rw [keepAt_congr hadmits, hc] at hleft
  refine ⟨htextual, c, hc, ?_, ?_, ?_, ?_, ?_, hleft⟩
  · rw [hnodes]
    decide +kernel
  · rw [hrules]
    decide +kernel
  · exact (hreported 0 ⟨"A", "", "3", ""⟩ (by decide +kernel)).1 (hadmits 0 (by decide))
  · have hiff := (hreported 1 ⟨"A", "Algebra", "0", ""⟩ (by decide +kernel)).2 (hadmits 1 (by decide))
    exact not_not.mp fun hne => absurd (hiff.mp hne) (by decide +kernel)
  · have hiff := (hreported 4 ⟨"C", "Chemistry", "4", "A AND"⟩ (by decide +kernel)).2 (hadmits 4 (by decide))
    exact hiff.mpr (by decide +kernel)

end Curriculum.Graph
