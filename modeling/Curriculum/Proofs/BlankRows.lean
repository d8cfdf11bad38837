import Curriculum.Graph.Compile
import Curriculum.Proofs.Numerals

/-! A blank row in a course table. The columns are turned into text as wholes, so a missing cell can change how the
    other cells of its column read: a column of whole numbers becomes one of binary64 numbers. Where the texts of a
    table are not of this kind, a blank row adds its own two diagnostics and disturbs nothing. -/

namespace Curriculum.Graph

/-! ### Columns -/

/-- The fields of each row of a table. -/
abbrev Table := List (List (String × Json))

/-- The cells of a column. -/
def Table.cells (rows : Table) (name : String) : List (Option Json) := rows.map fun fields => cell? name (.obj fields)

/-- The rows that the table is read as. -/
def Table.toRows (rows : Table) : List Row := Row.ofJson (rows.map .obj)

/-- There are cells, and all of them hold whole numbers. -/
def Whole (cells : List (Option Json)) : Prop := cells ≠ [] ∧ ∀ c ∈ cells, ∃ n, c = some (.int n)

theorem isGap_eq_false_iff {c : Option Json} : isGap c = false ↔ ∃ n, c = some (.int n) := by
  unfold isGap
  split
  · simp
  · next h => exact iff_of_false nofun fun ⟨n, hn⟩ => h n hn

/-- A column of which nothing is missing, and one with a gap, are written cell by cell; in both alike, unless the
    cells are whole numbers. -/
theorem columnTexts_gap (front back : List (Option Json)) :
    ∃ written gapped : Option Json → Option String,
      columnTexts (front ++ back) = (front ++ back).map written ∧
      columnTexts (front ++ none :: back) = (front ++ none :: back).map gapped ∧ gapped none = none ∧
      ∀ c ∈ front ++ back, gapped c = written c ∨ Whole (front ++ back) ∧
        ∃ n, c = some (.int n) ∧ written c = some (toString n) ∧ gapped c = some (Double.text (.ofInt n)) := by
  have hgap : (front ++ none :: back).any isGap = true := by simp [isGap]
  have hall : (front ++ none :: back).all (fun c => c.all fun v => (asDouble? v).isSome) =
      (front ++ back).all fun c => c.all fun v => (asDouble? v).isSome := by simp
  unfold columnTexts
  rw [hgap, hall]
  dsimp only
  -- Only a column of numbers is written differently with a gap, and only if it has none without the blank row.
  cases hnumeric : (front ++ back).all fun c => c.all fun v => (asDouble? v).isSome with
  | false => exact ⟨_, _, rfl, rfl, rfl, fun c _ => .inl rfl⟩
  | true =>
    cases hgaps : (front ++ back).any isGap with
    | true => exact ⟨_, _, rfl, rfl, rfl, fun c _ => .inl rfl⟩
    | false =>
      refine ⟨_, _, rfl, rfl, rfl, fun c hc => .inr ?_⟩
      rw [List.any_eq_false] at hgaps
      have hwhole : ∀ c ∈ front ++ back, ∃ n, c = some (.int n) := fun c hc =>
        isGap_eq_false_iff.mp (Bool.eq_false_iff.mpr (hgaps c hc))
      obtain ⟨n, rfl⟩ := hwhole c hc
      exact ⟨⟨List.ne_nil_of_mem hc, hwhole⟩, n, rfl, rfl, rfl⟩

theorem column_of_table (rows : Table) (default name : String) : column (rows.map .obj) default name =
    (columnTexts (rows.cells name)).map fun text => Text.trim (text.getD default) := by
  cases rows with
  | nil => rfl
  | cons fields rows =>
    have hcells : ((fields :: rows).map Json.obj).map (cell? name) = Table.cells (fields :: rows) name := List.map_map
    rw [← hcells]
    rfl

/-- A blank row leaves the texts of a column as they are, unless they are those of whole numbers. -/
theorem column_gap (front back : Table) (default name : String) :
    ∃ written gapped : List (String × Json) → String,
      column ((front ++ back).map .obj) default name = (front ++ back).map written ∧
      column ((front ++ [] :: back).map .obj) default name = (front ++ [] :: back).map gapped ∧
      gapped [] = Text.trim default ∧
      ∀ fields ∈ front ++ back, gapped fields = written fields ∨ Whole ((front ++ back).cells name) ∧
        ∃ n, cell? name (.obj fields) = some (.int n) ∧ written fields = Text.trim (toString n) ∧
          gapped fields = Text.trim (Double.text (.ofInt n)) := by
  have hfront : (front ++ back).cells name = front.cells name ++ back.cells name := List.map_append
  have hgap : Table.cells (front ++ [] :: back) name = front.cells name ++ none :: back.cells name := List.map_append
  obtain ⟨written, gapped, hwritten, hgapped, hnone, hsame⟩ := columnTexts_gap (front.cells name) (back.cells name)
  rw [← hfront] at hwritten hsame
  rw [← hgap] at hgapped
  refine ⟨fun fields => Text.trim ((written (cell? name (.obj fields))).getD default),
    fun fields => Text.trim ((gapped (cell? name (.obj fields))).getD default), ?_, ?_, ?_, fun fields hfields => ?_⟩
  · rw [column_of_table, hwritten, Table.cells, List.map_map, List.map_map]
    rfl
  · rw [column_of_table, hgapped, Table.cells, List.map_map, List.map_map]
    rfl
  · have hcell : cell? name (.obj []) = none := rfl
    dsimp only
    rw [hcell, hnone, Option.getD_none]
  · dsimp only
    rcases hsame _ (List.mem_map_of_mem hfields) with h | ⟨hwhole, n, hcell, hwritten, hgapped⟩
    · exact .inl (by rw [h])
    · refine .inr ⟨hwhole, n, hcell, ?_, ?_⟩
      · rw [hwritten, Option.getD_some]
      · rw [hgapped, Option.getD_some]

/-! ### Rows -/

/-- Two rows have the same texts and the same credits, however these are written. -/
structure Row.Same (row row' : Row) : Prop where
  courseId : row.courseId = row'.courseId
  name : row.name = row'.name
  expression : row.expression = row'.expression
  credits? : row.credits? = row'.credits?

/-- A row without cells. -/
def Row.blank : Row := ⟨"", "", "0", ""⟩

/-- What has to hold of a column so that a gap does not change how it reads: texts are no whole numbers, and whole
    credits are of finite size. -/
structure Table.Steady (rows : Table) : Prop where
  texts : ∀ name ∈ ["course_id", "course_name", "prereq_expression"], ¬Whole (rows.cells name)
  credits : Whole (rows.cells "credits") → ∀ n, some (.int n) ∈ rows.cells "credits" → isFinite (.ofInt n)

/-- Where each column is made of the texts of the rows one by one, so are the rows. -/
theorem toRows_of_columns {rows : Table} {id name credits expression : List (String × Json) → String}
    (hid : column (rows.map .obj) "" "course_id" = rows.map id) (hname : column (rows.map .obj) "" "course_name" = rows.map name)
    (hcredits : column (rows.map .obj) "0" "credits" = rows.map credits)
    (hexpression : column (rows.map .obj) "" "prereq_expression" = rows.map expression) :
    rows.toRows = rows.map fun fields => .ofTexts (id fields) (name fields) (credits fields) (expression fields) := by
  unfold Table.toRows Row.ofJson
  dsimp only
  rw [hid, hname, hcredits, hexpression, List.zip_map', List.zip_map', List.zip_map', List.map_map]
  rfl

theorem credits_ofTexts {credits : String} (hplain : ∀ c ∈ credits.toList, Decimal.IsPlain c) {x : Double}
    (hread : readCredits? credits = some x) (id name expression : String) :
    (Row.ofTexts id name (Text.trim credits) expression).credits = credits := by
  have hne : credits.isEmpty = false := by
    refine Bool.eq_false_iff.mpr fun h => ?_
    rw [String.isEmpty_iff.mp h] at hread
    cases hread
  have htrim := Decimal.trim_of_isPlain hplain
  simp only [Row.ofTexts, htrim, hne, Bool.false_eq_true, if_false]

theorem same_ofTexts {id name credits credits' expression : String}
    (h : (Row.ofTexts id name credits expression).credits? = (Row.ofTexts id name credits' expression).credits?) :
    (Row.ofTexts id name credits expression).Same (Row.ofTexts id name credits' expression) := ⟨rfl, rfl, rfl, h⟩

/-- A whole number of credits and the binary64 number it rounds to make rows that count as the same. -/
theorem same_of_whole_credits {n : Int} (hn : isFinite (.ofInt n)) (id name expression : String) :
    (Row.ofTexts id name (Text.trim (Double.text (.ofInt n))) expression).Same
      (Row.ofTexts id name (Text.trim (toString n)) expression) := by
  have hwhole : readCredits? (toString n) = some (.ofInt n) := by rw [readCredits?_int, if_pos hn]
  have hdouble : readCredits? (Double.text (.ofInt n)) = some (.ofInt n) := (readCredits?_text_ofInt hn).trans hwhole
  have hplain : ∀ c ∈ (Double.text (.ofInt n)).toList, Decimal.IsPlain c := by
    cases hx : Double.ofInt n with
    | finite negative m e => exact Decimal.isPlain_text negative m e
    | _ =>
      rw [hx] at hn
      cases hn
  refine same_ofTexts ?_
  rw [Row.credits?, Row.credits?, credits_ofTexts hplain hdouble, credits_ofTexts (Decimal.isPlain_int n) hwhole, hdouble, hwhole]

/-- A blank row is read as one, and the other rows are read as before. -/
theorem toRows_gap {front back : Table} (h : (front ++ back).Steady) : ∃ written gapped : List (String × Json) → Row,
    (front ++ back).toRows = (front ++ back).map written ∧
    Table.toRows (front ++ [] :: back) = (front ++ [] :: back).map gapped ∧ gapped [] = .blank ∧
    ∀ fields ∈ front ++ back, (gapped fields).Same (written fields) := by
  have htext : ∀ name ∈ ["course_id", "course_name", "prereq_expression"], ∃ written gapped : List (String × Json) → String,
      column ((front ++ back).map .obj) "" name = (front ++ back).map written ∧
      column ((front ++ [] :: back).map .obj) "" name = (front ++ [] :: back).map gapped ∧ gapped [] = "" ∧
      ∀ fields ∈ front ++ back, gapped fields = written fields := by
    intro name hname
    obtain ⟨written, gapped, hwritten, hgapped, hblank, hsame⟩ := column_gap front back "" name
    exact ⟨written, gapped, hwritten, hgapped, hblank, fun fields hfields =>
      (hsame fields hfields).resolve_right fun hwhole => h.texts name hname hwhole.1⟩
  obtain ⟨id, id', hid, hid', hidblank, hidsame⟩ := htext "course_id" (by decide)
  obtain ⟨name, name', hname, hname', hnameblank, hnamesame⟩ := htext "course_name" (by decide)
  obtain ⟨expression, expression', hexpression, hexpression', hexpressionblank, hexpressionsame⟩ :=
    htext "prereq_expression" (by decide)
  obtain ⟨credits, credits', hcredits, hcredits', hcreditsblank, hcreditssame⟩ := column_gap front back "0" "credits"
  refine ⟨_, _, toRows_of_columns hid hname hcredits hexpression, toRows_of_columns hid' hname' hcredits' hexpression', ?_,
    fun fields hfields => ?_⟩
  · rw [hidblank, hnameblank, hcreditsblank, hexpressionblank]
    decide
  · rw [hidsame fields hfields, hnamesame fields hfields, hexpressionsame fields hfields]
    rcases hcreditssame fields hfields with hcell | ⟨hwhole, n, hcell, hwritten, hgapped⟩
    · rw [hcell]
      exact ⟨rfl, rfl, rfl, rfl⟩
    · rw [hwritten, hgapped]
      exact same_of_whole_credits (h.credits hwhole n (List.mem_map.mpr ⟨fields, hfields, hcell⟩)) ..

/-! ### Taking in a blank row -/

namespace Intake

/-- The intake with some diagnostics in front of its own. -/
def reported (before : List Diagnostic) (i : Intake) : Intake := { i with diagnostics := before ++ i.diagnostics }

theorem add_congr {row row' : Row} (h : row.Same row') (i : Intake) : i.add row = i.add row' := by
  have hfault : idFault? i.hasNode row = idFault? i.hasNode row' := by rw [idFault?, h.courseId, idFault?]
  have hcells : cellFaults row = cellFaults row' := by rw [cellFaults, h.name, h.courseId, h.credits?, cellFaults]
  have haccept : ∀ credits, i.accept row credits = i.accept row' credits := by
    intro credits
    have hrule : row.ruleText = row'.ruleText := by rw [Row.ruleText, h.expression, Row.ruleText]
    simp only [accept, hrule, h.courseId, h.name]
  simp only [add, hfault, hcells, h.credits?, haccept]

theorem add_reported (before : List Diagnostic) (i : Intake) (row : Row) :
    (i.reported before).add row = (i.add row).reported before := by
  have hnode : (i.reported before).hasNode = i.hasNode := rfl
  have haccept : ∀ credits, (i.reported before).accept row credits = (i.accept row credits).reported before := by
    intro credits
    unfold accept
    cases Requirement.parse row.ruleText with
    | ok r => rfl
    | error e => simp [reported]
  unfold add
  rw [hnode]
  split
  · simp [reported]
  · simp [reported]
  · split
    · exact haccept _
    · simp [reported]

theorem foldl_add_reported (before : List Diagnostic) (rows : List Row) (i : Intake) :
    rows.foldl add (i.reported before) = (rows.foldl add i).reported before := by
  induction rows generalizing i with
  | nil => rfl
  | cons row rows ih => rw [List.foldl_cons, add_reported, ih, List.foldl_cons]

theorem foldl_add_congr {α : Type} {rows : List α} {f g : α → Row} (h : ∀ a ∈ rows, (f a).Same (g a)) (i : Intake) :
    (rows.map f).foldl add i = (rows.map g).foldl add i := by
  induction rows generalizing i with
  | nil => rfl
  | cons a rows ih =>
    obtain ⟨ha, hrows⟩ := List.forall_mem_cons.mp h
    rw [List.map_cons, List.foldl_cons, add_congr ha, ih hrows, List.map_cons, List.foldl_cons]

/-- The diagnostics of a blank row. -/
def blankFaults : List Diagnostic := [.missingId, .missingName ""]

theorem add_blank (i : Intake) : i.add .blank = { i with diagnostics := i.diagnostics ++ blankFaults } := by
  have hfault : idFault? i.hasNode .blank = some .missingId := rfl
  have hcells : cellFaults .blank = [.missingName ""] := by decide +kernel
  rw [add, hfault]
  simp only [hcells, blankFaults]

/-- With a blank row among them, rows leave what they leave without it, but for the diagnostics of the blank row. -/
theorem ofRows_blank (front back : List Row) : ∃ before i, ofRows (front ++ back) = reported before i ∧
    ofRows (front ++ .blank :: back) = reported (before ++ blankFaults) i := by
  -- The rows behind the blank one meet what those before it have made, whatever has been reported by then.
  let bare : Intake := { ofRows front with diagnostics := [] }
  have hfront : ofRows front = bare.reported (ofRows front).diagnostics := by simp [bare, reported]
  have hblank : (ofRows front).add .blank = bare.reported ((ofRows front).diagnostics ++ blankFaults) := by
    simp [add_blank, bare, reported]
  refine ⟨(ofRows front).diagnostics, back.foldl add bare, ?_, ?_⟩
  · calc ofRows (front ++ back) = back.foldl add (ofRows front) := List.foldl_append
      _ = back.foldl add (bare.reported (ofRows front).diagnostics) := congrArg (back.foldl add) hfront
      _ = _ := foldl_add_reported ..
  · calc ofRows (front ++ .blank :: back) = back.foldl add ((ofRows front).add .blank) := List.foldl_append
      _ = back.foldl add (bare.reported ((ofRows front).diagnostics ++ blankFaults)) := congrArg (back.foldl add) hblank
      _ = _ := foldl_add_reported ..

theorem compile_reported (cap : Option Int) (id : Json) (before : List Diagnostic) (i : Intake) :
    (i.reported before).compile cap id = (i.compile cap id).map fun c => ⟨c.graph, before ++ c.diagnostics⟩ := by
  have hnode : (i.reported before).hasNode = i.hasNode := rfl
  unfold compile
  rw [hnode]
  change (drawEdges cap i.hasNode i.rules >>= _) = _
  cases drawEdges cap i.hasNode i.rules with
  | error e => rfl
  | ok edges => simp [reported, Except.map]

end Intake

/-- A blank row anywhere in a table leaves the graph as it is and adds its two diagnostics, and where the table
    exceeds the cap it makes no difference, if the texts of the table are no columns of whole numbers. -/
theorem compile_with_blank_row (cap : Option Int) (id : Json) {front back : Table} (h : (front ++ back).Steady) :
    ∃ before added, added.map Diagnostic.message = ["Missing course_id", "Missing course_name for (unknown id)"] ∧
      (∀ e, compile cap id (front ++ back).toRows = .error e →
        compile cap id (Table.toRows (front ++ [] :: back)) = .error e) ∧
      ∀ graph diagnostics, compile cap id (front ++ back).toRows = .ok ⟨graph, diagnostics⟩ →
        ∃ after, diagnostics = before ++ after ∧
          compile cap id (Table.toRows (front ++ [] :: back)) = .ok ⟨graph, before ++ (added ++ after)⟩ := by
  obtain ⟨written, gapped, hwritten, hgapped, hblank, hsame⟩ := toRows_gap h
  obtain ⟨before, i, hplain, hwith⟩ := Intake.ofRows_blank (front.map written) (back.map written)
  have hrows : Intake.ofRows ((front ++ [] :: back).map gapped) =
      Intake.ofRows (front.map written ++ .blank :: back.map written) := by
    have hfront := Intake.foldl_add_congr (fun fields hfields => hsame fields (List.mem_append_left _ hfields))
    have hback := Intake.foldl_add_congr (fun fields hfields => hsame fields (List.mem_append_right _ hfields))
    rw [Intake.ofRows, List.map_append, List.foldl_append, hfront, List.map_cons, List.foldl_cons, hblank, hback, Intake.ofRows,
      List.foldl_append, List.foldl_cons]
  have hcompile : compile cap id (front ++ back).toRows = (i.compile cap id).map fun c => ⟨c.graph, before ++ c.diagnostics⟩ := by
    rw [compile, hwritten, List.map_append, hplain, Intake.compile_reported]
  have hcompile' : compile cap id (Table.toRows (front ++ [] :: back)) =
      (i.compile cap id).map fun c => ⟨c.graph, (before ++ Intake.blankFaults) ++ c.diagnostics⟩ := by
    rw [compile, hgapped, hrows, hwith, Intake.compile_reported]
  refine ⟨before, Intake.blankFaults, by decide, ?_⟩
  rw [hcompile, hcompile']
  cases i.compile cap id with
  | error e => exact ⟨fun e' he => he, nofun⟩
  | ok c =>
    refine ⟨nofun, fun graph diagnostics hok => ⟨c.diagnostics, ?_⟩⟩
    simp only [Except.map, Except.ok.injEq, Compilation.mk.injEq] at hok
    obtain ⟨rfl, rfl⟩ := hok
    exact ⟨rfl, by rw [Except.map, List.append_assoc]⟩

/-- Whole credits: beside the blank row they are binary64 numbers, and no other ones. -/
theorem compile_with_blank_row_credits :
    ∃ before added after graph,
      compile none (.str "temp") (Table.toRows [[("course_id", .str "A"), ("course_name", .str "N"), ("credits", .int 3)]]) =
        .ok ⟨graph, before ++ after⟩ ∧
      compile none (.str "temp")
        (Table.toRows [[("course_id", .str "A"), ("course_name", .str "N"), ("credits", .int 3)], []]) =
        .ok ⟨graph, before ++ (added ++ after)⟩ ∧
      added.map Diagnostic.message = ["Missing course_id", "Missing course_name for (unknown id)"] := by
  have hsteady : Table.Steady ([[("course_id", .str "A"), ("course_name", .str "N"), ("credits", .int 3)]] ++ []) := by
    refine ⟨fun name hname ⟨_, hwhole⟩ => ?_, fun _ n hn => ?_⟩
    · obtain ⟨n, hn⟩ := hwhole _ (List.mem_cons_self ..)
      simp only [List.mem_cons, List.not_mem_nil, or_false] at hname
      rcases hname with rfl | rfl | rfl <;> cases hn
    · obtain rfl : n = 3 := Json.int.inj (Option.some.inj (List.mem_singleton.mp hn))
      decide +kernel
  obtain ⟨before, added, hadded, -, hok⟩ := compile_with_blank_row none (.str "temp") hsteady
  have hcompiled : (compile none (.str "temp")
      (Table.toRows ([[("course_id", .str "A"), ("course_name", .str "N"), ("credits", .int 3)]] ++ []))).isOk = true := by
    decide +kernel
  cases hcompile : compile none (.str "temp")
      (Table.toRows ([[("course_id", .str "A"), ("course_name", .str "N"), ("credits", .int 3)]] ++ [])) with
  | error e =>
    rw [hcompile] at hcompiled
    cases hcompiled
  | ok c =>
    obtain ⟨after, hafter, hblank⟩ := hok c.graph c.diagnostics hcompile
    exact ⟨before, added, after, c.graph, by rw [← hafter]; exact hcompile, hblank, hadded⟩

/-- A whole course id becomes a binary64 number beside a blank row, and so the course is lost. -/
theorem compile_loses_whole_id :
    ((compile none (.str "temp")
      (Table.toRows [[("course_id", .int 100), ("course_name", .str "A"), ("credits", .int 3)]])).toOption.map
      fun c => (c.graph.nodes.map (·.id), c.diagnostics.map (·.message))) = some (["100"], []) ∧
    ((compile none (.str "temp")
      (Table.toRows [[("course_id", .int 100), ("course_name", .str "A"), ("credits", .int 3)], []])).toOption.map
      fun c => (c.graph.nodes.map (·.id), c.diagnostics.map (·.message))) =
        some ([], ["Invalid course_id 100.0", "Missing course_id", "Missing course_name for (unknown id)"]) := by
  constructor
  · decide +kernel
  · decide +kernel

end Curriculum.Graph
