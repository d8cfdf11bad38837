import Curriculum.Graph.Compile
import Curriculum.Proofs.Alternatives
import Curriculum.Proofs.WellFormed

/-! What is left when the rows of a course table have been taken in, whatever they hold: nodes with distinct
    ids and good credits, rules that can be read, and no word yet about references. Drawing edges between the
    nodes makes a well-formed graph of this, and reports every reference to a course that is no node. -/

namespace Curriculum

namespace Graph

/-! ### Diagnostics -/

/-- The diagnostic is about what a row says itself, not about a reference to another course. -/
def Diagnostic.OfRow (d : Diagnostic) : Prop := ∀ id course, d ≠ .unknownPrerequisite id course

theorem head?_append {s t : String} {c : Char} (h : s.toList.head? = some c) : (s ++ t).toList.head? = some c := by
  rw [String.toList_append, List.head?_append, h]
  rfl

/-- Only the diagnostic of a reference reads like one. -/
theorem Diagnostic.OfRow.message_ne {d : Diagnostic} (h : d.OfRow) (id course : String) :
    d.message ≠ "Unknown prerequisite " ++ id ++ " referenced by " ++ course := by
  intro he
  have hfirst : d.message.toList.head? = some 'U' := by
    rw [he]
    exact head?_append (head?_append (head?_append (by decide)))
  have hother : ∀ {c : Char}, d.message.toList.head? = some c → c = 'U' := fun hc =>
    Option.some.inj (hc.symm.trans hfirst)
  cases d with
  | unknownPrerequisite id course => exact h id course rfl
  | missingId => exact absurd (hother (c := 'M') (by decide)) (by decide)
  | invalidId | invalidCredits => exact absurd (hother (c := 'I') (head?_append (by decide))) (by decide)
  | duplicateId => exact absurd (hother (c := 'D') (head?_append (by decide))) (by decide)
  | missingName => exact absurd (hother (c := 'M') (head?_append (by decide))) (by decide)
  | invalidExpression =>
    exact absurd (hother (c := 'I') (head?_append (head?_append (head?_append (by decide))))) (by decide)

theorem ofRow_of_idFault {taken : String → Bool} {row : Row} {d : Diagnostic} (h : idFault? taken row = some d) :
    d.OfRow := by
  rintro id course rfl
  unfold idFault? at h
  split at h
  · cases h
  · split at h
    · cases h
    · split at h <;> cases h

theorem ofRow_of_mem_cellFaults {row : Row} {d : Diagnostic} (h : d ∈ cellFaults row) : d.OfRow := by
  rintro id course rfl
  unfold cellFaults at h
  rcases List.mem_append.mp h with h | h
  · split at h <;> simp at h
  · split at h <;> simp at h

/-! ### Taking in one row -/

theorem of_idFault_eq_none {taken : String → Bool} {row : Row} (h : idFault? taken row = none) :
    (Text.trim row.courseId).isEmpty = false ∧ taken row.courseId = false := by
  unfold idFault? at h
  split at h
  · cases h
  · split at h
    · cases h
    · next hid =>
      split at h
      · cases h
      · next ht =>
        refine ⟨?_, Bool.eq_false_iff.mpr ht⟩
        cases hblank : (Text.trim row.courseId).isEmpty with
        | false => rfl
        | true =>
          have hn : CourseId.normalize? row.courseId = none := by
            unfold CourseId.normalize? CourseId.isValid
            simp [hblank]
          rw [hn] at hid
          exact absurd rfl hid

theorem Row.ruleText_ne_empty (row : Row) : row.ruleText ≠ "" := by
  unfold Row.ruleText
  split
  · decide
  · next h => simpa using h

/-- A row adds diagnostics only, or it is faultless and is accepted. -/
theorem Intake.add_cases (i : Intake) (row : Row) :
    (∃ ds : List Diagnostic, (∀ d ∈ ds, d.OfRow) ∧ i.add row = { i with diagnostics := i.diagnostics ++ ds }) ∨
      ∃ credits, idFault? i.hasNode row = none ∧ row.credits? = some credits ∧ i.add row = i.accept row credits := by
  unfold Intake.add
  split
  · next hf =>
    refine Or.inl ⟨_, fun d hd => ?_, rfl⟩
    rcases List.mem_cons.mp hd with rfl | hd
    · exact ofRow_of_idFault hf
    · exact ofRow_of_mem_cellFaults hd
  · next hf =>
    refine Or.inl ⟨_, fun d hd => ?_, rfl⟩
    rw [List.mem_singleton.mp hd]
    exact ofRow_of_idFault hf
  · next hf =>
    split
    · next credits _ hcredits => exact Or.inr ⟨credits, hf, hcredits, rfl⟩
    · exact Or.inl ⟨_, fun d hd => ofRow_of_mem_cellFaults hd, rfl⟩

/-- A faultless row with a readable requirement becomes a node and a rule. -/
theorem Intake.add_of_faultless {i : Intake} {row : Row} {x : Double} {r : Requirement}
    (hid : idFault? i.hasNode row = none) (hcells : cellFaults row = []) (hc : row.credits? = some x)
    (hr : Requirement.parse row.ruleText = .ok r) :
    i.add row = ⟨i.nodes ++ [⟨row.courseId, row.name, x⟩],
      i.rules ++ [(⟨row.courseId, row.ruleText⟩, r)], i.diagnostics⟩ := by
  unfold Intake.add
  rw [hid, hcells, hc]
  unfold Intake.accept
  rw [hr]

/-! ### Taking in all rows -/

/-- The nodes have distinct ids that are not blank, and credits that are not negative. The rules belong to nodes
    and were read as their requirements. All diagnostics are about single rows. -/
structure Intake.Sound (i : Intake) : Prop where
  distinct : (i.nodes.map Node.id).Nodup
  named : ∀ n ∈ i.nodes, (Text.trim n.id).isEmpty = false
  credited : ∀ n ∈ i.nodes, n.credits.isNegative = false
  ruled : ∀ e ∈ i.rules, e.1.courseId ∈ i.nodes.map Node.id ∧ e.1.expression ≠ "" ∧
    Requirement.parse e.1.expression = .ok e.2
  reported : ∀ d ∈ i.diagnostics, d.OfRow

namespace Intake

theorem hasNode_iff {i : Intake} {id : String} : i.hasNode id = true ↔ id ∈ i.nodes.map Node.id := by
  simp [hasNode]

theorem sound_empty : Sound .empty :=
  ⟨List.nodup_nil, fun _ h => absurd h List.not_mem_nil, fun _ h => absurd h List.not_mem_nil,
    fun _ h => absurd h List.not_mem_nil, fun _ h => absurd h List.not_mem_nil⟩

namespace Sound
variable {i : Intake} {row : Row}

theorem report (h : i.Sound) {ds : List Diagnostic} (hds : ∀ d ∈ ds, d.OfRow) :
    Sound { i with diagnostics := i.diagnostics ++ ds } where
  distinct := h.distinct
  named := h.named
  credited := h.credited
  ruled := h.ruled
  reported d hd := (List.mem_append.mp hd).elim (h.reported d) (hds d)

theorem addNode (h : i.Sound) {n : Node} (hfresh : n.id ∉ i.nodes.map Node.id)
    (hname : (Text.trim n.id).isEmpty = false) (hcredits : n.credits.isNegative = false) :
    Sound { i with nodes := i.nodes ++ [n] } where
  distinct := by
    rw [List.map_append, List.map_singleton]
    refine List.nodup_append.mpr ⟨h.distinct, by simp, ?_⟩
    rintro a ha b hb rfl
    rw [List.mem_singleton.mp hb] at ha
    exact hfresh ha
  named m hm := by
    rcases List.mem_append.mp hm with hm | hm
    · exact h.named m hm
    · exact List.mem_singleton.mp hm ▸ hname
  credited m hm := by
    rcases List.mem_append.mp hm with hm | hm
    · exact h.credited m hm
    · exact List.mem_singleton.mp hm ▸ hcredits
  ruled e he := by
    obtain ⟨hc, hrest⟩ := h.ruled e he
    rw [List.map_append]
    exact ⟨List.mem_append_left _ hc, hrest⟩
  reported := h.reported

theorem addRule (h : i.Sound) {rule : Rule} {r : Requirement} (hc : rule.courseId ∈ i.nodes.map Node.id)
    (hne : rule.expression ≠ "") (hr : Requirement.parse rule.expression = .ok r) :
    Sound { i with rules := i.rules ++ [(rule, r)] } where
  distinct := h.distinct
  named := h.named
  credited := h.credited
  ruled e he := by
    rcases List.mem_append.mp he with he | he
    · exact h.ruled e he
    · rw [List.mem_singleton.mp he]
      exact ⟨hc, hne, hr⟩
  reported := h.reported

theorem accept (h : i.Sound) {credits : Double} (hid : idFault? i.hasNode row = none)
    (hcredits : credits.isNegative = false) : (i.accept row credits).Sound := by
  obtain ⟨hname, htaken⟩ := of_idFault_eq_none hid
  have hfresh : row.courseId ∉ i.nodes.map Node.id := fun hmem => by
    rw [hasNode_iff.mpr hmem] at htaken
    cases htaken
  have hnode := h.addNode (n := ⟨row.courseId, row.name, credits⟩) hfresh hname hcredits
  unfold Intake.accept
  cases hr : Requirement.parse row.ruleText with
  | ok r =>
    refine hnode.addRule ?_ row.ruleText_ne_empty hr
    rw [List.map_append]
    exact List.mem_append_right _ (List.mem_singleton.mpr rfl)
  | error e =>
    refine hnode.report fun d hd => ?_
    rw [List.mem_singleton.mp hd]
    rintro id course ⟨⟩

/-- Whatever a row holds, taking it in keeps the intake sound. -/
theorem add (h : i.Sound) (row : Row) : (i.add row).Sound := by
  rcases i.add_cases row with ⟨ds, hds, heq⟩ | ⟨credits, hid, hcredits, heq⟩
  · rw [heq]
    exact h.report hds
  · rw [heq]
    have hpositive := (Option.filter_eq_some_iff.mp hcredits).2
    exact h.accept hid (by simpa using hpositive)

end Sound

theorem sound_ofRows (rows : List Row) : (ofRows rows).Sound := by
  have hrun : ∀ (rows : List Row) (i : Intake), i.Sound → (rows.foldl add i).Sound := by
    intro rows
    induction rows with
    | nil => exact fun _ h => h
    | cons row rows ih => exact fun i h => ih _ (h.add row)
  exact hrun rows .empty sound_empty

end Intake

/-! ### Drawing edges -/

theorem target_of_mem_edgesOf {target : String} {g : Grouping} {e : Edge} (h : e ∈ edgesOf target g) :
    e.target = target := by
  unfold edgesOf at h
  rcases List.mem_append.mp h with h | h
  · obtain ⟨source, -, rfl⟩ := List.mem_map.mp h
    rfl
  · obtain ⟨⟨group, k⟩, -, h⟩ := List.mem_flatMap.mp h
    obtain ⟨source, -, rfl⟩ := List.mem_map.mp h
    rfl

section
variable {cap : Option Int} {known : String → Bool} {rules : List (Rule × Requirement)} {edges : List Edge}

/-- The edges of every rule from known courses. -/
def edgesFrom (known : String → Bool) (rules : List (Rule × Requirement)) : List Edge :=
  rules.flatMap fun (rule, r) => (edgesOf rule.courseId r.grouping).filter fun e => known e.source

theorem drawEdges_none (known : String → Bool) (rules : List (Rule × Requirement)) :
    drawEdges none known rules = .ok (edgesFrom known rules) := by
  induction rules with
  | nil => rfl
  | cons entry rules ih =>
    rw [drawEdges, Requirement.groupingWithin_none, ok_bind, ih]
    rfl

theorem eq_of_drawEdges (h : drawEdges cap known rules = .ok edges) : edges = edgesFrom known rules := by
  induction rules generalizing edges with
  | nil => exact (Except.ok.inj h).symm
  | cons entry rules ih =>
    obtain ⟨rule, r⟩ := entry
    obtain ⟨grouping, hgrouping, h⟩ := bind_eq_ok.mp h
    obtain ⟨rest, hrest, h⟩ := bind_eq_ok.mp h
    rw [← Except.ok.inj h, Requirement.eq_grouping_of_within hgrouping, ih hrest]
    rfl

/-- Every edge comes from a known course and goes to the course of a rule. -/
theorem of_mem_drawEdges (h : drawEdges cap known rules = .ok edges) {e : Edge} (he : e ∈ edges) :
    known e.source = true ∧ ∃ entry ∈ rules, e.target = entry.1.courseId := by
  rw [eq_of_drawEdges h] at he
  obtain ⟨entry, hentry, he⟩ := List.mem_flatMap.mp he
  obtain ⟨he, hknown⟩ := List.mem_filter.mp he
  exact ⟨hknown, entry, hentry, target_of_mem_edgesOf he⟩

end

end Graph
end Curriculum
