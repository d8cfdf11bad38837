import Curriculum.Proofs.Admission
import Curriculum.Proofs.Readable

/-! The edges of a compiled graph. They are drawn course by course, and for a course group by group, from the courses
    that are nodes; a group keeps its number where some of its courses are none. The ids of edges and groups can be
    taken apart again: no id of a course has a `>` or a `:`, so the first `>` ends the source and the first `:` ends
    the target. So no two edges share an id, and no two groups do. -/

namespace Curriculum

/-! ### Texts without separators -/

/-- The text has none of the marks that end a part of an edge id. -/
structure Unbroken (s : String) : Prop where
  arrow : '>' ∉ s.toList
  colon : ':' ∉ s.toList

theorem not_mem_of_normalize? {s : String} (h : (CourseId.normalize? s).isSome = true) {c : Char}
    (hword : isWordChar c = false) (hblank : Text.isBlank c = false) : c ∉ s.toList := by
  obtain ⟨r, hr⟩ := Option.isSome_iff_exists.mp h
  obtain ⟨rfl, hvalid⟩ := CourseId.normalize?_eq_some_iff.mp hr
  obtain ⟨front, back, hs, hfront, hback⟩ := Text.exists_trimEnds Text.isBlank s.toList
  intro hc
  rw [hs, List.mem_append, List.mem_append] at hc
  rcases hc with hc | hc | hc
  · rw [hfront c hc] at hblank
    cases hblank
  · simp only [CourseId.isValid, Bool.and_eq_true, Text.trim, String.toList_ofList, List.all_eq_true] at hvalid
    rw [hvalid.1.2 c hc] at hword
    cases hword
  · rw [hback c hc] at hblank
    cases hblank

theorem unbroken_of_normalize? {s : String} (h : (CourseId.normalize? s).isSome = true) : Unbroken s where
  arrow := not_mem_of_normalize? h (by decide) (by decide)
  colon := not_mem_of_normalize? h (by decide) (by decide)

/-- The first mark splits a text in one way. -/
theorem split_at_mark {c : Char} {cs ds : List Char} (hcs : c ∉ cs) (hds : c ∉ ds) {rest rest' : List Char}
    (h : cs ++ c :: rest = ds ++ c :: rest') : cs = ds ∧ rest = rest' := by
  induction cs generalizing ds with
  | nil =>
    cases ds with
    | nil => exact ⟨rfl, List.tail_eq_of_cons_eq h⟩
    | cons d ds => exact absurd (List.mem_cons.mpr (.inl (List.head_eq_of_cons_eq h))) hds
  | cons b cs ih =>
    cases ds with
    | nil => exact absurd (List.mem_cons.mpr (.inl (List.head_eq_of_cons_eq h).symm)) hcs
    | cons d ds =>
      obtain ⟨rfl, htail⟩ := List.cons.inj h
      rw [List.mem_cons, not_or] at hcs hds
      obtain ⟨rfl, hrest⟩ := ih hcs.2 hds.2 htail
      exact ⟨rfl, hrest⟩

theorem toString_injective {k n : Nat} (h : toString k = toString n) : k = n := by
  have hvalue : ∀ j : Nat, Decimal.valueOf (toString j).toList = j := Decimal.valueOf_repr
  rw [← hvalue k, h, hvalue]

/-! ### Grouping ids -/

theorem toList_groupingId (target : String) (k : Nat) :
    (groupingId target (toString k)).toList = target.toList ++ ':' :: ':' :: 'g' :: (toString k).toList := by
  simp [groupingId, String.toList_append]

/-- A text without separators is told from every grouping id by the colon. -/
theorem ne_groupingId {s : String} (h : Unbroken s) (target : String) (k : Nat) : s ≠ groupingId target (toString k) := by
  rintro rfl
  refine h.colon ?_
  rw [toList_groupingId]
  exact List.mem_append_right _ (List.mem_cons_self ..)

theorem groupingId_inj {target target' : String} (h : Unbroken target) (h' : Unbroken target') {k n : Nat} :
    groupingId target (toString k) = groupingId target' (toString n) ↔ target = target' ∧ k = n := by
  refine ⟨fun heq => ?_, fun ⟨htarget, hk⟩ => by rw [htarget, hk]⟩
  have hchars := congrArg String.toList heq
  rw [toList_groupingId, toList_groupingId] at hchars
  obtain ⟨htarget, htail⟩ := split_at_mark h.colon h'.colon hchars
  have hk := List.tail_eq_of_cons_eq (List.tail_eq_of_cons_eq htail)
  exact ⟨String.toList_inj.mp htarget, toString_injective (String.toList_inj.mp hk)⟩

theorem afterColons_of_not_mem {cs : List Char} (h : ':' ∉ cs) (done : List Char) :
    afterColons done cs = done.reverse ++ cs := by
  induction cs generalizing done with
  | nil => rw [afterColons, List.append_nil]
  | cons c cs ih =>
    simp only [List.mem_cons, not_or] at h
    rw [afterColons, ih h.2, List.reverse_cons, List.append_assoc, List.singleton_append]
    exact fun _ hc _ => h.1 hc.symm

theorem afterColons_append {cs : List Char} (h : ':' ∉ cs) (done rest : List Char) :
    afterColons done (cs ++ ':' :: ':' :: rest) = afterColons [] rest := by
  induction cs generalizing done with
  | nil => rw [List.nil_append, afterColons]
  | cons c cs ih =>
    simp only [List.mem_cons, not_or] at h
    rw [List.cons_append, afterColons, ih h.2]
    exact fun _ hc _ => h.1 hc.symm

/-- The label of an alternative shows its number, whatever the course is. -/
theorem groupingLabel_groupingId {target : String} (h : Unbroken target) (k : Nat) :
    groupingLabel (groupingId target (toString k)) = "Group g" ++ toString k := by
  have hdigits : ':' ∉ 'g' :: (toString k).toList := by
    intro hc
    rcases List.mem_cons.mp hc with hc | hc
    · cases hc
    · exact absurd (Decimal.allDigits_repr k _ hc) (by decide)
  rw [groupingLabel, toList_groupingId, afterColons_append h.colon, afterColons_of_not_mem hdigits, List.reverse_nil,
    List.nil_append]
  refine String.toList_inj.mp ?_
  simp [String.toList_append]

namespace Graph

/-! ### Edge ids -/

/-- The course that an edge leads to and the alternative that it belongs to, as one text. -/
def Edge.aim (e : Edge) : String :=
  match e.group with
  | some k => groupingId e.target (toString k)
  | none => e.target

/-- The ends of an edge are texts without separators. -/
structure Edge.Plain (e : Edge) : Prop where
  source : Unbroken e.source
  target : Unbroken e.target

namespace Edge
variable {e f : Edge}

theorem id_eq (e : Edge) : e.id = e.source ++ "->" ++ e.aim := by
  unfold id aim groupingId
  cases e.group with
  | none => exact String.append_empty
  | some k => simp only [String.append_assoc]

theorem aim_inj (he : e.Plain) (hf : f.Plain) : e.aim = f.aim ↔ e.target = f.target ∧ e.group = f.group := by
  unfold aim
  cases e.group with
  | none =>
    cases f.group with
    | none => simp
    | some n => exact iff_of_false (ne_groupingId he.target _ _) nofun
  | some k =>
    cases f.group with
    | none => exact iff_of_false (ne_groupingId hf.target _ _).symm nofun
    | some n => rw [groupingId_inj he.target hf.target, Option.some.injEq]

/-- The source, the target and the alternative of an edge can be told from its id. -/
theorem id_inj (he : e.Plain) (hf : f.Plain) (h : e.id = f.id) : e = f := by
  have hchars : ∀ g : Edge, g.id.toList = (g.source.toList ++ ['-']) ++ '>' :: g.aim.toList := by
    intro g
    simp [id_eq, String.toList_append]
  have hfirst : ∀ {g : Edge}, g.Plain → '>' ∉ g.source.toList ++ ['-'] := by
    intro g hg
    simpa using hg.source.arrow
  have heq := congrArg String.toList h
  rw [hchars, hchars] at heq
  obtain ⟨hsource, haim⟩ := split_at_mark (hfirst he) (hfirst hf) heq
  obtain ⟨htarget, hgroup⟩ := (aim_inj he hf).mp (String.toList_inj.mp haim)
  cases e
  cases f
  exact (mk.injEq ..).mpr ⟨String.toList_inj.mp (List.append_cancel_right hsource), htarget, hgroup⟩

/-- An edge of an alternative shares its grouping id just with the edges of that alternative of that course. -/
theorem groupingId?_inj (he : e.Plain) (hf : f.Plain) (hgrouped : e.group.isSome = true) :
    e.groupingId? = f.groupingId? ↔ e.target = f.target ∧ e.group = f.group := by
  obtain ⟨k, hk⟩ := Option.isSome_iff_exists.mp hgrouped
  rw [groupingId?, groupingId?, hk]
  cases f.group with
  | none => exact iff_of_false nofun nofun
  | some n => rw [Option.map_some, Option.map_some, Option.some.injEq, Option.some.injEq, groupingId_inj he.target hf.target]

theorem toJson_of_mandatory (h : e.group = none) :
    e.toJson = .obj [("id", .str e.id), ("source", .str e.source), ("target", .str e.target)] := by
  unfold toJson groupingId?
  rw [h]
  rfl

/-- An edge of an alternative carries the grouping id and the number in it as a label. -/
theorem toJson_of_group (he : e.Plain) {k : Nat} (h : e.group = some k) :
    e.toJson = .obj [("id", .str e.id), ("source", .str e.source), ("target", .str e.target),
      ("groupingId", .str (e.target ++ "::g" ++ toString k)), ("label", .str ("Group g" ++ toString k))] := by
  unfold toJson groupingId?
  rw [h, Option.map_some]
  dsimp only
  rw [groupingLabel_groupingId he.target]
  rfl

end Edge

/-! ### Lists of edges -/

/-- Parts without repetition make a list without repetition, if a key tells the parts from each other. -/
theorem nodup_flatMap_of_key {α β κ : Type} {l : List α} {f : α → List β} (part : α → κ) (key : β → κ)
    (hparts : (l.map part).Nodup) (hnodup : ∀ a ∈ l, (f a).Nodup) (hkey : ∀ a ∈ l, ∀ b ∈ f a, key b = part a) :
    (l.flatMap f).Nodup := by
  refine List.pairwise_flatMap.mpr ⟨hnodup, ?_⟩
  refine (List.pairwise_map.mp hparts).imp_of_mem fun {a a'} ha ha' hne b hb b' hb' heq => hne ?_
  rw [← hkey a ha b hb, ← hkey a' ha' b' hb', heq]

theorem nodup_edgesOf (target : String) (g : Grouping) : (edgesOf target g).Nodup := by
  have hmap : ∀ (s : IdSet) (group : Option Nat), (s.toList.map fun source => Edge.mk source target group).Nodup :=
    fun s group => s.nodup.map fun _ _ h => congrArg Edge.source h
  have hgroup : ∀ {s : IdSet} {group : Option Nat}, ∀ e ∈ s.toList.map fun source => Edge.mk source target group,
      e.group = group := by
    intro s group e he
    obtain ⟨source, -, rfl⟩ := List.mem_map.mp he
    rfl
  -- The number of its alternative tells an edge from those of the others, and the mandatory ones have none.
  have hplaces : ((g.groups.toList.zipIdx 1).map fun entry => some entry.2).Nodup := by
    have hcount : (g.groups.toList.zipIdx 1).map Prod.snd = List.range' 1 g.groups.toList.length := List.zipIdx_map_snd ..
    have hnumbers : ((g.groups.toList.zipIdx 1).map Prod.snd).Nodup := hcount ▸ List.nodup_range'
    have hsome := hnumbers.map (Option.some_injective Nat)
    rwa [List.map_map] at hsome
  refine List.nodup_append.mpr ⟨hmap _ _, ?_, ?_⟩
  · exact nodup_flatMap_of_key (fun entry => some entry.2) Edge.group hplaces (fun _ _ => hmap _ _) fun _ _ => hgroup
  · rintro e he _ hf rfl
    obtain ⟨entry, -, hf⟩ := List.mem_flatMap.mp hf
    cases (hgroup e he).symm.trans (hgroup e hf)

/-- The edges of a course from the courses that are known. -/
def edgesAmong (known : String → Bool) (target : String) (g : Grouping) : List Edge :=
  ((g.mandatory.toList.filter known).map fun source => ⟨source, target, none⟩) ++
    (g.groups.toList.zipIdx 1).flatMap fun (group, k) =>
      (group.toList.filter known).map fun source => ⟨source, target, some k⟩

theorem filter_edgesOf (known : String → Bool) (target : String) (g : Grouping) :
    (edgesOf target g).filter (fun e => known e.source) = edgesAmong known target g := by
  rw [edgesOf, List.filter_append, List.filter_map, List.filter_flatMap]
  simp only [List.filter_map]
  rfl

section
variable {known : String → Bool} {rules : List (Rule × Requirement)}

theorem nodup_edgesFrom (h : (rules.map fun entry => entry.1.courseId).Nodup) : (edgesFrom known rules).Nodup :=
  nodup_flatMap_of_key (fun entry => entry.1.courseId) Edge.target h (fun _ _ => (nodup_edgesOf ..).filter _)
    fun _ _ _ he => target_of_mem_edgesOf (List.mem_filter.mp he).1

theorem filter_edgesFrom_of_not_mem {target : String} (h : target ∉ rules.map fun entry => entry.1.courseId) :
    (edgesFrom known rules).filter (fun e => e.target = target) = [] := by
  refine List.filter_eq_nil_iff.mpr fun e he heq => h ?_
  obtain ⟨entry, hentry, he⟩ := List.mem_flatMap.mp he
  refine List.mem_map.mpr ⟨entry, hentry, ?_⟩
  rw [← of_decide_eq_true heq]
  exact (target_of_mem_edgesOf (List.mem_filter.mp he).1).symm

/-- The edges that lead to the course of a rule are those of the rule. -/
theorem filter_edgesFrom (h : (rules.map fun entry => entry.1.courseId).Nodup) {rule : Rule} {r : Requirement}
    (hrule : (rule, r) ∈ rules) : (edgesFrom known rules).filter (fun e => e.target = rule.courseId) =
      edgesAmong known rule.courseId r.grouping := by
  obtain ⟨front, back, rfl⟩ := List.append_of_mem hrule
  rw [List.map_append, List.map_cons] at h
  obtain ⟨hothers, -⟩ := List.nodup_cons.mp (List.nodup_middle.mp h)
  rw [List.mem_append, not_or] at hothers
  have hall : ∀ e ∈ edgesAmong known rule.courseId r.grouping, decide (e.target = rule.courseId) = true := by
    intro e he
    rw [← filter_edgesOf] at he
    exact decide_eq_true (target_of_mem_edgesOf (List.mem_filter.mp he).1)
  have hparts : edgesFrom known (front ++ (rule, r) :: back) =
      edgesFrom known front ++ (edgesAmong known rule.courseId r.grouping ++ edgesFrom known back) := by
    rw [edgesFrom, List.flatMap_append, List.flatMap_cons, ← filter_edgesOf]
    rfl
  rw [hparts, List.filter_append, List.filter_append, filter_edgesFrom_of_not_mem hothers.1,
    filter_edgesFrom_of_not_mem hothers.2, List.filter_eq_self.mpr hall, List.nil_append, List.append_nil]

end

/-! ### The edges of a compiled graph -/

namespace Intake

theorem ids_ofRows (rows : List Row) : (ofRows rows).nodes.map Node.id = (admitted rows).map Row.courseId := by
  have hids : ∀ {nodes : List Node} {rows : List Row}, nodes.map some = rows.map Row.node? →
      nodes.map Node.id = rows.map Row.courseId := by
    intro nodes rows h
    induction nodes generalizing rows with
    | nil => rw [List.map_eq_nil_iff.mp h.symm, List.map_nil, List.map_nil]
    | cons n nodes ih =>
      obtain ⟨row, rows, rfl, hrow, hrows⟩ := List.map_eq_cons_iff.mp h.symm
      obtain ⟨x, -, rfl⟩ := Option.map_eq_some_iff.mp hrow
      rw [List.map_cons, List.map_cons, ih hrows.symm]
  exact hids (nodes_and_rules_ofRows rows).1

/-- No two rules belong to the same course. -/
theorem nodup_rules_ofRows (rows : List Row) : ((ofRows rows).rules.map fun entry => entry.1.courseId).Nodup := by
  have hdistinct := (sound_ofRows rows).distinct
  rw [ids_ofRows] at hdistinct
  have hrules : (ofRows rows).rules.map (fun entry => entry.1.courseId) =
      ((admitted rows).filter fun row => (Requirement.parse row.ruleText).isOk).map Row.courseId := by
    calc (ofRows rows).rules.map (fun entry => entry.1.courseId)
        = ((ofRows rows).rules.map Prod.fst).map Rule.courseId := List.map_map.symm
      _ = _ := by rw [(nodes_and_rules_ofRows rows).2, map_rule?_eq, List.map_map]; rfl
  rw [hrules]
  exact hdistinct.sublist (List.filter_sublist.map Row.courseId)

theorem unbroken_of_hasNode {rows : List Row} {id : String} (h : (ofRows rows).hasNode id = true) : Unbroken id := by
  rw [hasNode_ofRows] at h
  obtain ⟨row, -, hrow⟩ := List.any_eq_true.mp h
  simp only [Row.isComplete, Bool.and_eq_true, decide_eq_true_eq] at hrow
  obtain ⟨⟨⟨hid, -⟩, -⟩, rfl⟩ := hrow
  exact unbroken_of_normalize? hid

end Intake

theorem plain_of_compile {cap : Option Int} {id : Json} {rows : List Row} {c : Compilation}
    (h : compile cap id rows = .ok c) : ∀ e ∈ c.graph.edges, e.Plain := by
  intro e he
  obtain ⟨edges, hedges, hgraph, -⟩ := compile_eq_ok h
  rw [hgraph] at he
  obtain ⟨hknown, entry, hentry, htarget⟩ := of_mem_drawEdges hedges he
  have hnode := ((Intake.sound_ofRows rows).ruled entry hentry).1
  refine ⟨Intake.unbroken_of_hasNode hknown, ?_⟩
  rw [htarget]
  exact Intake.unbroken_of_hasNode (Intake.hasNode_iff.mpr hnode)

/-- The edges into the course of a rule are those of its mandatory courses that are nodes and then, group by group,
    those of the courses of the group that are nodes, and there are no other edges. An edge of a group shows the number
    that the group has among all groups. No two edges share an id, and edges of groups share a grouping id just if they
    belong to the same group of the same course. -/
theorem edges_tell_groups {cap : Option Int} {id : Json} {rows : List Row} {c : Compilation}
    (h : compile cap id rows = .ok c) :
    (∀ rule ∈ c.graph.rules, ∃ r, Requirement.parse rule.expression = .ok r ∧
      c.graph.edges.filter (fun e => e.target = rule.courseId) =
        (r.grouping.mandatory.toList.filter fun x => x ∈ c.graph.nodes.map Node.id).map
          (fun source => ⟨source, rule.courseId, none⟩) ++
        (r.grouping.groups.toList.zipIdx 1).flatMap fun (group, k) =>
          (group.toList.filter fun x => x ∈ c.graph.nodes.map Node.id).map
            fun source => ⟨source, rule.courseId, some k⟩) ∧
    (∀ e ∈ c.graph.edges, ∃ rule ∈ c.graph.rules, e.target = rule.courseId) ∧
    (∀ e ∈ c.graph.edges,
      (e.group = none → e.toJson = .obj [("id", .str e.id), ("source", .str e.source), ("target", .str e.target)]) ∧
      ∀ k, e.group = some k →
        e.toJson = .obj [("id", .str e.id), ("source", .str e.source), ("target", .str e.target),
          ("groupingId", .str (e.target ++ "::g" ++ toString k)), ("label", .str ("Group g" ++ toString k))]) ∧
    (c.graph.edges.map Edge.id).Nodup ∧
    ∀ e ∈ c.graph.edges, ∀ f ∈ c.graph.edges, e.group.isSome = true → f.group.isSome = true →
      (e.groupingId? = f.groupingId? ↔ e.target = f.target ∧ e.group = f.group) := by
  have hplain := plain_of_compile h
  obtain ⟨edges, hedges, hgraph, -⟩ := compile_eq_ok h
  have hdrawn : c.graph.edges = edgesFrom (Intake.ofRows rows).hasNode (Intake.ofRows rows).rules := by
    rw [hgraph, eq_of_drawEdges hedges]
  have hknown : (Intake.ofRows rows).hasNode = fun x => decide (x ∈ c.graph.nodes.map Node.id) := by
    funext x
    rw [Bool.eq_iff_iff, Intake.hasNode_iff, hgraph, decide_eq_true_iff]
  have hcourses := Intake.nodup_rules_ofRows rows
  refine ⟨fun rule hrule => ?_, fun e he => ?_, fun e he => ?_, ?_, fun e he f hf hgrouped _ => ?_⟩
  · rw [hgraph] at hrule
    obtain ⟨⟨rule, r⟩, hentry, rfl⟩ := List.mem_map.mp hrule
    refine ⟨r, ((Intake.sound_ofRows rows).ruled _ hentry).2.2, ?_⟩
    rw [hdrawn, filter_edgesFrom hcourses hentry, edgesAmong, hknown]
  · rw [hgraph] at he ⊢
    obtain ⟨-, entry, hentry, htarget⟩ := of_mem_drawEdges hedges he
    exact ⟨entry.1, List.mem_map_of_mem hentry, htarget⟩
  · exact ⟨Edge.toJson_of_mandatory, fun k => Edge.toJson_of_group (hplain e he)⟩
  · rw [hdrawn] at hplain ⊢
    exact (nodup_edgesFrom hcourses).map_on fun e he f hf => Edge.id_inj (hplain e he) (hplain f hf)
  · exact Edge.groupingId?_inj (hplain e he) (hplain f hf) hgrouped

/-- Courses whose ids look like ends of edge ids, and a course whose first group has no node. -/
def hyphenRows : List Row :=
  [⟨"A-", "Algebra", "3", ""⟩, ⟨"Bg1", "Biology", "3", ""⟩, ⟨"C", "Chemistry", "4", "A- AND (B OR Bg1)"⟩]

theorem edges_tell_groups_hyphen : ∃ c, compile none (.str "temp") hyphenRows = .ok c ∧
    c.graph.edges = [⟨"A-", "C", none⟩, ⟨"Bg1", "C", some 2⟩] ∧
    c.graph.edges.map Edge.id = ["A-->C", "Bg1->C::g2"] ∧ (c.graph.edges.map Edge.id).Nodup ∧
    ∀ e ∈ c.graph.edges, ∃ rule ∈ c.graph.rules, e.target = rule.courseId := by
  obtain ⟨c, hc⟩ := exists_compile (.str "temp") hyphenRows
  have hdrawn : (compile none (.str "temp") hyphenRows).toOption.map (fun c => c.graph.edges) =
      some [⟨"A-", "C", none⟩, ⟨"Bg1", "C", some 2⟩] := by decide +kernel
  rw [hc] at hdrawn
  have hedges : c.graph.edges = [⟨"A-", "C", none⟩, ⟨"Bg1", "C", some 2⟩] := Option.some.inj hdrawn
  obtain ⟨-, htargets, -, hnodup, -⟩ := edges_tell_groups hc
  exact ⟨c, hc, hedges, by rw [hedges]; decide, hnodup, htargets⟩

end Graph
end Curriculum
