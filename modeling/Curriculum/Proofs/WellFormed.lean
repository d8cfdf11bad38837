import Curriculum.Graph.Audit
import Curriculum.Graph.Basic
import Curriculum.Proofs.Except

/-! Graphs in which every part is as the audit wants it, but for the courses that the rules refer to. The
    audit of such a graph finds the rules that refer to courses that are no nodes, and nothing else. -/

namespace Curriculum

theorem Double.integer?_nonneg {x : Double} {n : Int} (h : x.integer? = some n) (hx : x.isNegative = false) : 0 ≤ n := by
  cases x with
  | infinite | nan => cases h
  | finite negative significand exponent =>
    simp only [Double.isNegative, Bool.and_eq_false_iff, decide_eq_false_iff_not, ne_eq, Classical.not_not] at hx
    simp only [Double.integer?, Double.truncate?] at h
    split at h
    · cases h
    · rw [← Option.some.inj h]
      rcases hx with rfl | rfl
      · exact Int.natCast_nonneg _
      · simp

/-- In an object that lists no field twice, a field has the value it is listed with. -/
theorem Json.field?_obj_iff {fields : List (String × Json)} (hd : (fields.map Prod.fst).Nodup) {field : String}
    {v : Json} : (obj fields).field? field = some v ↔ (field, v) ∈ fields :=
  Entries.lookup_eq_some_iff hd

namespace Graph

/-! ### Well-formed graphs -/

section
variable (g : Graph)

def nodeIds : List String := g.nodes.map Node.id

/-- The courses, in order, that a rule refers to and that are no nodes; a rule that cannot be read refers to
    none. -/
def unknownIn (rule : Rule) : List String :=
  match Requirement.parse rule.expression with
  | .ok r => (r.unknownIds fun id => g.nodeIds.contains id).toList
  | .error _ => []

/-- The places of the rules that refer to unknown courses, with these courses. -/
def dangling : List (Nat × List String) :=
  (g.rules.zipIdx.map fun (rule, k) => (k, g.unknownIn rule)).filter fun entry => !entry.2.isEmpty

/-- The ids of the nodes are distinct and not blank, their credits are not negative, edges and rules name
    nodes, and the rules can be read. -/
structure WellFormed : Prop where
  distinct : g.nodeIds.Nodup
  named : ∀ n ∈ g.nodes, (Text.trim n.id).isEmpty = false
  credited : ∀ n ∈ g.nodes, n.credits.isNegative = false
  joined : ∀ e ∈ g.edges, e.source ∈ g.nodeIds ∧ e.target ∈ g.nodeIds
  ruled : ∀ r ∈ g.rules, r.courseId ∈ g.nodeIds ∧ r.expression ≠ "" ∧ ∃ t, Requirement.parse r.expression = .ok t

end

/-! ### Fields -/

theorem isAmong_eq_true_iff {texts : List String} {v : Json} :
    isAmong texts v = .ok true ↔ ∃ s ∈ texts, v = .str s := by
  cases v with
  | str s =>
    unfold isAmong
    simp
  | arr | obj => exact iff_of_false nofun (by simp)
  | _ => exact iff_of_false (fun h => Bool.false_ne_true (Except.ok.inj h)) (by simp)

section
variable {fields : List (String × Json)} {field : String}

theorem optionalField_obj (hd : (fields.map Prod.fst).Nodup) {ok : Json → Bool}
    (h : ∀ v, (field, v) ∈ fields → ok v = true) : optionalField field ok (.obj fields) = true := by
  unfold optionalField
  split
  · rfl
  · rfl
  · next v _ hv => exact h v ((Json.field?_obj_iff hd).mp hv)

theorem fieldIsAmong_obj (hd : (fields.map Prod.fst).Nodup) {s : String} (hs : (field, .str s) ∈ fields)
    {texts : List String} (h : s ∈ texts) : fieldIsAmong texts field (.obj fields) = .ok true := by
  unfold fieldIsAmong
  rw [(Json.field?_obj_iff hd).mpr hs]
  exact isAmong_eq_true_iff.mpr ⟨s, h, rfl⟩

end

/-! ### Nodes -/

theorem optionalField_credits {n : Node} (h : n.credits.isNegative = false) :
    optionalField "credits" isCredits n.toJson = true := by
  refine optionalField_obj (by simp) fun v hv => ?_
  obtain rfl : v = .ofDouble n.credits := by simpa using hv
  unfold Json.ofDouble
  cases hn : n.credits.integer? with
  | some k => exact decide_eq_true (Double.integer?_nonneg hn h)
  | none => simp [isCredits, h]

theorem nodeFaults_toJson {ids : List String} {i : Nat} {n : Node} (hid : n.id ∉ ids)
    (hc : n.credits.isNegative = false) : nodeFaults ids i n.id n.toJson = .ok [] := by
  have htype : isAmong nodeTypes ((n.toJson.field? "nodeType").getD (.str "course")) = .ok true :=
    isAmong_eq_true_iff.mpr ⟨"course", by decide, rfl⟩
  have hstatus : optionalField "status" CourseStatus.isName n.toJson = true :=
    optionalField_obj (by simp) (by simp)
  have hfresh : ids.contains n.id = false := by simpa using hid
  unfold nodeFaults
  rw [htype, ok_bind, hstatus, optionalField_credits hc, hfresh]
  rfl

theorem nodeId?_toJson {n : Node} (h : (Text.trim n.id).isEmpty = false) : nodeId? n.toJson = some n.id := by
  have hid : n.toJson.field? "id" = some (.str n.id) := (Json.field?_obj_iff (by simp)).mpr (by simp)
  unfold nodeId?
  rw [hid]
  simp [h]

theorem auditNodes_toJson {nodes : List Node} : ∀ {ids : List String} {i : Nat}, (ids ++ nodes.map Node.id).Nodup →
    (∀ n ∈ nodes, (Text.trim n.id).isEmpty = false) → (∀ n ∈ nodes, n.credits.isNegative = false) →
    auditNodes ids i (nodes.map Node.toJson) = .ok (ids ++ nodes.map Node.id, []) := by
  induction nodes with
  | nil =>
    intro ids i _ _ _
    rw [List.map_nil, List.map_nil, List.append_nil]
    rfl
  | cons n nodes ih =>
    intro ids i hd hn hc
    have hfresh : n.id ∉ ids := fun hid => (List.nodup_append.mp hd).2.2 _ hid _ (List.mem_cons_self ..) rfl
    have hrest : auditNodes (ids ++ [n.id]) (i + 1) (nodes.map Node.toJson) =
        .ok (ids ++ [n.id] ++ nodes.map Node.id, []) := ih (by simpa using hd)
      (fun m hm => hn m (List.mem_cons_of_mem _ hm)) (fun m hm => hc m (List.mem_cons_of_mem _ hm))
    have hid := nodeId?_toJson (hn n (List.mem_cons_self ..))
    have hfaults := nodeFaults_toJson (i := i) hfresh (hc n (List.mem_cons_self ..))
    rw [List.map_cons, Node.toJson, auditNodes, ← Node.toJson, hid]
    simp only [hfaults, hrest, ok_bind, List.append_assoc, List.singleton_append, List.map_cons]
    rfl

/-! ### Edges and rules -/

/-- Items that can all be compared are audited one by one. -/
theorem auditItems_map {α : Type} {faults : Nat → Json → Except Incomparable (List Fault)} {toJson : α → Json}
    {f : Nat → α → List Fault} {items : List α}
    (h : ∀ x ∈ items, ∀ k, faults k (toJson x) = .ok (f k x)) (i : Nat) :
    auditItems faults i (items.map toJson) = .ok ((items.zipIdx i).flatMap fun (x, k) => f k x) := by
  induction items generalizing i with
  | nil => rfl
  | cons x items ih =>
    have hx := h x (List.mem_cons_self ..) i
    have hrest := ih (fun y hy => h y (List.mem_cons_of_mem _ hy)) (i + 1)
    rw [List.map_cons, auditItems, hx, hrest]
    rfl

theorem edgeFaults_toJson {ids : List String} {e : Edge} (hs : e.source ∈ ids) (ht : e.target ∈ ids) (i : Nat) :
    edgeFaults ids i e.toJson = .ok [] := by
  obtain ⟨fields, hfields, hd, hsource, htarget, hgroup⟩ : ∃ fields, e.toJson = .obj fields ∧
      (fields.map Prod.fst).Nodup ∧ ("source", .str e.source) ∈ fields ∧ ("target", .str e.target) ∈ fields ∧
      ∀ v, ("groupingId", v) ∈ fields → ∃ id, v = .str id := by
    refine ⟨_, rfl, ?_⟩
    cases e.groupingId? <;> simp
  rw [hfields, edgeFaults, fieldIsAmong_obj hd hsource hs, ok_bind, fieldIsAmong_obj hd htarget ht, ok_bind]
  dsimp only
  rw [optionalField_obj hd]
  · rfl
  · intro v hv
    obtain ⟨id, rfl⟩ := hgroup v hv
    rfl

theorem ruleText_toJson {r : Rule} (h : r.expression ≠ "") : ruleText r.toJson = r.expression := by
  have htext : r.toJson.field? "expression" = some (.str r.expression) := (Json.field?_obj_iff (by simp)).mpr (by simp)
  unfold ruleText
  rw [htext]
  simp [Json.isVacant, Json.text, h]

theorem ruleFaults_toJson {g : Graph} {r : Rule} (hc : r.courseId ∈ g.nodeIds) (hne : r.expression ≠ "")
    (hr : ∃ t, Requirement.parse r.expression = .ok t) (i : Nat) :
    ruleFaults g.nodeIds i r.toJson =
      .ok (if (g.unknownIn r).isEmpty then [] else [.unknownCourses i (g.unknownIn r)]) := by
  obtain ⟨t, ht⟩ := hr
  have hcourse : fieldIsAmong g.nodeIds "courseId" r.toJson = .ok true :=
    fieldIsAmong_obj (by simp) (by simp) hc
  have htext := ruleText_toJson hne
  unfold Rule.toJson at hcourse htext ⊢
  unfold ruleFaults unknownIn
  simp only [hcourse, ok_bind, htext, ht]
  rfl

/-! ### Graphs -/

theorem itemsOf_toJson (g : Graph) : itemsOf .nodes g.toJson = g.nodes.map Node.toJson ∧
    itemsOf .edges g.toJson = g.edges.map Edge.toJson ∧ itemsOf .rules g.toJson = g.rules.map Rule.toJson :=
  ⟨rfl, rfl, rfl⟩

theorem graphIdFaults_toJson {g : Graph} {id : String} (hg : g.id = .str id) (hid : id ≠ "") :
    graphIdFaults g.toJson = [] := by
  have hfield : g.toJson.field? "id" = some (.str id) := congrArg some hg
  unfold graphIdFaults
  rw [hfield]
  simp [hid]

theorem flatMap_unknown_eq_dangling (g : Graph) :
    (g.rules.zipIdx.flatMap fun (r, k) =>
      if (g.unknownIn r).isEmpty then [] else [Fault.unknownCourses k (g.unknownIn r)]) =
      g.dangling.map fun (k, ids) => .unknownCourses k ids := by
  unfold dangling
  induction g.rules.zipIdx with
  | nil => rfl
  | cons entry rest ih =>
    obtain ⟨r, k⟩ := entry
    simp only [List.flatMap_cons, ih, List.map_cons, List.filter_cons]
    cases (g.unknownIn r).isEmpty <;> rfl

/-! ### References to unknown courses -/

theorem unknownIn_spec (g : Graph) {rule : Rule} {r : Requirement} (h : Requirement.parse rule.expression = .ok r) :
    (g.unknownIn rule).Pairwise (· < ·) ∧ ∀ id, id ∈ g.unknownIn rule ↔ id ∈ r.courseIds ∧ id ∉ g.nodeIds := by
  unfold unknownIn
  rw [h]
  refine ⟨(r.unknownIds fun id => g.nodeIds.contains id).increasing, fun id => ?_⟩
  rw [SortedSet.mem_toList, Requirement.unknownIds, SortedSet.mem_filter]
  simp

theorem mem_dangling {g : Graph} {k : Nat} {ids : List String} : (k, ids) ∈ g.dangling ↔
    ids ≠ [] ∧ ids.Pairwise (· < ·) ∧ ∃ rule r, g.rules[k]? = some rule ∧
      Requirement.parse rule.expression = .ok r ∧ ∀ id, id ∈ ids ↔ id ∈ r.courseIds ∧ id ∉ g.nodeIds := by
  have hmem : (k, ids) ∈ g.dangling ↔ (∃ rule, g.rules[k]? = some rule ∧ g.unknownIn rule = ids) ∧ ids ≠ [] := by
    rw [dangling, List.mem_filter, List.mem_map]
    refine and_congr ⟨?_, ?_⟩ (by simp)
    · rintro ⟨⟨rule, j⟩, hj, heq⟩
      cases heq
      exact ⟨rule, List.mk_mem_zipIdx_iff_getElem?.mp hj, rfl⟩
    · rintro ⟨rule, hrule, rfl⟩
      exact ⟨(rule, k), List.mk_mem_zipIdx_iff_getElem?.mpr hrule, rfl⟩
  rw [hmem]
  constructor
  · rintro ⟨⟨rule, hrule, rfl⟩, hne⟩
    cases hr : Requirement.parse rule.expression with
    | error e =>
      refine absurd ?_ hne
      unfold unknownIn
      rw [hr]
    | ok r =>
      obtain ⟨hsorted, hids⟩ := g.unknownIn_spec hr
      exact ⟨hne, hsorted, rule, r, hrule, hr, hids⟩
  · rintro ⟨hne, hsorted, rule, r, hrule, hr, hids⟩
    obtain ⟨hsorted', hids'⟩ := g.unknownIn_spec hr
    exact ⟨⟨rule, hrule, eq_of_pairwise_lt hsorted' hsorted fun id => (hids' id).trans (hids id).symm⟩, hne⟩

theorem dangling_eq_nil {g : Graph} : g.dangling = [] ↔ ∀ rule ∈ g.rules, g.unknownIn rule = [] := by
  constructor
  · intro h rule hrule
    obtain ⟨k, hk⟩ := List.getElem?_of_mem hrule
    refine Classical.byContradiction fun hne => ?_
    have hmem : (k, g.unknownIn rule) ∈ g.dangling := by
      refine List.mem_filter.mpr ⟨List.mem_map.mpr ⟨(rule, k), List.mk_mem_zipIdx_iff_getElem?.mpr hk, rfl⟩, ?_⟩
      simpa using hne
    rw [h] at hmem
    exact absurd hmem List.not_mem_nil
  · intro h
    refine List.filter_eq_nil_iff.mpr fun entry hentry => ?_
    obtain ⟨⟨rule, k⟩, hk, rfl⟩ := List.mem_map.mp hentry
    simp [h rule (List.mem_of_getElem? (List.mk_mem_zipIdx_iff_getElem?.mp hk))]

theorem dangling_increasing (g : Graph) : g.dangling.Pairwise fun a b => a.1 < b.1 := by
  have hplaces : (g.rules.zipIdx.map Prod.snd).Pairwise (· < ·) := by
    rw [List.zipIdx_map_snd]
    exact List.pairwise_lt_range' 1
  refine List.Pairwise.filter _ (List.pairwise_map.mpr ?_)
  exact List.pairwise_map.mp hplaces

/-! ### The audit -/

/-- The audit of a well-formed graph finds its references to unknown courses. -/
theorem audit_toJson {g : Graph} {id : String} (hg : g.id = .str id) (hid : id ≠ "") (h : g.WellFormed) :
    audit g.toJson = .ok (g.dangling.map fun (k, ids) => .unknownCourses k ids) := by
  obtain ⟨hnodes, hedges, hrules⟩ := g.itemsOf_toJson
  have hn : auditNodes [] 0 (g.nodes.map Node.toJson) = .ok (g.nodeIds, []) :=
    auditNodes_toJson h.distinct h.named h.credited
  have he : auditItems (edgeFaults g.nodeIds) 0 (g.edges.map Edge.toJson) = .ok [] := by
    rw [auditItems_map (f := fun _ _ => []) fun e he => edgeFaults_toJson (h.joined e he).1 (h.joined e he).2]
    simp
  have hr := auditItems_map (fun r hr => ruleFaults_toJson (h.ruled r hr).1 (h.ruled r hr).2.1 (h.ruled r hr).2.2) 0
  rw [flatMap_unknown_eq_dangling] at hr
  have haudit : audit g.toJson = (do
      let walked ← auditNodes [] 0 (itemsOf .nodes g.toJson)
      let edges ← auditItems (edgeFaults walked.1) 0 (itemsOf .edges g.toJson)
      let rules ← auditItems (ruleFaults walked.1) 0 (itemsOf .rules g.toJson)
      return graphIdFaults g.toJson ++ [] ++ [] ++ walked.2 ++ edges ++ [] ++ rules) := rfl
  rw [haudit, hnodes, hedges, hrules, hn, ok_bind]
  simp only [he, hr, ok_bind, graphIdFaults_toJson hg hid, List.nil_append, List.append_nil]
  rfl

end Graph
end Curriculum
