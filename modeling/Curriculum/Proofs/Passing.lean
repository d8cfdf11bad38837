import Curriculum.Proofs.WellFormed
import Mathlib.Data.List.Forall2

/-! Which JSON values the audit of a graph passes: objects with an id, nodes with distinct ids, edges and rules between
    the nodes. One kind of value passes that should not: credits that are not a number at all count as a number that is
    not negative. -/

namespace Curriculum

/-- The number is not below zero. -/
inductive Json.AtLeastZero : Json → Prop
  | whole (n : Nat) : AtLeastZero (.int n)
  | finite (significand : Nat) (exponent : Int) : AtLeastZero (.float (.finite false significand exponent))
  | zero (exponent : Int) : AtLeastZero (.float (.finite true 0 exponent))
  | infinite : AtLeastZero (.float (.infinite false))

namespace Graph

/-! ### Graphs as they should be -/

/-- The field holds one of the texts. -/
def Holds (field : String) (texts : List String) (v : Json) : Prop := ∃ s ∈ texts, v.field? field = some (.str s)

/-- The field is absent or null, or its value is as it should be. -/
def MayHold (field : String) (ok : Json → Prop) (v : Json) : Prop :=
  ∀ value, v.field? field = some value → value = .null ∨ ok value

/-- An object with the id, which is not blank, that is of a known type, if of any, and has good credits and a known
    status, if any. -/
structure IsNode (credits : Json → Prop) (v : Json) (id : String) : Prop where
  object : ∃ fields, v = .obj fields
  named : v.field? "id" = some (.str id)
  visible : Text.trim id ≠ ""
  typed : v.field? "nodeType" = none ∨ Holds "nodeType" ["course", "group", "note"] v
  credited : MayHold "credits" credits v
  status : MayHold "status"
    (fun value => ∃ s ∈ ["completed", "in_progress", "planned", "failed", "unknown"], value = .str s) v

/-- An object that names nodes as its ends, and a group by a text, if any. -/
structure IsEdge (ids : List String) (v : Json) : Prop where
  object : ∃ fields, v = .obj fields
  source : Holds "source" ids v
  target : Holds "target" ids v
  group : MayHold "groupingId" (fun value => ∃ s, value = .str s) v

/-- An object that names a node as its course, and whose text is read as a requirement of nodes. -/
structure IsRule (ids : List String) (v : Json) : Prop where
  object : ∃ fields, v = .obj fields
  course : Holds "courseId" ids v
  requirement : ∃ r, Requirement.parse (ruleText v) = .ok r ∧ ∀ id ∈ r.courseIds, id ∈ ids

/-- An object with an id, nodes with distinct ids, edges between them and rules for them, if any. -/
structure IsGraph (credits : Json → Prop) (v : Json) : Prop where
  object : ∃ fields, v = .obj fields
  named : ∃ id, id ≠ "" ∧ v.field? "id" = some (.str id)
  parts : ∃ nodes edges ids,
    v.field? "nodes" = some (.arr nodes) ∧ List.Forall₂ (IsNode credits) nodes ids ∧ ids.Nodup ∧
    v.field? "edges" = some (.arr edges) ∧ (∀ edge ∈ edges, IsEdge ids edge) ∧
    MayHold "prereqExpressions" (fun value => ∃ rules, value = .arr rules ∧ ∀ rule ∈ rules, IsRule ids rule) v

/-! ### Fields -/

/-- What is passed as credits: a number that is not below zero, or one that is not a number. -/
def PassesAsCredits (v : Json) : Prop := v.AtLeastZero ∨ v = .float .nan

theorem isCredits_iff {v : Json} : isCredits v = true ↔ PassesAsCredits v := by
  constructor
  · intro h
    cases v with
    | int n =>
      obtain ⟨k, rfl⟩ := Int.eq_ofNat_of_zero_le (of_decide_eq_true h)
      exact .inl (.whole k)
    | float x =>
      cases x with
      | nan => exact .inr rfl
      | infinite negative =>
        cases negative with
        | false => exact .inl .infinite
        | true => cases h
      | finite negative significand exponent =>
        cases negative with
        | false => exact .inl (.finite significand exponent)
        | true =>
          obtain rfl : significand = 0 := by simpa [isCredits, Double.isNegative] using h
          exact .inl (.zero exponent)
    | _ => cases h
  · rintro (h | rfl)
    · cases h with
      | whole n => exact decide_eq_true (Int.natCast_nonneg n)
      | _ => rfl
    · rfl

theorem isName_iff {v : Json} : CourseStatus.isName v = true ↔
    ∃ s ∈ ["completed", "in_progress", "planned", "failed", "unknown"], v = .str s := by
  cases v with
  | str s =>
    simp only [CourseStatus.isName, CourseStatus.all, List.any_cons, List.any_nil, CourseStatus.isNamedBy,
      Bool.or_false, Bool.or_eq_true, decide_eq_true_eq]
    simp [CourseStatus.name]
  | _ => exact iff_of_false Bool.false_ne_true (by simp)

theorem fieldIsAmong_eq_true_iff {texts : List String} {field : String} {v : Json} :
    fieldIsAmong texts field v = .ok true ↔ Holds field texts v := by
  unfold fieldIsAmong Holds
  rw [isAmong_eq_true_iff]
  cases v.field? field <;> simp

theorem optionalField_iff {field : String} {ok : Json → Bool} {good : Json → Prop}
    (h : ∀ value, ok value = true ↔ good value) {v : Json} :
    optionalField field ok v = true ↔ MayHold field good v := by
  unfold optionalField MayHold
  cases v.field? field with
  | none => simp
  | some value =>
    cases value with
    | null => simp
    | _ => simp [h]

theorem faults_eq_nil_iff {b : Bool} {fault : Fault} : (if b then [] else [fault]) = [] ↔ b = true := by
  cases b <;> simp

theorem pure_eq_ok {ε α : Type} {a b : α} : (pure a : Except ε α) = .ok b ↔ a = b :=
  ⟨Except.ok.inj, congrArg Except.ok⟩

/-! ### Nodes -/

theorem nodeId?_eq_some_iff {v : Json} {id : String} :
    nodeId? v = some id ↔ v.field? "id" = some (.str id) ∧ Text.trim id ≠ "" := by
  unfold nodeId?
  split
  · next name hname =>
    rw [hname]
    cases hblank : (Text.trim name).isEmpty with
    | true =>
      refine iff_of_false nofun ?_
      rintro ⟨hid, hvisible⟩
      obtain rfl : name = id := by simpa using hid
      exact hvisible (String.isEmpty_iff.mp hblank)
    | false =>
      simp
      rintro rfl
      simpa using hblank
  · next hother => exact iff_of_false nofun fun h => hother id h.1

variable {ids before : List String} {i : Nat} {id : String} {v : Json}

/-- Only objects have fields. -/
theorem isObject_of_field? {field : String} {value : Json} (h : v.field? field = some value) :
    ∃ fields, v = .obj fields := by
  cases v with
  | obj fields => exact ⟨fields, rfl⟩
  | _ => cases h

theorem typed_iff : isAmong nodeTypes ((v.field? "nodeType").getD (.str "course")) = .ok true ↔
    v.field? "nodeType" = none ∨ Holds "nodeType" ["course", "group", "note"] v := by
  rw [isAmong_eq_true_iff]
  unfold Holds
  cases v.field? "nodeType" <;> simp [nodeTypes]

/-- The audit finds nothing wrong with a node just if it is one and its id is new. -/
theorem nodeFaults_eq_nil_iff (hid : nodeId? v = some id) :
    nodeFaults before i id v = .ok [] ↔ IsNode PassesAsCredits v id ∧ id ∉ before := by
  obtain ⟨hnamed, hvisible⟩ := nodeId?_eq_some_iff.mp hid
  have hrepeated : (if before.contains id then [Fault.duplicateNodeId i id] else []) = [] ↔ id ∉ before := by
    simp
  unfold nodeFaults
  simp only [bind_eq_ok, pure_eq_ok, List.append_eq_nil_iff, hrepeated, faults_eq_nil_iff,
    optionalField_iff fun _ => isCredits_iff, optionalField_iff fun _ => isName_iff]
  constructor
  · rintro ⟨_, htyped, ⟨⟨hnew, rfl⟩, hcredited⟩, hstatus⟩
    exact ⟨⟨isObject_of_field? hnamed, hnamed, hvisible, typed_iff.mp htyped, hcredited, hstatus⟩, hnew⟩
  · rintro ⟨hnode, hnew⟩
    exact ⟨true, typed_iff.mpr hnode.typed, ⟨⟨hnew, rfl⟩, hnode.credited⟩, hnode.status⟩

/-- The audit finds nothing wrong with some nodes just if it finds nothing wrong with the first, whose id is then taken,
    and with the others. -/
theorem auditNodes_cons_eq_nil_iff {nodes : List Json} : auditNodes before i (v :: nodes) = .ok (ids, []) ↔
    ∃ id, nodeId? v = some id ∧ nodeFaults before i id v = .ok [] ∧
      auditNodes (before ++ [id]) (i + 1) nodes = .ok (ids, []) := by
  have hfault : ∀ {fault : Fault} {x : Except Incomparable (List String × List Fault)},
      (x >>= fun walked => pure (walked.1, fault :: walked.2)) ≠ .ok (ids, []) := by
    rintro fault x h
    obtain ⟨walked, -, hwalked⟩ := bind_eq_ok.mp h
    exact absurd (congrArg Prod.snd (Except.ok.inj hwalked)) (List.cons_ne_nil _ _)
  cases v with
  | obj fields =>
    rw [auditNodes]
    cases hid : nodeId? (.obj fields) with
    | none => exact iff_of_false hfault (by simp)
    | some id =>
      constructor
      · intro h
        obtain ⟨here, hhere, h⟩ := bind_eq_ok.mp h
        obtain ⟨⟨walked, faults⟩, hwalked, h⟩ := bind_eq_ok.mp h
        obtain ⟨rfl, hnil⟩ := Prod.mk.inj (Except.ok.inj h)
        obtain ⟨rfl, rfl⟩ := List.append_eq_nil_iff.mp hnil
        exact ⟨id, rfl, hhere, hwalked⟩
      · rintro ⟨_, ⟨⟩, hhere, hwalked⟩
        simp only [hhere, hwalked, ok_bind]
        rfl
  | _ =>
    refine iff_of_false hfault ?_
    rintro ⟨id, hid, -⟩
    cases hid

/-- The audit finds nothing wrong with the nodes just if they are nodes with distinct new ids. -/
theorem auditNodes_eq_nil_iff {nodes : List Json} : auditNodes before i nodes = .ok (ids, []) ↔
    ∃ new, ids = before ++ new ∧ List.Forall₂ (IsNode PassesAsCredits) nodes new ∧ new.Nodup ∧
      ∀ id ∈ new, id ∉ before := by
  -- for any ids before, since each node is compared with the ids of those already walked
  induction nodes generalizing before i with
  | nil => simp [auditNodes, eq_comm]
  | cons v nodes ih =>
    simp only [auditNodes_cons_eq_nil_iff, ih, List.forall₂_cons_left_iff]
    constructor
    · rintro ⟨id, hid, hhere, new, rfl, hnodes, hdistinct, hnew⟩
      obtain ⟨hnode, hfresh⟩ := (nodeFaults_eq_nil_iff hid).mp hhere
      simp only [List.mem_append, List.mem_singleton, not_or] at hnew
      have hother : id ∉ new := fun hmem => (hnew id hmem).2 rfl
      exact ⟨id :: new, by simp, ⟨id, new, hnode, hnodes, rfl⟩, List.nodup_cons.mpr ⟨hother, hdistinct⟩,
        List.forall_mem_cons.mpr ⟨hfresh, fun other hmem => (hnew other hmem).1⟩⟩
    · rintro ⟨_, rfl, ⟨id, new, hnode, hnodes, rfl⟩, hdistinct, hnew⟩
      have hid := nodeId?_eq_some_iff.mpr ⟨hnode.named, hnode.visible⟩
      obtain ⟨hfresh, hnew⟩ := List.forall_mem_cons.mp hnew
      obtain ⟨hother, hdistinct⟩ := List.nodup_cons.mp hdistinct
      have hhere := (nodeFaults_eq_nil_iff (i := i) hid).mpr ⟨hnode, hfresh⟩
      refine ⟨id, hid, hhere, new, by simp, hnodes, hdistinct, fun other hmem => ?_⟩
      simp only [List.mem_append, List.mem_singleton, not_or]
      exact ⟨hnew other hmem, fun heq => hother (heq ▸ hmem)⟩

/-! ### Edges and rules -/

theorem edgeFaults_eq_nil_iff : edgeFaults ids i v = .ok [] ↔ IsEdge ids v := by
  cases v with
  | obj fields =>
    have hgroup : ∀ isText : Json → Bool, (∀ value, isText value = true ↔ ∃ s, value = .str s) →
        (optionalField "groupingId" isText (.obj fields) = true ↔
          MayHold "groupingId" (fun value => ∃ s, value = .str s) (.obj fields)) :=
      fun _ htext => optionalField_iff htext
    unfold edgeFaults
    simp only [bind_eq_ok, pure_eq_ok, List.append_eq_nil_iff, faults_eq_nil_iff]
    rw [hgroup _ fun value => by cases value <;> simp]
    constructor
    · rintro ⟨_, hsource, _, htarget, ⟨rfl, rfl⟩, hgrouped⟩
      exact ⟨⟨fields, rfl⟩, fieldIsAmong_eq_true_iff.mp hsource, fieldIsAmong_eq_true_iff.mp htarget, hgrouped⟩
    · intro h
      exact ⟨true, fieldIsAmong_eq_true_iff.mpr h.source, true, fieldIsAmong_eq_true_iff.mpr h.target, ⟨rfl, rfl⟩,
        h.group⟩
  | _ =>
    refine iff_of_false (fun h => List.cons_ne_nil _ _ (Except.ok.inj h)) fun h => ?_
    obtain ⟨fields, hfields⟩ := h.object
    cases hfields

theorem ruleFaults_eq_nil_iff : ruleFaults ids i v = .ok [] ↔ IsRule ids v := by
  cases v with
  | obj fields =>
    have hunknown : ∀ r : Requirement, (r.unknownIds fun id => ids.contains id).toList.isEmpty = true ↔
        ∀ id ∈ r.courseIds, id ∈ ids := by
      intro r
      -- the list is empty just if the set that it lists is
      change (r.unknownIds fun id => ids.contains id).isEmpty = true ↔ _
      rw [SortedSet.isEmpty_iff_forall]
      simp [Requirement.unknownIds]
    unfold ruleFaults
    simp only [bind_eq_ok, pure_eq_ok, List.append_eq_nil_iff, faults_eq_nil_iff]
    constructor
    · rintro ⟨_, hcourse, rfl, hexpression⟩
      refine ⟨⟨fields, rfl⟩, fieldIsAmong_eq_true_iff.mp hcourse, ?_⟩
      split at hexpression
      · cases hexpression
      · next r hr => exact ⟨r, hr, (hunknown r).mp (faults_eq_nil_iff.mp hexpression)⟩
    · intro h
      obtain ⟨r, hr, hknown⟩ := h.requirement
      refine ⟨true, fieldIsAmong_eq_true_iff.mpr h.course, rfl, ?_⟩
      rw [hr]
      exact faults_eq_nil_iff.mpr ((hunknown r).mpr hknown)
  | _ =>
    refine iff_of_false (fun h => List.cons_ne_nil _ _ (Except.ok.inj h)) fun h => ?_
    obtain ⟨fields, hfields⟩ := h.object
    cases hfields

/-! ### Graphs -/

theorem auditItems_eq_nil_iff {faults : Nat → Json → Except Incomparable (List Fault)} {good : Json → Prop}
    (h : ∀ i v, faults i v = .ok [] ↔ good v) {items : List Json} :
    auditItems faults i items = .ok [] ↔ ∀ v ∈ items, good v := by
  induction items generalizing i with
  | nil => simp [auditItems]
  | cons v items ih =>
    rw [auditItems, List.forall_mem_cons, ← h i v, ← @ih (i + 1)]
    simp only [bind_eq_ok, pure_eq_ok, List.append_eq_nil_iff]
    constructor
    · rintro ⟨here, hhere, rest, hrest, rfl, rfl⟩
      exact ⟨hhere, hrest⟩
    · rintro ⟨hhere, hrest⟩
      exact ⟨[], hhere, [], hrest, rfl, rfl⟩

theorem graphIdFaults_eq_nil_iff : graphIdFaults v = [] ↔ ∃ id, id ≠ "" ∧ v.field? "id" = some (.str id) := by
  unfold graphIdFaults
  split
  · next id hid => simp [hid]
  · next hother => exact iff_of_false (List.cons_ne_nil _ _) fun ⟨id, _, hid⟩ => hother id hid

theorem itemsOf_eq (list : Section) {items : List Json} (h : v.field? list.name = some (.arr items)) :
    itemsOf list v = items := by
  unfold itemsOf
  rw [h]

/-- A list that must not be missing is passed just if it is there. -/
theorem arrayFaults_eq_nil_iff (list : Section) (h : list ≠ .rules) :
    arrayFaults list v = [] ↔ v.field? list.name = some (.arr (itemsOf list v)) := by
  unfold itemsOf
  cases hfield : v.field? list.name with
  | none => cases list <;> simp_all [arrayFaults]
  | some value => cases value <;> cases list <;> simp_all [arrayFaults]

/-- The list of rules is passed with its items just if it is missing or null, or if they are good. -/
theorem arrayFaults_rules_iff {good : Json → Prop} :
    arrayFaults .rules v = [] ∧ (∀ rule ∈ itemsOf .rules v, good rule) ↔
      MayHold "prereqExpressions" (fun value => ∃ rules, value = .arr rules ∧ ∀ rule ∈ rules, good rule) v := by
  have hname : Section.rules.name = "prereqExpressions" := rfl
  unfold itemsOf arrayFaults MayHold
  rw [hname]
  cases hfield : v.field? "prereqExpressions" with
  | none => simp
  | some value => cases value <;> simp

/-- The audit finds nothing wrong with a value just if it is a graph, with credits such as it passes. -/
theorem audit_eq_nil_iff : audit v = .ok [] ↔ IsGraph PassesAsCredits v := by
  cases v with
  | obj fields =>
    have hedgeIff : ∀ {ids items}, auditItems (edgeFaults ids) 0 items = .ok [] ↔ ∀ edge ∈ items, IsEdge ids edge :=
      auditItems_eq_nil_iff fun i v => edgeFaults_eq_nil_iff (i := i) (v := v)
    have hruleIff : ∀ {ids items}, auditItems (ruleFaults ids) 0 items = .ok [] ↔ ∀ rule ∈ items, IsRule ids rule :=
      auditItems_eq_nil_iff fun i v => ruleFaults_eq_nil_iff (i := i) (v := v)
    unfold audit
    simp only [bind_eq_ok, pure_eq_ok, List.append_eq_nil_iff]
    constructor
    · rintro ⟨⟨ids, _⟩, hnodes, _, hedges, _, hrules, ⟨⟨⟨⟨⟨hid, hnodeList⟩, hedgeList⟩, rfl⟩, rfl⟩, hruleList⟩, rfl⟩
      obtain ⟨_, rfl, hnode, hdistinct, -⟩ := auditNodes_eq_nil_iff.mp hnodes
      exact ⟨⟨fields, rfl⟩, graphIdFaults_eq_nil_iff.mp hid, itemsOf .nodes (.obj fields),
        itemsOf .edges (.obj fields), ids, (arrayFaults_eq_nil_iff .nodes nofun).mp hnodeList, hnode, hdistinct,
        (arrayFaults_eq_nil_iff .edges nofun).mp hedgeList, hedgeIff.mp hedges,
        arrayFaults_rules_iff.mp ⟨hruleList, hruleIff.mp hrules⟩⟩
    · rintro ⟨-, hid, nodes, edges, ids, hnodeList, hnode, hdistinct, hedgeList, hedge, hruleList⟩
      obtain ⟨hrules, hrule⟩ := arrayFaults_rules_iff.mpr hruleList
      obtain rfl := itemsOf_eq .nodes hnodeList
      obtain rfl := itemsOf_eq .edges hedgeList
      exact ⟨(ids, []), auditNodes_eq_nil_iff.mpr ⟨ids, rfl, hnode, hdistinct, fun _ _ => List.not_mem_nil⟩, [],
        hedgeIff.mpr hedge, [], hruleIff.mpr hrule,
        ⟨⟨⟨⟨⟨graphIdFaults_eq_nil_iff.mpr hid, (arrayFaults_eq_nil_iff .nodes nofun).mpr hnodeList⟩,
          (arrayFaults_eq_nil_iff .edges nofun).mpr hedgeList⟩, rfl⟩, rfl⟩, hrules⟩, rfl⟩
  | _ =>
    refine iff_of_false (fun h => List.cons_ne_nil _ _ (Except.ok.inj h)) fun h => ?_
    obtain ⟨fields, hfields⟩ := h.object
    cases hfields

/-! ### Credits that are not a number -/

/-- A node of the graph has credits that are not a number. -/
def HasNan (v : Json) : Prop :=
  ∃ nodes, v.field? "nodes" = some (.arr nodes) ∧ ∃ node ∈ nodes, node.field? "credits" = some (.float .nan)

theorem atLeastZero_iff : v.AtLeastZero ↔ v ≠ .float .nan ∧ PassesAsCredits v := by
  constructor
  · intro h
    refine ⟨?_, .inl h⟩
    rintro rfl
    cases h
  · rintro ⟨hnan, h⟩
    exact h.resolve_right hnan

theorem mayHold_credits_iff : MayHold "credits" Json.AtLeastZero v ↔
    v.field? "credits" ≠ some (.float .nan) ∧ MayHold "credits" PassesAsCredits v := by
  unfold MayHold
  cases v.field? "credits" with
  | none => simp
  | some value =>
    simp only [Option.some.injEq, forall_eq', atLeastZero_iff, ne_eq]
    constructor
    · rintro (rfl | ⟨hnan, h⟩)
      · exact ⟨nofun, .inl rfl⟩
      · exact ⟨hnan, .inr h⟩
    · rintro ⟨hnan, h⟩
      exact h.imp_right fun h => ⟨hnan, h⟩

theorem isNode_iff : IsNode Json.AtLeastZero v id ↔
    v.field? "credits" ≠ some (.float .nan) ∧ IsNode PassesAsCredits v id := by
  constructor
  · intro h
    obtain ⟨hnan, hcredited⟩ := mayHold_credits_iff.mp h.credited
    exact ⟨hnan, { h with credited := hcredited }⟩
  · rintro ⟨hnan, h⟩
    exact { h with credited := mayHold_credits_iff.mpr ⟨hnan, h.credited⟩ }

theorem forall₂_isNode_iff {nodes : List Json} : List.Forall₂ (IsNode Json.AtLeastZero) nodes ids ↔
    (∀ node ∈ nodes, node.field? "credits" ≠ some (.float .nan)) ∧ List.Forall₂ (IsNode PassesAsCredits) nodes ids := by
  rw [← List.forall₂_and_left]
  exact ⟨fun h => h.imp fun _ _ => isNode_iff.mp, fun h => h.imp fun _ _ => isNode_iff.mpr⟩

/-- A value is a graph just if the audit finds nothing wrong with it and no credits in it are not a number. -/
theorem isGraph_iff : IsGraph Json.AtLeastZero v ↔ IsGraph PassesAsCredits v ∧ ¬HasNan v := by
  constructor
  · rintro ⟨hobject, hnamed, nodes, edges, ids, hnodes, hnode, hparts⟩
    obtain ⟨hnan, hnode⟩ := forall₂_isNode_iff.mp hnode
    refine ⟨⟨hobject, hnamed, nodes, edges, ids, hnodes, hnode, hparts⟩, ?_⟩
    rintro ⟨_, hitems, node, hmem, hcredits⟩
    rw [hnodes] at hitems
    cases hitems
    exact hnan node hmem hcredits
  · rintro ⟨⟨hobject, hnamed, nodes, edges, ids, hnodes, hnode, hparts⟩, hnan⟩
    have hnumber : ∀ node ∈ nodes, node.field? "credits" ≠ some (.float .nan) :=
      fun node hmem hcredits => hnan ⟨nodes, hnodes, node, hmem, hcredits⟩
    exact ⟨hobject, hnamed, nodes, edges, ids, hnodes, forall₂_isNode_iff.mpr ⟨hnumber, hnode⟩, hparts⟩

/-! ### The report -/

/-- The audit of the value comes to an end, and its report calls the value valid. -/
def Passes (v : Json) : Prop := ∃ faults, audit v = .ok faults ∧ (auditReport faults).field? "valid" = some (.bool true)

theorem passes_iff : Passes v ↔ audit v = .ok [] := by
  have hvalid : ∀ faults, (auditReport faults).field? "valid" = some (.bool true) ↔ faults = [] := by
    intro faults
    have hfield : (auditReport faults).field? "valid" = some (.bool faults.isEmpty) := rfl
    simp [hfield]
  simp [Passes, hvalid]

/-- A value passes the audit just if it is a graph in which credits may also be no number at all, so that a graph as it
    should be is just what passes without such credits. -/
theorem passes_iff_isGraph (v : Json) :
    (Passes v ↔ IsGraph PassesAsCredits v) ∧ (IsGraph Json.AtLeastZero v ↔ Passes v ∧ ¬HasNan v) := by
  have h : Passes v ↔ IsGraph PassesAsCredits v := passes_iff.trans audit_eq_nil_iff
  exact ⟨h, by rw [h, isGraph_iff]⟩

/-- A graph of one node, whose credits are not a number. -/
def nanGraph : Json :=
  .obj [("id", .str "g"), ("nodes", .arr [.obj [("id", .str "A"), ("credits", .float .nan)]]), ("edges", .arr [])]

/-- Credits that are not a number pass the audit, although they are not a number that is at least zero. -/
theorem nanGraph_passes : Passes nanGraph ∧ ¬IsGraph Json.AtLeastZero nanGraph := by
  refine ⟨passes_iff.mpr rfl, fun h => ?_⟩
  have hnan : HasNan nanGraph := ⟨_, rfl, _, List.mem_singleton_self _, rfl⟩
  exact (isGraph_iff.mp h).2 hnan

/-- Fields that may be absent may be null, and a rule may leave its text out. -/
example : (audit (.obj [("id", .str "g"),
    ("nodes", .arr [.obj [("id", .str "A"), ("credits", .null), ("status", .null)],
      .obj [("id", .str "B"), ("nodeType", .str "note"), ("credits", .int 3), ("status", .str "planned")]]),
    ("edges", .arr [.obj [("source", .str "A"), ("target", .str "B"), ("groupingId", .null)]]),
    ("prereqExpressions", .arr [.obj [("courseId", .str "A")],
      .obj [("courseId", .str "B"), ("expression", .str "A AND B")]])])).toOption = some [] := by
  decide +kernel

end Graph

end Curriculum
