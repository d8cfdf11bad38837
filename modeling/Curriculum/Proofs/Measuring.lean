import Mathlib.Data.List.Chain
import Mathlib.Data.List.Dedup
import Mathlib.Data.List.Perm.Subperm
import Curriculum.Plan.ChainDepth

/-! How the depths of courses become known. Each course is measured after all that follow it, so its depth is put
    together from depths that are known by then. On a cycle some course is met again on the way down to it and
    counts as the end there. Even so every course of the map gets a depth, and the depth is the length of a chain
    that repeats no course before its last one: those on the chain were known when the course was not. Getting a
    depth for every course is a matter of the order alone: the stack is taken as unlimited, however long the chains. -/

namespace Curriculum

variable {m : Dependents} {path ids : List String} {known after : OrderedMap Nat} {id : String} {d deepest : Nat}

namespace Dependents

/-- The second course is one that the map lists for the first one. -/
def Next (m : Dependents) (id next : String) : Prop := next ∈ m.of id

/-- The courses for which the map has a list, and those in its lists. -/
def courses (m : Dependents) : List String := m.keys ++ m.values.flatten

/-- The depth of a course by the greatest depth of those that follow it. -/
def depthOver (m : Dependents) (id : String) (below : Nat) : Nat := if m.of id = [] then 0 else below + 1

theorem depthOver_eq_zero_iff {below : Nat} : m.depthOver id below = 0 ↔ m.of id = [] := by
  unfold depthOver
  split
  · next hof => exact iff_of_true rfl hof
  · next hof => exact iff_of_false (Nat.succ_ne_zero _) hof

theorem mem_keys_of_ne_nil (h : m.of id ≠ []) : id ∈ m.keys :=
  Decidable.byContradiction fun hid => h (of_eq_nil hid)

theorem mem_courses_of_next {next : String} (h : m.Next id next) : next ∈ m.courses := by
  obtain ⟨listed, hget, hmem⟩ := mem_of_iff.mp h
  refine List.mem_append_right _ (List.mem_flatten.mpr ⟨listed, ?_, hmem⟩)
  exact List.mem_map.mpr ⟨_, OrderedMap.get?_eq_some_iff.mp hget, rfl⟩

end Dependents

/-! ### Measuring -/

/-- Some courses are measured one after the other, given the courses on the way down to them and the depths known
    so far; this gives the greatest of their depths and the depths known afterwards. A course of known depth is not
    measured again, and one on the way counts as the end of its chain. Any other course becomes known after all that
    follow it have been measured. -/
inductive Measured (m : Dependents) : (path : List String) → (known : OrderedMap Nat) → (ids : List String) →
    (deepest : Nat) → (after : OrderedMap Nat) → Prop
  | done {path : List String} {known : OrderedMap Nat} : Measured m path known [] 0 known
  | remember {path rest : List String} {known after : OrderedMap Nat} {id : String} {depth deepest : Nat} :
    known.get? id = some depth → Measured m path known rest deepest after →
    Measured m path known (id :: rest) (max depth deepest) after
  | turn {path rest : List String} {known after : OrderedMap Nat} {id : String} {deepest : Nat} :
    known.get? id = none → id ∈ path → Measured m path known rest deepest after →
    Measured m path known (id :: rest) (max 0 deepest) after
  | descend {path rest : List String} {known between after : OrderedMap Nat} {id : String} {below deepest : Nat} :
    known.get? id = none → id ∉ path → Measured m (id :: path) known (m.of id) below between →
    Measured m path (between.insert id (m.depthOver id below)) rest deepest after →
    Measured m path known (id :: rest) (max (m.depthOver id below) deepest) after

theorem deepestOf_nil : deepestOf m path known [] = (0, known) := by
  rw [deepestOf]

theorem deepestOf_cons {rest : List String} : deepestOf m path known (id :: rest) =
    (max (depthOf m path known id).1 (deepestOf m path (depthOf m path known id).2 rest).1,
      (deepestOf m path (depthOf m path known id).2 rest).2) := by
  rw [deepestOf]

theorem depthOf_of_known (h : known.get? id = some d) : depthOf m path known id = (d, known) := by
  rw [depthOf, h]

theorem depthOf_of_path (h : known.get? id = none) (hpath : id ∈ path) : depthOf m path known id = (0, known) := by
  rw [depthOf, h]
  dsimp only
  rw [if_pos hpath]

theorem depthOf_of_new (h : known.get? id = none) (hpath : id ∉ path) : depthOf m path known id =
    (m.depthOver id (deepestOf m (id :: path) known (m.of id)).1,
      (deepestOf m (id :: path) known (m.of id)).2.insert id
        (m.depthOver id (deepestOf m (id :: path) known (m.of id)).1)) := by
  rw [depthOf, h]
  dsimp only
  rw [if_neg hpath]
  by_cases hof : m.of id = []
  · rw [if_neg fun hkey => hkey.2 hof, hof, deepestOf_nil, Dependents.depthOver, if_pos hof]
  · rw [if_pos ⟨Dependents.mem_keys_of_ne_nil hof, hof⟩, Dependents.depthOver, if_neg hof]

namespace Measured

/-- The measuring comes to an end: only courses of the map are gone below, and each only while it is not on the
    way. -/
theorem of_deepestOf (m : Dependents) (path : List String) : ∀ (known : OrderedMap Nat) (ids : List String),
    Measured m path known ids (deepestOf m path known ids).1 (deepestOf m path known ids).2
  | known, [] => by
    rw [deepestOf_nil]
    exact .done
  | known, id :: rest => by
    rw [deepestOf_cons]
    cases hid : known.get? id with
    | some depth =>
      rw [depthOf_of_known hid]
      exact .remember hid (of_deepestOf m path known rest)
    | none =>
      by_cases hpath : id ∈ path
      · rw [depthOf_of_path hid hpath]
        exact .turn hid hpath (of_deepestOf m path known rest)
      · rw [depthOf_of_new hid hpath]
        refine .descend hid hpath ?_ (of_deepestOf m path _ rest)
        by_cases hof : m.of id = []
        · rw [hof, deepestOf_nil]
          exact .done
        · exact of_deepestOf m (id :: path) known (m.of id)
termination_by _ ids => (unseen m.keys path, ids.length)
decreasing_by
  · exact Prod.Lex.right _ (Nat.lt_succ_self _)
  · exact Prod.Lex.left _ _ (unseen_cons_lt (Dependents.mem_keys_of_ne_nil hof) hpath)
  · exact Prod.Lex.right _ (Nat.lt_succ_self _)
  · exact Prod.Lex.right _ (Nat.lt_succ_self _)

theorem deepestOf_eq (h : Measured m path known ids deepest after) : deepestOf m path known ids = (deepest, after) := by
  induction h with
  | done => exact deepestOf_nil
  | remember hid _ ih => rw [deepestOf_cons, depthOf_of_known hid, ih]
  | turn hid hpath _ ih => rw [deepestOf_cons, depthOf_of_path hid hpath, ih]
  | descend hid hpath _ _ ihbelow ih => rw [deepestOf_cons, depthOf_of_new hid hpath, ihbelow, ih]

/-! ### What becomes known -/

theorem get?_of_known (h : Measured m path known ids deepest after) (hid : known.get? id = some d) :
    after.get? id = some d := by
  induction h with
  | done => exact hid
  | remember _ _ ih => exact ih hid
  | turn _ _ _ ih => exact ih hid
  | @descend _ _ _ _ _ new _ _ hnew _ _ _ ihbelow ih =>
    have hne : id ≠ new := by
      rintro rfl
      rw [hnew] at hid
      cases hid
    refine ih ?_
    rw [OrderedMap.get?_insert, if_neg hne]
    exact ihbelow hid

/-- A course on the way down does not become known. -/
theorem get?_of_path (h : Measured m path known ids deepest after) (hpath : id ∈ path) (hid : known.get? id = none) :
    after.get? id = none := by
  induction h with
  | done => exact hid
  | remember _ _ ih => exact ih hpath hid
  | turn _ _ _ ih => exact ih hpath hid
  | @descend _ _ _ _ _ new _ _ _ hnew _ _ ihbelow ih =>
    have hne : id ≠ new := by
      rintro rfl
      exact hnew hpath
    refine ih hpath ?_
    rw [OrderedMap.get?_insert, if_neg hne]
    exact ihbelow (List.mem_cons_of_mem _ hpath) hid

theorem mem_keys_of_mem (h : Measured m path known ids deepest after) (hid : id ∈ ids) : id ∈ path ∨ id ∈ after.keys := by
  induction h with
  | done => exact absurd hid List.not_mem_nil
  | remember hknown hrest ih =>
    rcases List.mem_cons.mp hid with rfl | hid
    · exact Or.inr (OrderedMap.mem_keys_iff.mpr ⟨_, hrest.get?_of_known hknown⟩)
    · exact ih hid
  | turn _ hpath _ ih =>
    rcases List.mem_cons.mp hid with rfl | hid
    · exact Or.inl hpath
    · exact ih hid
  | descend _ _ _ hrest _ ih =>
    rcases List.mem_cons.mp hid with rfl | hid
    · have hnew := hrest.get?_of_known ((OrderedMap.get?_insert ..).trans (if_pos rfl))
      exact Or.inr (OrderedMap.mem_keys_iff.mpr ⟨_, hnew⟩)
    · exact ih hid

/-- The greatest depth is the known depth of one of the courses, unless it is zero. -/
theorem deepest_known (h : Measured m path known ids deepest after) :
    deepest = 0 ∨ ∃ id ∈ ids, after.get? id = some deepest := by
  have hmax : ∀ {path rest : List String} {known after : OrderedMap Nat} {id : String} {depth deepest : Nat},
      Measured m path known rest deepest after → (depth = 0 ∨ known.get? id = some depth) →
      (deepest = 0 ∨ ∃ id ∈ rest, after.get? id = some deepest) →
      max depth deepest = 0 ∨ ∃ other ∈ id :: rest, after.get? other = some (max depth deepest) := by
    intro path rest known after id depth deepest hrest hdepth hdeepest
    rcases Nat.le_total depth deepest with hle | hle
    · rw [Nat.max_eq_right hle]
      exact hdeepest.imp_right fun ⟨other, hother, hget⟩ => ⟨other, List.mem_cons_of_mem _ hother, hget⟩
    · rw [Nat.max_eq_left hle]
      exact hdepth.imp_right fun hget => ⟨_, List.mem_cons_self .., hrest.get?_of_known hget⟩
  induction h with
  | done => exact Or.inl rfl
  | remember hknown hrest ih => exact hmax hrest (Or.inr hknown) ih
  | turn _ _ hrest ih => exact hmax hrest (Or.inl rfl) ih
  | descend _ _ _ hrest _ ih =>
    refine hmax hrest (Or.inr ?_) ih
    rw [OrderedMap.get?_insert, if_pos rfl]

end Measured

/-! ### What is known -/

/-- Known depths are those of courses of the map. What follows a known course is known or on the way. A depth is zero
    just where nothing follows, and it is the length of a chain of known courses, no one of them twice, up to its
    last course, which may be any. -/
structure Sounded (m : Dependents) (path : List String) (known : OrderedMap Nat) : Prop where
  courses : ∀ id ∈ known.keys, id ∈ m.courses
  closed : ∀ id ∈ known.keys, ∀ next, m.Next id next → next ∈ path ∨ next ∈ known.keys
  zero : ∀ id d, known.get? id = some d → (d = 0 ↔ m.of id = [])
  chain : ∀ id d, known.get? id = some d → ∃ front last, front.length = d ∧ (front ++ [last]).head? = some id ∧
    (front ++ [last]).IsChain m.Next ∧ front.Nodup ∧ ∀ other ∈ front, other ∈ known.keys

namespace Sounded

theorem empty : Sounded m path ∅ where
  courses _ h := absurd h List.not_mem_nil
  closed _ h := absurd h List.not_mem_nil
  zero _ _ h := by cases h
  chain _ _ h := by cases h

theorem descend (h : Sounded m path known) (id : String) : Sounded m (id :: path) known where
  courses := h.courses
  closed other hother next hnext := (h.closed other hother next hnext).imp_left (List.mem_cons_of_mem _)
  zero := h.zero
  chain := h.chain

/-- The chain of a course that is not known goes on with the chain of the course that is followed longest. -/
theorem exists_chain_over {below : Nat} (h : Sounded m path known) (hid : known.get? id = none)
    (hbelow : below = 0 ∨ ∃ next, m.Next id next ∧ known.get? next = some below) :
    ∃ front last, front.length = m.depthOver id below ∧ (front ++ [last]).head? = some id ∧
      (front ++ [last]).IsChain m.Next ∧ front.Nodup ∧ ∀ other ∈ front, other = id ∨ other ∈ known.keys := by
  unfold Dependents.depthOver
  split
  · exact ⟨[], id, rfl, rfl, .singleton _, List.nodup_nil, fun _ hother => absurd hother List.not_mem_nil⟩
  · next hof =>
    obtain ⟨next, front, last, hnext, hlength, hhead, hchain, hnodup, hfront⟩ : ∃ next front last, m.Next id next ∧
        front.length = below ∧ (front ++ [last]).head? = some next ∧ (front ++ [last]).IsChain m.Next ∧ front.Nodup ∧
        ∀ other ∈ front, other ∈ known.keys := by
      rcases hbelow with rfl | ⟨next, hnext, hget⟩
      · obtain ⟨next, hnext⟩ := List.exists_mem_of_ne_nil _ hof
        exact ⟨next, [], next, hnext, rfl, rfl, .singleton _, List.nodup_nil, fun _ hother => absurd hother List.not_mem_nil⟩
      · obtain ⟨front, last, hfront⟩ := h.chain next below hget
        exact ⟨next, front, last, hnext, hfront⟩
    refine ⟨id :: front, last, by rw [List.length_cons, hlength], rfl, ?_, ?_, fun other hother => ?_⟩
    · refine List.IsChain.cons hchain fun other hother => ?_
      rw [← Option.some.inj (hhead.symm.trans hother)]
      exact hnext
    · exact List.nodup_cons.mpr ⟨fun hmem => OrderedMap.get?_eq_none_iff.mp hid (hfront id hmem), hnodup⟩
    · exact (List.mem_cons.mp hother).imp_right (hfront other)

/-- A course that becomes known after all that follow it. -/
theorem insert {below : Nat} (h : Sounded m (id :: path) known) (hid : known.get? id = none) (hcourse : id ∈ m.courses)
    (hnext : ∀ next, m.Next id next → next ∈ id :: path ∨ next ∈ known.keys)
    (hbelow : below = 0 ∨ ∃ next, m.Next id next ∧ known.get? next = some below) :
    Sounded m path (known.insert id (m.depthOver id below)) := by
  have hkeys : ∀ other, other ∈ (known.insert id (m.depthOver id below)).keys ↔ other = id ∨ other ∈ known.keys := by
    intro other
    simp only [OrderedMap.mem_keys_iff, OrderedMap.get?_insert]
    by_cases heq : other = id
    · simp [heq]
    · simp [heq]
  have hclosed : ∀ next, next ∈ id :: path ∨ next ∈ known.keys →
      next ∈ path ∨ next ∈ (known.insert id (m.depthOver id below)).keys := by
    intro next hmem
    rw [List.mem_cons, or_assoc] at hmem
    rw [hkeys, or_left_comm]
    exact hmem
  refine ⟨fun other hother => ?_, fun other hother next hfollows => ?_, fun other d hget => ?_, fun other d hget => ?_⟩
  · rcases (hkeys other).mp hother with rfl | hother
    · exact hcourse
    · exact h.courses other hother
  · rcases (hkeys other).mp hother with rfl | hother
    · exact hclosed next (hnext next hfollows)
    · exact hclosed next (h.closed other hother next hfollows)
  · rw [OrderedMap.get?_insert] at hget
    split at hget
    · next heq =>
      rw [← Option.some.inj hget, heq]
      exact Dependents.depthOver_eq_zero_iff
    · exact h.zero other d hget
  · rw [OrderedMap.get?_insert] at hget
    split at hget
    · next heq =>
      obtain ⟨front, last, hlength, hhead, hchain, hnodup, hfront⟩ := h.exists_chain_over hid hbelow
      rw [← Option.some.inj hget, heq]
      exact ⟨front, last, hlength, hhead, hchain, hnodup, fun x hx => (hkeys x).mpr (hfront x hx)⟩
    · obtain ⟨front, last, hlength, hhead, hchain, hnodup, hfront⟩ := h.chain other d hget
      exact ⟨front, last, hlength, hhead, hchain, hnodup, fun x hx => (hkeys x).mpr (Or.inr (hfront x hx))⟩

end Sounded

/-- Measuring courses of the map keeps this so. -/
theorem Measured.sounded (h : Measured m path known ids deepest after) (hknown : Sounded m path known)
    (hids : ∀ id ∈ ids, id ∈ m.courses) : Sounded m path after := by
  induction h with
  | done => exact hknown
  | remember _ _ ih | turn _ _ _ ih => exact ih hknown fun id hid => hids id (List.mem_cons_of_mem _ hid)
  | descend hid hpath hfollow _ ihbelow ih =>
    have hbetween := ihbelow (hknown.descend _) fun next hnext => Dependents.mem_courses_of_next hnext
    have hnew := hbetween.insert (hfollow.get?_of_path (List.mem_cons_self ..) hid) (hids _ (List.mem_cons_self ..))
      (fun next hnext => hfollow.mem_keys_of_mem hnext) hfollow.deepest_known
    exact ih hnew fun id hid => hids id (List.mem_cons_of_mem _ hid)

/-! ### The depths of a map -/

theorem foldl_depthOf (m : Dependents) (ids : List String) (known : OrderedMap Nat) :
    ids.foldl (fun known id => (depthOf m [] known id).2) known = (deepestOf m [] known ids).2 := by
  induction ids generalizing known with
  | nil => rw [List.foldl_nil, deepestOf_nil]
  | cons id ids ih => rw [List.foldl_cons, ih, deepestOf_cons]

theorem measured_chainDepths (m : Dependents) : Measured m [] ∅ m.keys (deepestOf m [] ∅ m.keys).1 (chainDepths m) := by
  rw [chainDepths, foldl_depthOf]
  exact .of_deepestOf m [] ∅ m.keys

theorem Measured.chainDepths_eq (h : Measured m [] ∅ m.keys deepest after) : chainDepths m = after := by
  rw [chainDepths, foldl_depthOf, h.deepestOf_eq]

theorem sounded_chainDepths (m : Dependents) : Sounded m [] (chainDepths m) :=
  (measured_chainDepths m).sounded .empty fun _ hid => List.mem_append_left _ hid

theorem mem_keys_chainDepths : id ∈ (chainDepths m).keys ↔ id ∈ m.courses := by
  have hsounded := sounded_chainDepths m
  have hkey : ∀ key ∈ m.keys, key ∈ (chainDepths m).keys := fun key hkey =>
    ((measured_chainDepths m).mem_keys_of_mem hkey).resolve_left List.not_mem_nil
  refine ⟨hsounded.courses id, fun h => ?_⟩
  rcases List.mem_append.mp h with h | h
  · exact hkey id h
  · obtain ⟨listed, hlisted, hid⟩ := List.mem_flatten.mp h
    obtain ⟨⟨key, _⟩, hentry, rfl⟩ := List.mem_map.mp hlisted
    have hnext : m.Next key id := by
      rw [Dependents.Next, Dependents.of, OrderedMap.get?_eq_some_iff.mpr hentry]
      exact hid
    have hmem : key ∈ m.keys := List.mem_map.mpr ⟨_, hentry, rfl⟩
    exact (hsounded.closed key (hkey key hmem) id hnext).resolve_left List.not_mem_nil

/-- The measuring of all courses of a map comes to an end, cycles or not, with a depth for every course of the map, and
    for each once. A depth is zero just where nothing follows. Every depth is the number of steps of a chain on which
    no course comes twice before the last one, and so there are at least as many courses in the map. -/
theorem depths_are_chains (m : Dependents) :
    (∃ deepest after, Measured m [] ∅ m.keys deepest after) ∧
    (∀ deepest after, Measured m [] ∅ m.keys deepest after → chainDepths m = after) ∧
    (chainDepths m).keys.Perm m.courses.dedup ∧
    ∀ id d, (chainDepths m).get? id = some d →
      (d = 0 ↔ m.of id = []) ∧
      (∃ front last, front.length = d ∧ (front ++ [last]).head? = some id ∧
        (front ++ [last]).IsChain (fun id next => next ∈ m.of id) ∧ front.Nodup) ∧
      d ≤ m.courses.dedup.length := by
  have hsounded := sounded_chainDepths m
  have hnodup : (chainDepths m).keys.Nodup := (chainDepths m).nodup_keys
  have hkeys : (chainDepths m).keys.Perm m.courses.dedup := by
    refine (List.perm_ext_iff_of_nodup hnodup (List.nodup_dedup _)).mpr fun id => ?_
    rw [mem_keys_chainDepths, List.mem_dedup]
  refine ⟨⟨_, _, measured_chainDepths m⟩, fun _ _ h => h.chainDepths_eq, hkeys, fun id d hget => ?_⟩
  obtain ⟨front, last, hlength, hhead, hchain, hfront, hknown⟩ := hsounded.chain id d hget
  refine ⟨hsounded.zero id d hget, ⟨front, last, hlength, hhead, hchain, hfront⟩, ?_⟩
  calc d = front.length := hlength.symm
    _ ≤ (chainDepths m).keys.length := (List.subperm_of_subset hfront hknown).length_le
    _ = m.courses.dedup.length := hkeys.length_eq

/-- Two courses that follow each other: the one measured first goes over the other to its end. -/
theorem depths_are_chains_cycle :
    ∃ m : Dependents, m = .ofList [("A", ["B"]), ("B", ["A", "C"])] ∧ (chainDepths m).get? "A" = some 2 ∧
      (∃ front last, front.length = 2 ∧ (front ++ [last]).head? = some "A" ∧
        (front ++ [last]).IsChain (fun id next => next ∈ m.of id) ∧ front.Nodup) ∧
      2 ≤ m.courses.dedup.length ∧ "C" ∈ (chainDepths m).keys := by
  refine ⟨_, rfl, ?_⟩
  obtain ⟨-, hruns, hcourses, hdepths⟩ := depths_are_chains (.ofList [("A", ["B"]), ("B", ["A", "C"])])
  -- Below `A` comes `B`, and below that a turn at `A` and the end at `C`.
  have hbelow : Measured (.ofList [("A", ["B"]), ("B", ["A", "C"])]) ["A"] ∅ ["B"] 1 _ :=
    .descend rfl (by decide) (.turn rfl (by decide) (.descend rfl (by decide) .done .done)) .done
  have hafter := hruns _ _ (.descend rfl (by decide) hbelow (.remember rfl .done))
  have hget : (chainDepths (.ofList [("A", ["B"]), ("B", ["A", "C"])])).get? "A" = some 2 := by
    rw [hafter]
    decide
  obtain ⟨-, hchain, hbound⟩ := hdepths "A" 2 hget
  exact ⟨hget, hchain, hbound, hcourses.mem_iff.mpr (by decide)⟩

end Curriculum
