import Curriculum.Proofs.Spellings
import Mathlib.Data.List.Perm.Subperm

/-! Who refers to whom, told the other way round. The references of all courses are gone through in order, so the
    courses that refer to one come in order, and a course that is referred to stands where its first reference is.
    Nothing is told twice and nothing is lost, and the order in which the courses are given does not matter. -/

namespace Curriculum

namespace Dependents

/-! ### References in order -/

/-- All references in order: each course with one that its requirement refers to. -/
def references (rs : List (String × Requirement)) : List (String × String) :=
  rs.flatMap fun entry => entry.2.courseIds.toList.map fun id => (entry.1, id)

/-- The one reference comes before the other: it is of an earlier course, or of the same and to an earlier one. -/
def Precedes (a b : String × String) : Prop := a.1 < b.1 ∨ a.1 = b.1 ∧ a.2 < b.2

theorem ofRequirements_eq_foldl (rs : List (String × Requirement)) :
    ofRequirements rs = (references rs).foldl (fun m reference => m.add reference.2 reference.1) ∅ := by
  rw [ofRequirements, references, List.foldl_flatMap]
  simp only [List.foldl_map]

theorem pairwise_references {rs : List (String × Requirement)} (h : (rs.map Prod.fst).Pairwise (· < ·)) :
    (references rs).Pairwise Precedes := by
  refine List.pairwise_flatMap.mpr ⟨fun entry _ => ?_, (List.pairwise_map.mp h).imp fun hlt a ha b hb => ?_⟩
  · exact List.pairwise_map.mpr (entry.2.courseIds.increasing.imp fun hlt => .inr ⟨rfl, hlt⟩)
  · obtain ⟨_, -, rfl⟩ := List.mem_map.mp ha
    obtain ⟨_, -, rfl⟩ := List.mem_map.mp hb
    exact .inl hlt

/-! ### The order of the map -/

/-- The first course that refers to `p` comes before the first that refers to `q`, or it is the same and `p` comes
    before `q`. -/
def Before (m : Dependents) (p q : String) : Prop :=
  ∃ d e, (m.of p).head? = some d ∧ (m.of q).head? = some e ∧ Precedes (d, p) (e, q)

/-- The map is in order, and every course on it has a first reference among the given ones. -/
structure Ordered (m : Dependents) (references : List (String × String)) : Prop where
  first : ∀ p ∈ m.keys, ∃ d, (m.of p).head? = some d ∧ (d, p) ∈ references
  sorted : m.keys.Pairwise m.Before

variable {m : Dependents} {p q d e : String} {before after : List (String × String)}

theorem keys_add (m : Dependents) (p d : String) : (m.add p d).keys = if p ∈ m.keys then m.keys else m.keys ++ [p] :=
  OrderedMap.keys_insert ..

/-- One more course does not change who refers first. -/
theorem head?_of_add (h : (m.of p).head? = some d) : ((m.add q e).of p).head? = some d := by
  rw [of_add]
  split
  · rw [List.head?_append, h, Option.some_or]
  · exact h

theorem Before.add (h : m.Before p q) : (m.add d e).Before p q := by
  obtain ⟨d, e, hd, he, hprecedes⟩ := h
  exact ⟨d, e, head?_of_add hd, head?_of_add he, hprecedes⟩

theorem Ordered.add (h : m.Ordered before) (hlast : ∀ reference ∈ before, Precedes reference (d, p)) :
    (m.add p d).Ordered (before ++ [(d, p)]) := by
  have hfirst : ∀ q ∈ m.keys, ∃ e, ((m.add p d).of q).head? = some e ∧ (e, q) ∈ before := by
    intro q hq
    obtain ⟨e, he, hmem⟩ := h.first q hq
    exact ⟨e, head?_of_add he, hmem⟩
  have hsorted : m.keys.Pairwise (m.add p d).Before := h.sorted.imp Before.add
  by_cases hp : p ∈ m.keys
  · have hkeys : (m.add p d).keys = m.keys := by rw [keys_add, if_pos hp]
    refine ⟨fun q hq => ?_, hkeys ▸ hsorted⟩
    obtain ⟨e, he, hmem⟩ := hfirst q (hkeys ▸ hq)
    exact ⟨e, he, List.mem_append_left _ hmem⟩
  · -- The new course comes last, since its reference does.
    have hkeys : (m.add p d).keys = m.keys ++ [p] := by rw [keys_add, if_neg hp]
    have hnew : ((m.add p d).of p).head? = some d := by simp [of_add, of_eq_nil hp]
    constructor
    · intro q hq
      rw [hkeys] at hq
      rcases List.mem_append.mp hq with hq | hq
      · obtain ⟨e, he, hmem⟩ := hfirst q hq
        exact ⟨e, he, List.mem_append_left _ hmem⟩
      · rw [List.mem_singleton.mp hq]
        exact ⟨d, hnew, List.mem_append_right _ (List.mem_singleton_self _)⟩
    · rw [hkeys]
      refine List.pairwise_append.mpr ⟨hsorted, List.pairwise_singleton _ _, fun q hq q' hq' => ?_⟩
      obtain ⟨e, he, hmem⟩ := hfirst q hq
      rw [List.mem_singleton.mp hq']
      exact ⟨e, d, he, hnew, hlast _ hmem⟩

theorem Ordered.foldl (h : m.Ordered before) (hpairwise : (before ++ after).Pairwise Precedes) :
    (after.foldl (fun m reference => m.add reference.2 reference.1) m).Ordered (before ++ after) := by
  induction after generalizing m before with
  | nil => simpa using h
  | cons reference after ih =>
    obtain ⟨d, p⟩ := reference
    have hlast : ∀ reference ∈ before, Precedes reference (d, p) := fun reference hmem =>
      (List.pairwise_append.mp hpairwise).2.2 _ hmem _ (List.mem_cons_self ..)
    rw [List.append_cons] at hpairwise ⊢
    exact ih (h.add hlast) hpairwise

theorem ordered_ofRequirements {rs : List (String × Requirement)} (h : (rs.map Prod.fst).Pairwise (· < ·)) :
    (ofRequirements rs).Ordered (references rs) := by
  have hempty : (∅ : Dependents).Ordered [] := ⟨fun _ hp => absurd hp List.not_mem_nil, .nil⟩
  rw [ofRequirements_eq_foldl]
  exact hempty.foldl (pairwise_references h)

end Dependents

/-! ### Maps of texts -/

namespace Expressions
variable {m m' : Expressions} {id p d : String}

theorem keys_perm (h : m'.entries.Perm m.entries) : m'.keys.Perm m.keys := h.map Prod.fst

theorem requirementOf_of_perm (h : m'.entries.Perm m.entries) (id : String) : m'.requirementOf id = m.requirementOf id := by
  rw [requirementOf, textOf, OrderedMap.get?, Entries.lookup_eq_of_perm h m'.nodup_keys]
  rfl

namespace Readable

theorem of_perm (h : m.Readable) (hperm : m'.entries.Perm m.entries) : m'.Readable :=
  fun id text hmem => h id text (hperm.mem_iff.mp hmem)

/-- The order in which the courses are given does not matter. -/
theorem dependents_eq_of_perm (h : m.Readable) (hperm : m'.entries.Perm m.entries) :
    (dependents Reading.plain m').result = (dependents Reading.plain m).result := by
  have hkeys : SortedSet.ofList m'.keys = SortedSet.ofList m.keys := by
    refine SortedSet.ext fun id => ?_
    rw [SortedSet.mem_ofList, SortedSet.mem_ofList, (keys_perm hperm).mem_iff]
  rw [(h.of_perm hperm).dependents_eq, h.dependents_eq, hkeys]
  simp only [requirementOf_of_perm hperm]

end Readable
end Expressions

namespace Expressions.Readable
variable {m : Expressions} {reverse : Dependents} {p d : String} (h : m.Readable)
  (hreverse : (dependents Reading.plain m).result = .ok reverse)
include h hreverse

theorem of_eq_filter (p : String) :
    reverse.of p = (SortedSet.ofList m.keys).toList.filter fun d => p ∈ (m.requirementOf d).courseIds := by
  obtain ⟨reverse', hreverse', hof⟩ := h.dependents_result
  rw [Except.ok.inj (hreverse.symm.trans hreverse'), hof]

theorem mem_of_iff_refers : d ∈ reverse.of p ↔
    d ∈ m.keys ∧ ∃ r, Requirement.parse (m.textOf d) = .ok r ∧ p ∈ r.courseIds := by
  rw [h.of_eq_filter hreverse, List.mem_filter, decide_eq_true_eq, SortedSet.mem_toList, SortedSet.mem_ofList]
  refine and_congr_right fun _ => ⟨fun hp => ⟨_, h.parse_textOf d, hp⟩, ?_⟩
  rintro ⟨r, hr, hp⟩
  rw [requirementOf_of_parse hr]
  exact hp

theorem increasing_of (p : String) : (reverse.of p).Pairwise (· < ·) := by
  rw [h.of_eq_filter hreverse]
  exact (SortedSet.increasing _).filter _

theorem length_of_le (p : String) : (reverse.of p).length ≤ m.keys.length := by
  have hnodup : (reverse.of p).Nodup := by
    rw [h.of_eq_filter hreverse]
    exact (SortedSet.nodup _).filter _
  exact (List.subperm_of_subset hnodup fun d hd => ((h.mem_of_iff_refers hreverse).mp hd).1).length_le

theorem ordered_dependents : ∃ references, reverse.Ordered references := by
  rw [h.dependents_eq] at hreverse
  rw [← Except.ok.inj hreverse]
  refine ⟨_, Dependents.ordered_ofRequirements ?_⟩
  rw [List.map_map]
  exact (List.map_id _).symm ▸ SortedSet.increasing _

/-- The courses that refer to a course are few enough for a limit that counts all courses. -/
theorem directUnlocks_eq_of (id : String) : directUnlocks id reverse m.keys.length = reverse.of id := by
  rw [directUnlocks, takeTo, if_neg (by omega), Int.toNat_natCast, List.take_of_length_le (h.length_of_le hreverse id)]

end Expressions.Readable

/-! ### The map and its answer -/

/-- The map of dependents is the converse of referring: a course is under another just if it is given and its
    requirement refers to that one. Every list of the map is in order and not empty, the lists come in the order of
    their first courses, and the order of the given courses does not matter. No list is longer than all courses are
    many, so the service tells all courses that refer to the one it is asked about. -/
theorem dependents_are_converse {m : Expressions} (hm : m.Readable) :
    ∃ reverse, (dependents Reading.plain m).result = .ok reverse ∧
      (∀ p d, (∃ ds, reverse.get? p = some ds ∧ d ∈ ds) ↔
        d ∈ m.keys ∧ ∃ r, Requirement.parse (m.textOf d) = .ok r ∧ p ∈ r.courseIds) ∧
      (∀ p ds, reverse.get? p = some ds → ds ≠ [] ∧ ds.Pairwise (· < ·) ∧ ds.length ≤ m.keys.length) ∧
      reverse.keys.Pairwise reverse.Before ∧
      (∀ m' : Expressions, m'.entries.Perm m.entries → (dependents Reading.plain m').result = .ok reverse) ∧
      ∀ (s : Service) (size : Int) (r : Service.Request) (body : Json) (id : String) (standing : Standing),
        r.Posts .unlocks body → Service.expressionsIn body = .ok m → Service.courseIn body = .ok id →
        Service.completedIn m.keys.contains body = .ok standing →
        ∃ answer, s.Accepts size r answer ∧ answer.field? "direct_unlocks" = some (.ofTexts (reverse.of id)) := by
  refine ⟨_, hm.dependents_eq, ?_⟩
  have hreverse := hm.dependents_eq
  generalize Dependents.ofRequirements _ = reverse at hreverse ⊢
  obtain ⟨references, hordered⟩ := hm.ordered_dependents hreverse
  refine ⟨fun p d => ?_, fun p ds hds => ?_, hordered.sorted, fun m' hperm => ?_, ?_⟩
  · rw [← Dependents.mem_of_iff]
    exact hm.mem_of_iff_refers hreverse
  · obtain rfl := Dependents.of_eq_of_get? hds
    obtain ⟨d, hd, -⟩ := hordered.first p (OrderedMap.mem_keys_iff.mpr ⟨_, hds⟩)
    refine ⟨fun hnil => ?_, hm.increasing_of hreverse p, hm.length_of_le hreverse p⟩
    rw [hnil] at hd
    cases hd
  · exact (hm.dependents_eq_of_perm hperm).trans hreverse
  · intro s size r body id standing hr hexpressions hid hstanding
    obtain ⟨reverse', newly, hreverse', hnewly, -⟩ := hm.newlyEligible_result id standing.has
    obtain rfl : reverse = reverse' := Except.ok.inj (hreverse.symm.trans hreverse')
    have hopened : m.opened id standing.has = .ok (reverse, newly) := by
      rw [Expressions.opened, hreverse, ok_bind, hnewly, ok_bind]
    refine ⟨_, Service.accepts_unlocks hr hexpressions hid hstanding hopened, ?_⟩
    rw [← hm.directUnlocks_eq_of hreverse]
    rfl

/-- `C` refers to itself and to `Z`, which is not given, and nobody refers to `A`. The service is asked what `C` opens. -/
theorem dependents_are_converse_unlisted :
    ∃ m : Expressions, m = .ofList [("C", some "Z or C"), ("A", some "C and B"), ("B", none)] ∧ m.Readable ∧
      ∃ reverse, (dependents Reading.plain m).result = .ok reverse ∧ reverse.keys.Pairwise reverse.Before ∧
        (∃ ds, reverse.get? "Z" = some ds ∧ "C" ∈ ds) ∧ (¬ ∃ ds, reverse.get? "A" = some ds ∧ "B" ∈ ds) ∧
        ∃ answer, Service.Accepts ⟨none, .ofInt 750, false⟩ 1
          ⟨"POST", "/api/graph/unlocks", some "application/json",
            some "\x7b\"expressions\": \x7b\"C\": \"Z or C\", \"A\": \"C and B\", \"B\": null\x7d, \"course_id\": \"C\"\x7d"⟩
          answer ∧ answer.field? "direct_unlocks" = some (.ofTexts ["A", "C"]) := by
  obtain ⟨m, heq⟩ : ∃ m : Expressions, m = .ofList [("C", some "Z or C"), ("A", some "C and B"), ("B", none)] := ⟨_, rfl⟩
  have hm : m.Readable := by
    subst heq
    decide +kernel
  have hC : "C" ∈ m.keys ∧ "Z" ∈ (m.requirementOf "C").courseIds := by
    subst heq
    decide +kernel
  have hB : "A" ∉ (m.requirementOf "B").courseIds := by
    subst heq
    decide +kernel
  obtain ⟨reverse, hreverse, hmem, -, hsorted, -, hserved⟩ := dependents_are_converse hm
  have hof : reverse.of "C" = ["A", "C"] := by
    rw [hm.of_eq_filter hreverse]
    subst heq
    decide +kernel
  refine ⟨m, heq, hm, reverse, hreverse, hsorted, (hmem "Z" "C").mpr ⟨hC.1, _, hm.parse_textOf "C", hC.2⟩, fun h => ?_, ?_⟩
  · obtain ⟨-, r, hr, hp⟩ := (hmem "A" "B").mp h
    exact hB (Expressions.requirementOf_of_parse hr ▸ hp)
  · rw [← hof]
    subst heq
    exact hserved _ 1 _ (.obj [("expressions", .obj [("C", .str "Z or C"), ("A", .str "C and B"), ("B", .null)]),
      ("course_id", .str "C")]) "C" (.completed []) ⟨by decide +kernel, rfl⟩ rfl rfl rfl

end Curriculum
