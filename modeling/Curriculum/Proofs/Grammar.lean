import Curriculum.Requirement.Parser

/-! The grammar of requirement texts, stated on symbols: an OR joins ANDs, an AND joins operands, and an
    operand is a word or an OR in parentheses. Both operators group to the left, so the left side of an
    operator is a phrase of its own level and the right side one of the next tighter level.

    A phrase opens as many parentheses as it closes. `NestedWithin` says that no more than the allowed
    number is open at any place of a word. -/

namespace Curriculum

/-! ### Phrases -/

/-- The levels of the grammar, the loosest first. -/
inductive Phrase
  | either
  | both
  | operand
  deriving DecidableEq, Repr

/-- How tightly a phrase of the level holds together. -/
def Phrase.binding : Phrase → Nat
  | .either => 1
  | .both => 2
  | .operand => 3

/-- The symbols write the requirement as a phrase of the level. -/
inductive Derives : Phrase → List Symbol → Requirement → Prop
  | nothing : Derives .operand [.nothing] .nothing
  | course (id : String) : Derives .operand [.id id] (.course id)
  | enclosed {w : List Symbol} {r : Requirement} :
    Derives .either w r → Derives .operand (.opening :: (w ++ [.closing])) r
  | ofOperand {w : List Symbol} {r : Requirement} : Derives .operand w r → Derives .both w r
  | and {v w : List Symbol} {l r : Requirement} :
    Derives .both v l → Derives .operand w r → Derives .both (v ++ .and :: w) (.both l r)
  | ofBoth {w : List Symbol} {r : Requirement} : Derives .both w r → Derives .either w r
  | or {v w : List Symbol} {l r : Requirement} :
    Derives .either v l → Derives .both w r → Derives .either (v ++ .or :: w) (.either l r)

namespace Derives
variable {p : Phrase} {w : List Symbol} {r : Requirement}

/-- A phrase is a phrase of every looser level. -/
theorem loosen {q : Phrase} (h : Derives q w r) (hpq : p.binding ≤ q.binding) : Derives p w r := by
  cases q with
  | either =>
    cases p with
    | either => exact h
    | both | operand => simp [Phrase.binding] at hpq
  | both =>
    cases p with
    | either => exact .ofBoth h
    | both => exact h
    | operand => simp [Phrase.binding] at hpq
  | operand =>
    cases p with
    | either => exact .ofBoth (.ofOperand h)
    | both => exact .ofOperand h
    | operand => exact h

theorem ne_nil (h : Derives p w r) : w ≠ [] := by
  induction h with
  | nothing | course | enclosed => simp
  | ofOperand _ ih | ofBoth _ ih => exact ih
  | and | or => simp

/-- The courses of a requirement are the ids that its symbols name. -/
theorem mem_courseIds (h : Derives p w r) {id : String} : id ∈ r.courseIds ↔ .id id ∈ w := by
  induction h with
  | nothing => simp [Requirement.courseIds]
  | course => simp [Requirement.courseIds]
  | enclosed _ ih => simp [ih]
  | ofOperand _ ih | ofBoth _ ih => exact ih
  | and _ _ ihl ihr | or _ _ ihl ihr => simp [Requirement.courseIds, ihl, ihr]

theorem count_eq (h : Derives p w r) : w.count .opening = w.count .closing := by
  induction h with
  | nothing | course => simp
  | enclosed _ ih => simp [ih]
  | ofOperand _ ih | ofBoth _ ih => exact ih
  | and _ _ ihl ihr | or _ _ ihl ihr => simp [ihl, ihr]

end Derives

/-! ### Open parentheses -/

/-- Nowhere in the symbols are too many parentheses open, as many as given being open before them. -/
def NestedWithin (before : Nat) (w : List Symbol) : Prop :=
  ∀ front, front <+: w → before + front.count .opening ≤ front.count .closing + Requirement.maxDepth

namespace NestedWithin
variable {n : Nat} {v w : List Symbol}

theorem le (h : NestedWithin n w) : n ≤ Requirement.maxDepth := by
  simpa using h [] (List.nil_prefix)

theorem nil (h : n ≤ Requirement.maxDepth) : NestedWithin n [] := by
  intro front hf
  rw [List.prefix_nil.mp hf]
  simpa using h

theorem cons_iff {s : Symbol} (ho : s ≠ .opening) (hc : s ≠ .closing) : NestedWithin n (s :: w) ↔ NestedWithin n w := by
  constructor
  · intro h front hf
    have := h (s :: front) (List.cons_prefix_cons.mpr ⟨rfl, hf⟩)
    simpa [List.count_cons, ho, hc] using this
  · intro h front hf
    rcases List.prefix_cons_iff.mp hf with rfl | ⟨tail, rfl, htail⟩
    · simpa using h.le
    · simpa [List.count_cons, ho, hc] using h tail htail

/-- After a balanced word as many parentheses are open as before it. -/
theorem append_iff (hv : v.count .opening = v.count .closing) :
    NestedWithin n (v ++ w) ↔ NestedWithin n v ∧ NestedWithin n w := by
  constructor
  · intro h
    refine ⟨fun front hf => h front (hf.trans (List.prefix_append v w)), fun front hf => ?_⟩
    have := h (v ++ front) ((List.prefix_append_right_inj v).mpr hf)
    simp only [List.count_append] at this
    omega
  · rintro ⟨hleft, hright⟩ front hf
    rcases List.prefix_or_prefix_of_prefix hf (List.prefix_append v w) with hle | hle
    · exact hleft front hle
    · obtain ⟨tail, rfl⟩ := hle
      have := hright tail ((List.prefix_append_right_inj v).mp hf)
      simp only [List.count_append]
      omega

theorem enclosed_iff (hw : w.count .opening = w.count .closing) :
    NestedWithin n (.opening :: (w ++ [.closing])) ↔ NestedWithin (n + 1) w := by
  constructor
  · intro h front hf
    have := h (.opening :: front) (List.cons_prefix_cons.mpr ⟨rfl, hf.trans (List.prefix_append w _)⟩)
    simp only [List.count_cons, beq_self_eq_true, if_true, reduceCtorEq, beq_iff_eq, if_false] at this
    omega
  · intro h front hf
    rcases List.prefix_cons_iff.mp hf with rfl | ⟨tail, rfl, htail⟩
    · have := h.le
      simp only [List.count_nil]
      omega
    · rcases List.prefix_concat_iff.mp htail with rfl | htail
      · have := h.le
        simp only [List.count_cons, List.count_append, beq_self_eq_true, if_true, reduceCtorEq, beq_iff_eq, if_false,
          List.count_nil]
        omega
      · have := h tail htail
        simp only [List.count_cons, beq_self_eq_true, if_true, reduceCtorEq, beq_iff_eq, if_false]
        omega

theorem joined_iff {s : Symbol} (ho : s ≠ .opening) (hc : s ≠ .closing) (hv : v.count .opening = v.count .closing) :
    NestedWithin n (v ++ s :: w) ↔ NestedWithin n v ∧ NestedWithin n w := by
  rw [append_iff hv, cons_iff ho hc]

end NestedWithin
end Curriculum
