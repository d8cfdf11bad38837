import Curriculum.Proofs.Canonical
import Mathlib.Order.Bounds.Defs

/-! How many parentheses a requirement needs. Every text of it opens at least one where a phrase of the grammar has to
    be tighter than the requirement that stands there, and the canonical text opens one just there. So the canonical
    text has the fewest. -/

namespace Curriculum.Requirement

/-- How many parentheses a text opens. -/
def openings (s : String) : Nat := s.toList.count '('

theorem openings_append (s t : String) : openings (s ++ t) = openings s + openings t := by
  rw [openings, String.toList_append, List.count_append, openings, openings]

/-! ### Canonical text -/

section
variable (r : Requirement)

/-- Where nothing is needed the text stands bare, and elsewhere it stands bare or in parentheses. -/
theorem renderAt_eq (needed : Nat) :
    r.renderAt needed = if r.binding < needed then "(" ++ r.renderAt 0 ++ ")" else r.renderAt 0 := by
  cases r <;> rfl

theorem openings_renderAt (needed : Nat) :
    openings (r.renderAt needed) = openings (r.renderAt 0) + if r.binding < needed then 1 else 0 := by
  rw [renderAt_eq]
  split
  · have hopening : openings "(" = 1 := by decide
    have hclosing : openings ")" = 0 := by decide
    rw [openings_append, openings_append, hopening, hclosing, Nat.add_comm 1]
  · rfl

theorem openings_renderAt_mono {m n : Nat} (h : m ≤ n) : openings (r.renderAt m) ≤ openings (r.renderAt n) := by
  rw [openings_renderAt r m, openings_renderAt r n]
  split <;> split <;> omega

/-- One pair of parentheses is enough anywhere. -/
theorem openings_renderAt_le (m n : Nat) : openings (r.renderAt m) ≤ openings (r.renderAt n) + 1 := by
  rw [openings_renderAt r m, openings_renderAt r n]
  split <;> split <;> omega

end

theorem openings_both (l r : Requirement) :
    openings ((both l r).renderAt 2) = openings (l.renderAt 2) + openings (r.renderAt 3) := by
  have hword : openings " AND " = 0 := by decide
  have hbare : (both l r).renderAt 2 = l.renderAt 2 ++ " AND " ++ r.renderAt 3 := rfl
  rw [hbare, openings_append, openings_append, hword, Nat.add_zero]

theorem openings_either (l r : Requirement) :
    openings ((either l r).renderAt 1) = openings (l.renderAt 1) + openings (r.renderAt 2) := by
  have hword : openings " OR " = 0 := by decide
  have hbare : (either l r).renderAt 1 = l.renderAt 1 ++ " OR " ++ r.renderAt 2 := rfl
  rw [hbare, openings_append, openings_append, hword, Nat.add_zero]

theorem openings_of_isValid {id : String} (h : CourseId.isValid id = true) : openings id = 0 := by
  simp only [CourseId.isValid, Bool.and_eq_true, List.all_eq_true] at h
  exact List.count_eq_zero.mpr fun hmem => absurd (h.1.2 _ hmem) (by decide)

/-! ### Any text -/

/-- A phrase opens at least as many parentheses as the canonical text does in its place. -/
theorem openings_le_of_derives {p : Phrase} {w : List Symbol} {r : Requirement} (h : Derives p w r)
    (hids : ∀ id ∈ r.courseIds, CourseId.isValid id = true) : openings (r.renderAt p.binding) ≤ w.count .opening := by
  induction h with
  | nothing => decide
  | course id =>
    have hnone := openings_of_isValid (hids id (SortedSet.mem_singleton.mpr rfl))
    exact Nat.le_trans (Nat.le_of_eq hnone) (Nat.zero_le _)
  | @enclosed w r _ ih =>
    have hone := r.openings_renderAt_le Phrase.operand.binding Phrase.either.binding
    have hin := ih hids
    simp only [List.count_cons, List.count_append, beq_self_eq_true, if_true]
    omega
  | ofOperand _ ih | ofBoth _ ih => exact Nat.le_trans (openings_renderAt_mono _ (by decide)) (ih hids)
  | @and v w l r _ _ ihl ihr =>
    obtain ⟨hleft, hright⟩ := SortedSet.forall_mem_union.mp hids
    have hl := ihl hleft
    have hr := ihr hright
    calc openings ((both l r).renderAt 2)
      _ = openings (l.renderAt 2) + openings (r.renderAt 3) := openings_both l r
      _ ≤ v.count .opening + w.count .opening := Nat.add_le_add hl hr
      _ = (v ++ .and :: w).count .opening := by simp
  | @or v w l r _ _ ihl ihr =>
    obtain ⟨hleft, hright⟩ := SortedSet.forall_mem_union.mp hids
    have hl := ihl hleft
    have hr := ihr hright
    calc openings ((either l r).renderAt 1)
      _ = openings (l.renderAt 1) + openings (r.renderAt 2) := openings_either l r
      _ ≤ v.count .opening + w.count .opening := Nat.add_le_add hl hr
      _ = (v ++ .or :: w).count .opening := by simp

/-- Each token of an opening parenthesis is a character of the text. -/
theorem count_opening_le_of_lexes {p : Nat} {cs : List Char} {ts : List Token} {e : Ending} (h : Lexes p cs ts e) :
    (ts.map Token.symbol).count .opening ≤ cs.count '(' := by
  induction h with
  | finish | stray => exact Nat.zero_le _
  | layout _ _ ih => exact Nat.le_trans ih (List.count_le_count_cons ..)
  | mark hm _ ih =>
    rcases ofMark?_eq_some hm with ⟨rfl, rfl⟩ | ⟨rfl, rfl⟩
    · simpa using ih
    · simpa using ih
  | @word p w cs ts e _ _ _ _ ih =>
    have hword := (ofWord_ne_mark (String.ofList w)).1
    rw [List.map_cons, List.count_cons_of_ne hword, List.count_append]
    omega

theorem openings_render_le {s : String} {t : Requirement} (h : parse s = .ok t) : openings t.render ≤ openings s := by
  have hw := parse_eq_ok_iff.mp h
  have hids : ∀ id ∈ t.courseIds, CourseId.isValid id = true := fun _ hid => hw.isValid_of_mem hid
  rcases hw with ⟨-, rfl⟩ | ⟨ts, hs, -⟩
  · exact Nat.le_trans (by decide) (Nat.zero_le _)
  · obtain ⟨position, hl⟩ := hs.lexes
    exact Nat.le_trans (openings_le_of_derives hs.derives hids) (count_opening_le_of_lexes hl)

/-- Of all texts that are read as a requirement, the canonical one opens the fewest parentheses. -/
theorem render_has_fewest_parentheses {t : Requirement} (hd : t.depth ≤ 128)
    (hids : ∀ id ∈ t.courseIds, CourseId.isValid id = true) :
    IsLeast {n | ∃ s, parse s = .ok t ∧ s.toList.count '(' = n} (t.render.toList.count '(') := by
  refine ⟨⟨t.render, parse_render_of_valid hd hids, rfl⟩, ?_⟩
  rintro n ⟨s, hs, rfl⟩
  exact openings_render_le hs

/-- An OR under an AND and an AND to the right of one. -/
theorem render_has_fewest_parentheses_two :
    IsLeast {n | ∃ s, parse s = .ok (.both (.either (.course "A") (.course "B")) (.both (.course "C") (.course "D"))) ∧
      s.toList.count '(' = n} 2 :=
  render_has_fewest_parentheses (t := .both (.either (.course "A") (.course "B")) (.both (.course "C") (.course "D")))
    (by decide) (by decide)

end Curriculum.Requirement
