import Mathlib.Data.List.Induction
import Curriculum.CourseId.Entry
import Curriculum.Proofs.Interchange

/-! What becomes of course ids that are typed as one text. Sorting puts every piece into the one list where it
    belongs, and ids that are joined by commas come apart again as they were. -/

namespace Curriculum.CourseId

/-! ### Sorting -/

/-- The list holds those of the pieces that belong to it. -/
def Gathers (belongs : String → Prop) (pieces list : List String) : Prop :=
  ∀ p, p ∈ list ↔ p ∈ pieces ∧ belongs p

namespace Gathers
variable {belongs : String → Prop} {pieces list : List String} {p : String}

theorem add (h : Gathers belongs pieces list) (hp : belongs p) : Gathers belongs (pieces ++ [p]) (list ++ [p]) := by
  intro q
  rw [List.mem_append, List.mem_append, List.mem_singleton, h q]
  constructor
  · rintro (hq | rfl)
    · exact ⟨.inl hq.1, hq.2⟩
    · exact ⟨.inr rfl, hp⟩
  · rintro ⟨hq | hq, hbelongs⟩
    · exact .inl ⟨hq, hbelongs⟩
    · exact .inr hq

theorem keep (h : Gathers belongs pieces list) (hp : p ∈ pieces ∨ ¬belongs p) : Gathers belongs (pieces ++ [p]) list := by
  intro q
  rw [h q, List.mem_append, List.mem_singleton]
  constructor
  · exact fun hq => ⟨.inl hq.1, hq.2⟩
  · rintro ⟨hq | rfl, hbelongs⟩
    · exact ⟨hq, hbelongs⟩
    · exact ⟨hp.resolve_right fun hn => hn hbelongs, hbelongs⟩

end Gathers

namespace Entry

/-- The lists of the entry hold the pieces: ids of the catalog, pieces that are no ids, and other ids. -/
structure Sorts (inCatalog : String → Bool) (pieces : List String) (e : Entry) : Prop where
  valid : Gathers (fun p => normalize? p = some p ∧ inCatalog p = true) pieces e.valid
  invalid : Gathers (fun p => normalize? p = none) pieces e.invalid
  unlisted : Gathers (fun p => normalize? p = some p ∧ inCatalog p = false) pieces e.unlisted

namespace Sorts
variable {inCatalog : String → Bool} {pieces : List String} {e : Entry} {p : String}

theorem mentions_iff (h : e.Sorts inCatalog pieces) (hp : normalize? p = none ∨ normalize? p = some p) :
    e.mentions p = true ↔ p ∈ pieces := by
  simp only [mentions, Bool.or_eq_true, List.contains_iff_mem, h.valid p, h.invalid p, h.unlisted p]
  rcases hp with hp | hp <;> cases inCatalog p <;> simp [hp]

/-- What becomes of a piece that is trimmed already: nothing if it came before, and else it goes to the end of the list
    where it belongs. -/
theorem place_cases (h : e.Sorts inCatalog pieces) (hp : normalize? p = none ∨ normalize? p = some p) :
    (p ∈ pieces ∧ Entry.place inCatalog e p = e) ∨
      (p ∉ pieces ∧
        ((normalize? p = none ∧ Entry.place inCatalog e p = { e with invalid := e.invalid ++ [p] }) ∨
          (normalize? p = some p ∧ inCatalog p = true ∧ Entry.place inCatalog e p = { e with valid := e.valid ++ [p] }) ∨
          (normalize? p = some p ∧ inCatalog p = false ∧
            Entry.place inCatalog e p = { e with unlisted := e.unlisted ++ [p] }))) := by
  have hmentions := h.mentions_iff hp
  unfold Entry.place
  by_cases hold : p ∈ pieces
  · refine .inl ⟨hold, ?_⟩
    rcases hp with hp | hp <;> simp only [hp, hmentions.mpr hold, if_true]
  · have hnew : e.mentions p = false := Bool.eq_false_iff.mpr fun hm => hold (hmentions.mp hm)
    refine .inr ⟨hold, ?_⟩
    rcases hp with hp | hp <;> cases hc : inCatalog p <;> simp [hp, hnew, hc]

/-- A piece that is trimmed already is placed where it belongs. -/
theorem place (h : e.Sorts inCatalog pieces) (hp : normalize? p = none ∨ normalize? p = some p) :
    (place inCatalog e p).Sorts inCatalog (pieces ++ [p]) := by
  rcases h.place_cases hp with ⟨hold, hplace⟩ | ⟨-, ⟨hn, hplace⟩ | ⟨hn, hc, hplace⟩ | ⟨hn, hc, hplace⟩⟩ <;> rw [hplace]
  · exact ⟨h.valid.keep (.inl hold), h.invalid.keep (.inl hold), h.unlisted.keep (.inl hold)⟩
  · exact ⟨h.valid.keep (by simp [hn]), h.invalid.add hn, h.unlisted.keep (by simp [hn])⟩
  · exact ⟨h.valid.add ⟨hn, hc⟩, h.invalid.keep (by simp [hn]), h.unlisted.keep (by simp [hc])⟩
  · exact ⟨h.valid.keep (by simp [hc]), h.invalid.keep (by simp [hn]), h.unlisted.add ⟨hn, hc⟩⟩

end Sorts

theorem sorts_empty (inCatalog : String → Bool) : empty.Sorts inCatalog [] :=
  ⟨fun p => by simp [empty], fun p => by simp [empty], fun p => by simp [empty]⟩

/-- Pieces that are trimmed already are all sorted. -/
theorem sorts_foldl (inCatalog : String → Bool) {pieces : List String}
    (h : ∀ p ∈ pieces, normalize? p = none ∨ normalize? p = some p) :
    (pieces.foldl (place inCatalog) empty).Sorts inCatalog pieces := by
  induction pieces using List.reverseRecOn with
  | nil => exact sorts_empty inCatalog
  | append_singleton pieces p ih =>
    obtain ⟨hpieces, hp⟩ := List.forall_mem_append.mp h
    rw [List.foldl_append, List.foldl_cons, List.foldl_nil]
    exact (ih hpieces).place (hp p (List.mem_singleton_self p))

end Entry

/-! ### Joining -/

theorem isSeparator_of_isWordChar {c : Char} (h : isWordChar c = true) : isSeparator c = false := by
  unfold isSeparator
  simp only [Bool.or_eq_false_iff, decide_eq_false_iff_not]
  refine ⟨⟨?_, ?_⟩, ?_⟩ <;> rintro rfl <;> cases h

theorem splitPieces_of_no_separator {cs : List Char} (h : ∀ c ∈ cs, isSeparator c = false) : splitPieces cs = [cs] := by
  induction cs with
  | nil => rfl
  | cons c cs ih =>
    obtain ⟨hc, hcs⟩ := List.forall_mem_cons.mp h
    rw [splitPieces, ih hcs, hc]
    rfl

theorem splitPieces_append {cs rest : List Char} {c : Char} (h : ∀ c ∈ cs, isSeparator c = false)
    (hc : isSeparator c = true) : splitPieces (cs ++ c :: rest) = cs :: splitPieces rest := by
  induction cs with
  | nil => rw [List.nil_append, splitPieces, if_pos hc]
  | cons d cs ih =>
    obtain ⟨hd, hcs⟩ := List.forall_mem_cons.mp h
    rw [List.cons_append, splitPieces, ih hcs, hd]
    rfl

theorem splitPieces_intercalate {ps : List (List Char)} (hne : ps ≠ []) (h : ∀ p ∈ ps, ∀ c ∈ p, isSeparator c = false) :
    splitPieces ([','].intercalate ps) = ps := by
  induction ps with
  | nil => exact absurd rfl hne
  | cons p ps ih =>
    obtain ⟨hp, hps⟩ := List.forall_mem_cons.mp h
    cases ps with
    | nil => rw [List.intercalate_singleton, splitPieces_of_no_separator hp]
    | cons q ps =>
      rw [List.intercalate_cons_cons, List.append_assoc, List.singleton_append, splitPieces_append hp (by decide),
        ih nofun hps]

/-- Ids that are joined by commas are the pieces of the text. -/
theorem pieces_intercalate {ids : List String} (h : ∀ id ∈ ids, isValid id = true) : pieces (",".intercalate ids) = ids := by
  cases ids with
  | nil => rfl
  | cons first rest =>
    have hsplit : splitPieces (",".intercalate (first :: rest)).toList = (first :: rest).map String.toList := by
      rw [String.toList_intercalate]
      refine splitPieces_intercalate nofun fun p hp c hc => ?_
      obtain ⟨id, hid, rfl⟩ := List.mem_map.mp hp
      exact isSeparator_of_isWordChar (isWordChar_of_isValid (h id hid) hc)
    have htrim : (first :: rest).map ((fun piece => Text.trim (String.ofList piece)) ∘ String.toList) = first :: rest := by
      refine (List.map_congr_left (g := fun id => id) fun id hid => ?_).trans (List.map_id' _)
      rw [Function.comp_apply, String.ofList_toList, trim_of_isValid (h id hid)]
    have hkept : ∀ id ∈ first :: rest, (!id.isEmpty) = true := fun id hid => by
      have := h id hid
      simp only [isValid, Bool.and_eq_true] at this
      exact this.1.1
    rw [pieces, hsplit, List.map_map, htrim, List.filter_eq_self.mpr hkept]

/-- An entry of joined ids holds those of the catalog, and everything in it is an id. -/
theorem read_intercalate {ids : List String} (h : ∀ id ∈ ids, isValid id = true) (inCatalog : String → Bool) :
    (Entry.read inCatalog (",".intercalate ids)).invalid = [] ∧
      ∀ id, id ∈ (Entry.read inCatalog (",".intercalate ids)).valid ↔ id ∈ ids ∧ inCatalog id = true := by
  have hnormal : ∀ id ∈ ids, normalize? id = some id := fun id hid => normalize?_eq_self_iff.mpr (h id hid)
  have hsorts := Entry.sorts_foldl inCatalog fun id hid => .inr (hnormal id hid)
  rw [Entry.read, pieces_intercalate h]
  refine ⟨List.eq_nil_iff_forall_not_mem.mpr fun p hp => ?_, fun id => ?_⟩
  · obtain ⟨hmem, hnone⟩ := (hsorts.invalid p).mp hp
    rw [hnormal p hmem] at hnone
    cases hnone
  · rw [hsorts.valid id]
    exact and_congr_right fun hid => and_iff_right (hnormal id hid)

end Curriculum.CourseId
