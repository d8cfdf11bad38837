import Curriculum.Proofs.Lexing
import Curriculum.Proofs.Limits
import Curriculum.Proofs.Reader

/-! Which texts write a requirement: the blank ones, and the sentences of the grammar that keep the limits
    on the depth of operators and on open parentheses. Reading accepts exactly these, and a sentence that
    breaks a limit is refused at one of its parentheses or operators. -/

namespace Curriculum.Requirement

/-- The text holds the tokens and no stray character, and the tokens write the requirement. -/
structure Sentence (s : String) (ts : List Token) (t : Requirement) : Prop where
  lexes : ∃ position, Lexes 0 s.toList ts (.finish position)
  derives : Derives .either (ts.map Token.symbol) t

/-- No operator of the requirement is nested too deep, and nowhere in the tokens are too many parentheses
    open. -/
structure WithinLimits (ts : List Token) (t : Requirement) : Prop where
  depth : t.depth ≤ 128
  parentheses : ∀ front, front <+: ts.map Token.symbol → front.count .opening ≤ front.count .closing + 128

/-- The text writes the requirement. -/
def Writes (s : String) (t : Requirement) : Prop :=
  ((∀ c ∈ s.toList, c ∈ [' ', '\t', '\n', '\r', '\x0c', '\x0b']) ∧ t = .nothing) ∨
    ∃ ts, Sentence s ts t ∧ WithinLimits ts t

theorem withinLimits_iff_fits {ts : List Token} {t : Requirement} : WithinLimits ts t ↔ Fits 0 ts t := by
  unfold Fits NestedWithin
  simp only [Nat.zero_add]
  exact ⟨fun h => ⟨h.depth, h.parentheses⟩, fun h => ⟨h.1, h.2⟩⟩

theorem isBlankText_iff {s : String} :
    isBlankText s = true ↔ ∀ c ∈ s.toList, c ∈ [' ', '\t', '\n', '\r', '\x0c', '\x0b'] := by
  simp [isBlankText, Text.isLayout, or_assoc]

/-! ### Sentences -/

namespace Sentence
variable {s : String} {ts : List Token} {t : Requirement}

theorem ne_blank (h : Sentence s ts t) : isBlankText s = false := by
  cases hb : isBlankText s with
  | false => rfl
  | true =>
    obtain ⟨position, hl⟩ := h.lexes
    have hts := hl.eq_nil_of_layout (List.all_eq_true.mp hb)
    have hd := h.derives
    rw [hts] at hd
    exact absurd rfl hd.ne_nil

theorem bounded (h : Sentence s ts t) : Bounded (WithinLimits ts t) ts (parse s) t := by
  obtain ⟨position, hl⟩ := h.lexes
  have hparse : parse s = Reader.start.run (.finish position) ts := by
    unfold parse
    rw [h.ne_blank]
    show ofScan (Cursor.ofText s).scan = _
    rw [show (Cursor.ofText s).scan = ⟨ts, .finish position⟩ from hl.scan_eq]
    rfl
  rw [hparse]
  exact (run_bounded h.derives position).congr withinLimits_iff_fits.symm (List.Subset.refl ts)

theorem isValid_of_mem (h : Sentence s ts t) {id : String} (hid : id ∈ t.courseIds) : CourseId.isValid id = true := by
  obtain ⟨position, hl⟩ := h.lexes
  obtain ⟨tok, htok, hsym⟩ := List.mem_map.mp (h.derives.mem_courseIds.mp hid)
  exact hl.isValid_of_mem htok hsym

end Sentence

theorem sentence_of_parse {s : String} {t : Requirement} (hb : isBlankText s = false) (h : parse s = .ok t) :
    Sentence s (Scan.ofText s).tokens t := by
  unfold parse at h
  rw [hb] at h
  obtain ⟨hd, position, he⟩ := derives_of_run h
  exact ⟨⟨position, he ▸ Lexes.of_scan s⟩, hd⟩

/-! ### Reading -/

theorem parse_eq_ok_iff {s : String} {t : Requirement} : parse s = .ok t ↔ Writes s t := by
  constructor
  · intro h
    cases hb : isBlankText s with
    | true =>
      unfold parse at h
      rw [hb] at h
      exact Or.inl ⟨isBlankText_iff.mp hb, (Except.ok.inj h).symm⟩
    | false =>
      have hs := sentence_of_parse hb h
      refine Or.inr ⟨_, hs, Classical.byContradiction fun hn => ?_⟩
      obtain ⟨position, he, -⟩ := hs.bounded.limit hn
      rw [h] at he
      cases he
  · rintro (⟨hb, rfl⟩ | ⟨ts, hs, hfits⟩)
    · unfold parse
      rw [isBlankText_iff.mpr hb]
    · exact hs.bounded.value hfits

namespace Writes
variable {s : String} {t : Requirement}

theorem depth_le (h : Writes s t) : t.depth ≤ maxDepth := by
  rcases h with ⟨-, rfl⟩ | ⟨ts, -, hfits⟩
  · exact Nat.zero_le _
  · exact hfits.depth

theorem isValid_of_mem (h : Writes s t) {id : String} (hid : id ∈ t.courseIds) : CourseId.isValid id = true := by
  rcases h with ⟨-, rfl⟩ | ⟨ts, hs, -⟩
  · exact absurd hid SortedSet.not_mem_empty
  · exact hs.isValid_of_mem hid

end Writes

/-- Reading accepts exactly the texts that write a requirement and refuses all others. Where a sentence is
    refused, some operator or parenthesis of it is nested too deep, and the refusal says so and names the
    place of a parenthesis or an operator. -/
theorem parse_accepts_exactly_sentences (s : String) :
    (∀ t, parse s = .ok t ↔ Writes s t) ∧
    ((∀ t, ¬Writes s t) → ∃ e, parse s = .error e) ∧
    ∀ ts t, Sentence s ts t → ¬WithinLimits ts t →
      ∃ e, parse s = .error e ∧ e.message = "Expression nested too deeply" ∧
        ∃ tok ∈ ts, tok.start = e.position ∧ (tok.symbol = .opening ∨ tok.symbol = .and ∨ tok.symbol = .or) := by
  refine ⟨fun t => parse_eq_ok_iff, fun hn => ?_, fun ts t hs hn => ?_⟩
  · cases h : parse s with
    | error e => exact ⟨e, rfl⟩
    | ok t => exact absurd (parse_eq_ok_iff.mp h) (hn t)
  · obtain ⟨position, he, hp⟩ := hs.bounded.limit hn
    exact ⟨.tooDeep position, he, rfl, hp⟩

example : parse "a or B AND (none)" = .ok (.either (.course "a") (.both (.course "B") .nothing)) := by cbv

end Curriculum.Requirement
