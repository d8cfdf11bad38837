import Curriculum.Eligibility
import Curriculum.Proofs.Alternatives
import Curriculum.Proofs.Canonical
import Curriculum.Proofs.Capitals

/-! Requirement texts that can all be read. A text that states nothing asks for nothing, so it makes no
    difference that such a text is not even read: the eligibility of every course is what its requirement
    says. Whether a requirement is met depends on the courses that it refers to and on nothing else, and
    more completed courses never make it unmet. -/

namespace Curriculum

/-! ### Texts that state nothing -/

theorem isWordChar_of_toUpper {c : Char} (h : isWordChar c.toUpper = true) : isWordChar c = true := by
  unfold Char.toUpper at h
  split at h
  · next hl =>
    have hlower : c.isLower = true := Bool.and_eq_true_iff.mpr ⟨decide_eq_true hl.1, decide_eq_true hl.2⟩
    have halpha : c.isAlpha = true := Bool.or_eq_true_iff.mpr (Or.inr hlower)
    have halphanum : c.isAlphanum = true := Bool.or_eq_true_iff.mpr (Or.inl halpha)
    rw [isWordChar, halphanum, Bool.true_or, Bool.true_or]
  · exact h

theorem word_of_capitals {cs : List Char} (h : capitals (String.ofList cs) = "NONE") :
    cs ≠ [] ∧ cs.all isWordChar = true ∧ Symbol.ofWord (String.ofList cs) = .nothing := by
  have hmap : cs.map Char.toUpper = "NONE".toList := by
    rw [← h, capitals, String.toList_ofList, String.toList_ofList]
  refine ⟨?_, ?_, ?_⟩
  · rintro rfl
    cases hmap
  · rw [List.all_eq_true]
    intro c hc
    have hupper : c.toUpper ∈ "NONE".toList := hmap ▸ List.mem_map_of_mem hc
    have hword : "NONE".toList.all isWordChar = true := by decide
    exact isWordChar_of_toUpper (List.all_eq_true.mp hword _ hupper)
  · simp [Symbol.ofWord, Keyword.ofWord?, h]

namespace Requirement

theorem Spells.ofLayout : ∀ {cs : List Char}, (∀ c ∈ cs, Text.isLayout c = true) → Spells [] cs
  | [], _ => .nil
  | c :: _, h => .layout (h c (List.mem_cons_self ..)) (ofLayout fun d hd => h d (List.mem_cons_of_mem _ hd))

/-- Layout around a spelling does not matter. -/
theorem Spells.padded {w : List Symbol} {front cs back : List Char} (h : Spells w cs)
    (hfront : ∀ c ∈ front, Text.isLayout c = true) (hback : ∀ c ∈ back, Text.isLayout c = true) :
    Spells w (front ++ (cs ++ back)) := by
  have hleft : Spells w (cs ++ back) := by
    have hnext : ∀ c, back.head? = some c → isWordChar c = false :=
      fun c hc => isWordChar_of_isLayout (hback c (List.mem_of_head? hc))
    simpa using h.append (.ofLayout hback) hnext
  induction front with
  | nil => exact hleft
  | cons c front ih => exact .layout (hfront c (List.mem_cons_self ..)) (ih fun d hd => hfront d (List.mem_cons_of_mem _ hd))

theorem writes_nothing_of_spells {s : String} (h : Spells [.nothing] s.toList) : Writes s .nothing := by
  obtain ⟨ts, hts, hl⟩ := h.lexes
  have hd : Derives .either (ts.map Token.symbol) .nothing := hts ▸ .ofBoth (.ofOperand .nothing)
  refine Or.inr ⟨ts, ⟨⟨_, hl⟩, hd⟩, withinLimits_iff_fits.mpr ⟨Nat.zero_le _, ?_⟩⟩
  rw [hts, NestedWithin.cons_iff (by decide) (by decide)]
  exact .nil (Nat.zero_le _)

/-- A text that states nothing can be read, and it asks for nothing. -/
theorem parse_of_not_isStated {s : String} (h : isStated s = false) : parse s = .ok .nothing := by
  obtain ⟨front, back, hs, hfront, hback⟩ := Text.exists_trimEnds Text.isLayout s.toList
  rw [parse_eq_ok_iff]
  simp only [isStated, Bool.and_eq_false_iff, Bool.not_eq_false', List.isEmpty_iff, bne_eq_false_iff_eq] at h
  rcases h with hempty | hnone
  · -- Only layout is left.
    rw [hempty, List.nil_append] at hs
    refine Or.inl ⟨isBlankText_iff.mp (List.all_eq_true.mpr fun c hc => ?_), rfl⟩
    rw [hs] at hc
    exact (List.mem_append.mp hc).elim (hfront c) (hback c)
  · obtain ⟨hne, hword, hsymbol⟩ := word_of_capitals (capitals_of_upper hnone)
    have hspells : Spells [.nothing] (Text.trimEnds Text.isLayout s.toList) := hsymbol ▸ .word hne hword
    exact writes_nothing_of_spells (hs ▸ hspells.padded hfront hback)

/-! ### What being met depends on -/

theorem holds_congr {r : Requirement} {done done' : String → Bool} (h : ∀ id ∈ r.courseIds, done id = done' id) :
    r.holds done = r.holds done' := by
  induction r with
  | nothing => rfl
  | course id => exact h id (SortedSet.mem_singleton.mpr rfl)
  | both l r ihl ihr | either l r ihl ihr =>
    obtain ⟨hleft, hright⟩ := SortedSet.forall_mem_union.mp h
    have hl := ihl hleft
    have hr := ihr hright
    simp only [holds, hl, hr]

theorem holds_mono {r : Requirement} {done done' : String → Bool} (h : ∀ id, done id = true → done' id = true)
    (hr : r.holds done = true) : r.holds done' = true := by
  obtain ⟨c, hc, hd⟩ := r.holds_iff_clause.mp hr
  exact r.holds_iff_clause.mpr ⟨c, hc, fun id hid => h id (hd id hid)⟩

end Requirement

/-! ### Readable texts -/

namespace Expressions

/-- Every text of the map can be read. -/
def Readable (m : Expressions) : Prop :=
  ∀ id text, (id, some text) ∈ m.entries → ∃ r, Requirement.parse text = .ok r

/-- What a course requires: nothing where its text is missing or cannot be read. -/
def requirementOf (m : Expressions) (id : String) : Requirement :=
  (Requirement.parse (m.textOf id)).toOption.getD .nothing

/-- The eligibility of all courses can be told, and for the course it is the given one. -/
def Tells (m : Expressions) (done : String → Bool) (id : String) (eligible : Bool) : Prop :=
  ∃ told, (eligibility Reading.plain done m).result = .ok told ∧ (id, eligible) ∈ told

variable {m : Expressions} {done : String → Bool} {id : String}

theorem textOf_of_mem {text : Option String} (h : (id, text) ∈ m.entries) : m.textOf id = text.getD "" := by
  rw [textOf, OrderedMap.get?_eq_some_iff.mpr h]
  rfl

theorem textOf_of_not_mem (h : id ∉ m.keys) : m.textOf id = "" := by
  rw [textOf, OrderedMap.get?_eq_none_iff.mpr h]
  rfl

theorem requirementOf_of_not_mem (h : id ∉ m.keys) : m.requirementOf id = .nothing := by
  rw [requirementOf, textOf_of_not_mem h, Requirement.parse_of_not_isStated (by rfl)]
  rfl

theorem requirementOf_of_parse {r : Requirement} (h : Requirement.parse (m.textOf id) = .ok r) : m.requirementOf id = r := by
  rw [requirementOf, h]
  rfl

theorem readable_iff : m.Readable ↔ ∀ entry ∈ m.entries, (Requirement.parse? entry.2).toOption.isSome := by
  constructor
  · rintro h ⟨id, text⟩ hmem
    cases text with
    | none => rfl
    | some text =>
      obtain ⟨r, hr⟩ := h id text hmem
      rw [Requirement.parse?, hr]
      rfl
  · intro h id text hmem
    have hread := h _ hmem
    rw [Requirement.parse?] at hread
    cases hr : Requirement.parse text with
    | ok r => exact ⟨r, rfl⟩
    | error e =>
      rw [hr] at hread
      cases hread

instance : Decidable m.Readable := decidable_of_iff _ readable_iff.symm

namespace Readable
variable (h : m.Readable)
include h

theorem parse_textOf (id : String) : Requirement.parse (m.textOf id) = .ok (m.requirementOf id) := by
  have hread : ∃ r, Requirement.parse (m.textOf id) = .ok r := by
    by_cases hid : id ∈ m.keys
    · obtain ⟨⟨key, text⟩, hmem, rfl⟩ := List.mem_map.mp hid
      rw [textOf_of_mem hmem]
      cases text with
      | none => exact ⟨_, Requirement.parse_of_not_isStated (by rfl)⟩
      | some text => exact h key text hmem
    · rw [textOf_of_not_mem hid]
      exact ⟨_, Requirement.parse_of_not_isStated (by rfl)⟩
  obtain ⟨r, hr⟩ := hread
  rw [hr, requirementOf_of_parse hr]

theorem read_textOf {σ : Type} (id : String) :
    (Reading.plain (m.textOf id) : Reading σ Requirement) = pure (m.requirementOf id) := by
  rw [Reading.plain, h.parse_textOf]
  rfl

theorem isEligible_of_mem {σ : Type} {text : Option String} (hid : (id, text) ∈ m.entries) :
    (isEligible Reading.plain done text : Reading σ Bool) = pure ((m.requirementOf id).holds done) := by
  have hread := h.read_textOf (σ := σ) id
  have hparse := h.parse_textOf id
  rw [textOf_of_mem hid] at hread hparse
  cases text with
  | none =>
    rw [Requirement.parse_of_not_isStated (by rfl)] at hparse
    rw [← Except.ok.inj hparse]
    rfl
  | some text =>
    simp only [isEligible]
    split
    · rw [Option.getD_some] at hread
      rw [hread, pure_bind]
    · next hs =>
      rw [Option.getD_some, Requirement.parse_of_not_isStated (Bool.eq_false_iff.mpr hs)] at hparse
      rw [← Except.ok.inj hparse]
      rfl

theorem eligibilityOf_of_subset {σ : Type} {entries : List (String × Option String)} (hsub : entries ⊆ m.entries) :
    (eligibilityOf Reading.plain done entries : Reading σ _) =
      pure (entries.map fun entry => (entry.1, (m.requirementOf entry.1).holds done)) := by
  induction entries with
  | nil => rfl
  | cons entry rest ih =>
    have hentry : (isEligible Reading.plain done entry.2 : Reading σ Bool) = _ :=
      h.isEligible_of_mem (hsub (List.mem_cons_self ..))
    rw [eligibilityOf, hentry, ih fun _ he => hsub (List.mem_cons_of_mem _ he)]
    simp

theorem eligibility_result :
    (eligibility Reading.plain done m).result = .ok (m.keys.map fun id => (id, (m.requirementOf id).holds done)) := by
  rw [eligibility, h.eligibilityOf_of_subset (List.Subset.refl _), OrderedMap.keys, List.map_map]
  rfl

/-- What is told of a course is whether its requirement is met. -/
theorem tells_iff {eligible : Bool} :
    m.Tells done id eligible ↔ id ∈ m.keys ∧ (m.requirementOf id).holds done = eligible := by
  unfold Tells
  rw [h.eligibility_result]
  constructor
  · rintro ⟨told, htold, hmem⟩
    rw [← Except.ok.inj htold] at hmem
    obtain ⟨key, hkey, heq⟩ := List.mem_map.mp hmem
    cases heq
    exact ⟨hkey, rfl⟩
  · rintro ⟨hid, rfl⟩
    exact ⟨_, rfl, List.mem_map.mpr ⟨id, hid, rfl⟩⟩

end Readable
end Expressions
end Curriculum
