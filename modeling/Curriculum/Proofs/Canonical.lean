import Curriculum.Proofs.Sentences
import Curriculum.Requirement.Printer

/-! The canonical text of a requirement is a sentence that writes it. A phrase is spelled the same way
    wherever it stands, so the spellings of operands are put together to that of an operator. Parentheses
    stand around operators only, so no more of them are open than operators are nested. -/

namespace Curriculum.Requirement

/-! ### Spellings -/

theorem ofWord_ne_mark (word : String) : Symbol.ofWord word ≠ .opening ∧ Symbol.ofWord word ≠ .closing := by
  unfold Symbol.ofWord
  split <;> simp

/-- The characters are read as the symbols, at any place and before any text that does not go on with their
    last word. -/
def Spells (w : List Symbol) (cs : List Char) : Prop :=
  ∀ (p : Nat) (rest : List Char) (ts : List Token) (e : Ending), (∀ c, rest.head? = some c → isWordChar c = false) →
    Lexes (p + cs.length) rest ts e → ∃ us, us.map Token.symbol = w ∧ Lexes p (cs ++ rest) (us ++ ts) e

namespace Spells
variable {v w : List Symbol} {cs ds : List Char} {c : Char}

theorem nil : Spells [] [] := fun _ _ _ _ _ h => ⟨[], rfl, h⟩

theorem layout (hc : Text.isLayout c = true) (h : Spells w cs) : Spells w (c :: cs) := by
  intro p rest ts e hrest hl
  rw [List.length_cons, ← Nat.add_assoc, Nat.add_right_comm] at hl
  obtain ⟨us, hus, hl⟩ := h (p + 1) rest ts e hrest hl
  exact ⟨us, hus, .layout hc hl⟩

theorem mark {s : Symbol} (hc : Symbol.ofMark? c = some s) (h : Spells w cs) : Spells (s :: w) (c :: cs) := by
  intro p rest ts e hrest hl
  rw [List.length_cons, ← Nat.add_assoc, Nat.add_right_comm] at hl
  obtain ⟨us, hus, hl⟩ := h (p + 1) rest ts e hrest hl
  exact ⟨⟨s, String.ofList [c], p⟩ :: us, by rw [List.map_cons, hus], .mark hc hl⟩

theorem word (hne : cs ≠ []) (hcs : cs.all isWordChar = true) : Spells [Symbol.ofWord (String.ofList cs)] cs :=
  fun p _ _ _ hrest hl =>
    ⟨[⟨Symbol.ofWord (String.ofList cs), String.ofList cs, p⟩], rfl, .word hne (List.all_eq_true.mp hcs) hrest hl⟩

/-- A spelling that starts with no word character goes on from any other. -/
theorem append (h : Spells v cs) (h' : Spells w ds) (hds : ∀ c, ds.head? = some c → isWordChar c = false) :
    Spells (v ++ w) (cs ++ ds) := by
  intro p rest ts e hrest hl
  rw [List.length_append, ← Nat.add_assoc] at hl
  obtain ⟨us, hus, hl⟩ := h' (p + cs.length) rest ts e hrest hl
  have hnext : ∀ c, (ds ++ rest).head? = some c → isWordChar c = false := by
    cases ds with
    | nil => exact hrest
    | cons d ds => exact hds
  obtain ⟨vs, hvs, hl⟩ := h p (ds ++ rest) (us ++ ts) e hnext hl
  refine ⟨vs ++ us, by rw [List.map_append, hvs, hus], ?_⟩
  rw [List.append_assoc, List.append_assoc]
  exact hl

theorem joined {op : List Char} (h : Spells v cs) (h' : Spells w ds) (hne : op ≠ [])
    (hop : op.all isWordChar = true) :
    Spells (v ++ Symbol.ofWord (String.ofList op) :: w) (cs ++ ' ' :: (op ++ ' ' :: ds)) := by
  have hright : Spells w (' ' :: ds) := layout rfl h'
  have hword := layout (c := ' ') rfl ((word hne hop).append hright (by simp [isWordChar]))
  exact h.append hword (by simp [isWordChar])

theorem enclosed (h : Spells w cs) : Spells (.opening :: (w ++ [.closing])) ('(' :: (cs ++ [')'])) :=
  mark rfl (h.append (mark (c := ')') rfl nil) (by simp [isWordChar]))

/-- A text that spells a word holds its symbols and nothing else. -/
theorem lexes (h : Spells w cs) : ∃ us, us.map Token.symbol = w ∧ Lexes 0 cs us (.finish cs.length) := by
  obtain ⟨us, hus, hl⟩ := h 0 [] [] (.finish cs.length) (by simp) (by rw [Nat.zero_add]; exact .finish _)
  simp only [List.append_nil] at hl
  exact ⟨us, hus, hl⟩

end Spells

/-- The characters spell the requirement as a phrase of the level, with at most so many parentheses open at
    once. -/
def Spelling (p : Phrase) (cs : List Char) (r : Requirement) (parentheses : Nat) : Prop :=
  ∃ w, Derives p w r ∧ Spells w cs ∧ ∀ n, n + parentheses ≤ maxDepth → NestedWithin n w

namespace Spelling
variable {p : Phrase} {cs ds : List Char} {l r : Requirement} {k : Nat}

theorem mono {m : Nat} (h : Spelling p cs r k) (hkm : k ≤ m) : Spelling p cs r m := by
  obtain ⟨w, hd, hs, hn⟩ := h
  exact ⟨w, hd, hs, fun n hm => hn n (by omega)⟩

theorem loosen {q : Phrase} (h : Spelling q cs r k) (hpq : p.binding ≤ q.binding) : Spelling p cs r k := by
  obtain ⟨w, hd, h⟩ := h
  exact ⟨w, hd.loosen hpq, h⟩

theorem word (hne : cs ≠ []) (hcs : cs.all isWordChar = true)
    (hd : Derives .operand [Symbol.ofWord (String.ofList cs)] r) : Spelling .operand cs r 0 := by
  refine ⟨_, hd, .word hne hcs, fun n hn => ?_⟩
  rw [NestedWithin.cons_iff (ofWord_ne_mark _).1 (ofWord_ne_mark _).2]
  exact .nil hn

theorem enclosed (h : Spelling .either cs r k) : Spelling .operand ('(' :: (cs ++ [')'])) r (k + 1) := by
  obtain ⟨w, hd, hs, hn⟩ := h
  refine ⟨_, hd.enclosed, hs.enclosed, fun n hk => ?_⟩
  rw [NestedWithin.enclosed_iff hd.count_eq]
  exact hn (n + 1) (by omega)

/-- Two spellings around the word of an operator spell what their symbols with the operator between them write. -/
theorem exists_joined {q : Phrase} {P : Requirement → Prop} (h : Spelling p cs l k) (op : List Char)
    (h' : Spelling q ds r k) (hne : op ≠ []) (hop : op.all isWordChar = true)
    (hd : ∀ {v w : List Symbol}, Derives p v l → Derives q w r →
      ∃ t, P t ∧ Derives p (v ++ Symbol.ofWord (String.ofList op) :: w) t) :
    ∃ t, P t ∧ Spelling p (cs ++ ' ' :: (op ++ ' ' :: ds)) t k := by
  obtain ⟨v, hv, hsv, hnv⟩ := h
  obtain ⟨w, hw, hsw, hnw⟩ := h'
  obtain ⟨t, ht, hd⟩ := hd hv hw
  refine ⟨t, ht, _, hd, hsv.joined hsw hne hop, fun n hk => ?_⟩
  rw [NestedWithin.joined_iff (ofWord_ne_mark _).1 (ofWord_ne_mark _).2 hv.count_eq]
  exact ⟨hnv n hk, hnw n hk⟩

theorem joined {q : Phrase} {t : Requirement} (h : Spelling p cs l k) (op : List Char) (h' : Spelling q ds r k)
    (hne : op ≠ []) (hop : op.all isWordChar = true)
    (hd : ∀ {v w : List Symbol}, Derives p v l → Derives q w r →
      Derives p (v ++ Symbol.ofWord (String.ofList op) :: w) t) :
    Spelling p (cs ++ ' ' :: (op ++ ' ' :: ds)) t k := by
  obtain ⟨_, rfl, hs⟩ := h.exists_joined (P := (· = t)) op h' hne hop fun hv hw => ⟨t, rfl, hd hv hw⟩
  exact hs

/-- A spelling stands bare where it is tight enough and in parentheses elsewhere. -/
theorem wrapped {q : Phrase} {bare : String} (h : Spelling q bare.toList r k) (p : Phrase) :
    Spelling p (if q.binding < p.binding then "(" ++ bare ++ ")" else bare).toList r (k + 1) := by
  split
  · have hin := (h.loosen (p := .either) (by cases q <;> decide)).enclosed
    have := hin.loosen (p := p) (by cases p <;> decide)
    simpa using this
  · next hb => exact (h.loosen (Nat.not_lt.mp hb)).mono (Nat.le_succ k)

end Spelling

/-! ### Canonical text -/

theorem renderAt_spelling (r : Requirement) (h : ∀ id ∈ r.courseIds, CourseId.isValid id = true) (p : Phrase) :
    Spelling p (r.renderAt p.binding).toList r r.depth := by
  induction r generalizing p with
  | nothing =>
    have hword : Spelling .operand "NONE".toList .nothing 0 := .word (by decide) (by decide) .nothing
    cases p <;> exact hword.loosen (by decide)
  | course id =>
    have hid := h id (by simp [courseIds])
    simp only [CourseId.isValid, Bool.and_eq_true, Bool.not_eq_true', Option.isNone_iff_eq_none] at hid
    obtain ⟨⟨hne, hcs⟩, hk⟩ := hid
    have hword : Spelling .operand id.toList (.course id) 0 := by
      refine .word (by simpa using hne) hcs ?_
      rw [String.ofList_toList, Symbol.ofWord, hk]
      exact .course id
    cases p <;> exact hword.loosen (by decide)
  | both l r ihl ihr =>
    obtain ⟨hleft, hright⟩ := SortedSet.forall_mem_union.mp h
    have hl := (ihl hleft .both).mono (Nat.le_max_left _ r.depth)
    have hr := (ihr hright .operand).mono (Nat.le_max_right l.depth _)
    have hbare : Spelling .both (l.renderAt 2 ++ " AND " ++ r.renderAt 3).toList (.both l r) (max l.depth r.depth) := by
      have := hl.joined ['A', 'N', 'D'] hr (by decide) (by decide) .and
      simpa [Phrase.binding] using this
    exact hbare.wrapped p
  | either l r ihl ihr =>
    obtain ⟨hleft, hright⟩ := SortedSet.forall_mem_union.mp h
    have hl := (ihl hleft .either).mono (Nat.le_max_left _ r.depth)
    have hr := (ihr hright .both).mono (Nat.le_max_right l.depth _)
    have hbare : Spelling .either (l.renderAt 1 ++ " OR " ++ r.renderAt 2).toList (.either l r) (max l.depth r.depth) := by
      have := hl.joined ['O', 'R'] hr (by decide) (by decide) .or
      simpa [Phrase.binding] using this
    exact hbare.wrapped p

/-- A spelling of a requirement is a text that writes it, unless the limits are broken. -/
theorem Spelling.writes {p : Phrase} {cs : List Char} {r : Requirement} {k : Nat} (h : Spelling p cs r k)
    (hd : r.depth ≤ maxDepth) (hk : k ≤ maxDepth) : Writes (String.ofList cs) r := by
  obtain ⟨w, hw, hs, hn⟩ := h.loosen (p := .either) (by cases p <;> decide)
  obtain ⟨ts, rfl, hl⟩ := hs.lexes
  have hlexes : ∃ position, Lexes 0 (String.ofList cs).toList ts (.finish position) :=
    ⟨_, by rw [String.toList_ofList]; exact hl⟩
  exact Or.inr ⟨ts, ⟨hlexes, hw⟩, withinLimits_iff_fits.mpr ⟨hd, hn 0 (by omega)⟩⟩

/-- The canonical text of a requirement that could have been read writes it. -/
theorem writes_render {r : Requirement} (hd : r.depth ≤ maxDepth)
    (h : ∀ id ∈ r.courseIds, CourseId.isValid id = true) : Writes r.render r := by
  have hwrites := (renderAt_spelling r h .either).writes hd hd
  rwa [String.ofList_toList] at hwrites

theorem parse_render_of_valid {r : Requirement} (hd : r.depth ≤ maxDepth)
    (h : ∀ id ∈ r.courseIds, CourseId.isValid id = true) : parse r.render = .ok r :=
  parse_eq_ok_iff.mpr (writes_render hd h)

theorem parse_render {s : String} {r : Requirement} (h : parse s = .ok r) : parse r.render = .ok r := by
  have hw := parse_eq_ok_iff.mp h
  exact parse_eq_ok_iff.mpr (writes_render hw.depth_le fun _ hid => hw.isValid_of_mem hid)

/-- Reading undoes rendering: on every requirement that keeps the limit of depth and names course ids
    only, and so on every requirement that was read. What was read is told apart by its canonical text. -/
theorem parse_inverts_render :
    (∀ t : Requirement, t.depth ≤ 128 → (∀ id ∈ t.courseIds, CourseId.isValid id = true) → parse t.render = .ok t) ∧
    (∀ s t, parse s = .ok t → parse t.render = .ok t) ∧
    ∀ s s' t t', parse s = .ok t → parse s' = .ok t' → t.render = t'.render → t = t' := by
  refine ⟨fun t hd hids => parse_eq_ok_iff.mpr (writes_render hd hids), fun s t h => parse_render h, ?_⟩
  intro s s' t t' h h' heq
  have ht := parse_render h
  rw [heq, parse_render h'] at ht
  exact (Except.ok.inj ht).symm

end Curriculum.Requirement
