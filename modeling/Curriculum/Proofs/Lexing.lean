import Curriculum.Requirement.Token

/-! What the tokens of a text are, stated without the cursor: layout stands anywhere, a parenthesis is a
    token of its own, a word is a run of word characters that no further one follows, and the first other
    character ends the tokens. The scan of a text finds exactly these tokens and this ending. -/

namespace Curriculum

/-- The symbol of a parenthesis. -/
def Symbol.ofMark? : Char → Option Symbol
  | '(' => some .opening
  | ')' => some .closing
  | _ => none

def Ending.position : Ending → Nat
  | .finish p | .stray _ p => p

/-- The characters from a place on hold the tokens, and then the tokens end as given. -/
inductive Lexes : Nat → List Char → List Token → Ending → Prop
  | finish (p : Nat) : Lexes p [] [] (.finish p)
  | stray {p : Nat} {c : Char} {cs : List Char} :
    Text.isLayout c = false → Symbol.ofMark? c = none → isWordChar c = false → Lexes p (c :: cs) [] (.stray c p)
  | layout {p : Nat} {c : Char} {cs : List Char} {ts : List Token} {e : Ending} :
    Text.isLayout c = true → Lexes (p + 1) cs ts e → Lexes p (c :: cs) ts e
  | mark {p : Nat} {c : Char} {s : Symbol} {cs : List Char} {ts : List Token} {e : Ending} :
    Symbol.ofMark? c = some s → Lexes (p + 1) cs ts e → Lexes p (c :: cs) (⟨s, String.ofList [c], p⟩ :: ts) e
  | word {p : Nat} {w cs : List Char} {ts : List Token} {e : Ending} :
    w ≠ [] → (∀ c ∈ w, isWordChar c = true) → (∀ c, cs.head? = some c → isWordChar c = false) →
    Lexes (p + w.length) cs ts e →
    Lexes p (w ++ cs) (⟨Symbol.ofWord (String.ofList w), String.ofList w, p⟩ :: ts) e

theorem Token.stop_ofList (s : Symbol) (w : List Char) (p : Nat) : (⟨s, String.ofList w, p⟩ : Token).stop = p + w.length := by
  rw [Token.stop, String.length_ofList]

/-! ### Kinds of characters -/

theorem ofMark?_eq_some {c : Char} {s : Symbol} (h : Symbol.ofMark? c = some s) :
    (c = '(' ∧ s = .opening) ∨ (c = ')' ∧ s = .closing) := by
  unfold Symbol.ofMark? at h
  split at h
  · exact Or.inl ⟨rfl, (Option.some.inj h).symm⟩
  · exact Or.inr ⟨rfl, (Option.some.inj h).symm⟩
  · cases h

theorem ofMark?_eq_none_iff {c : Char} : Symbol.ofMark? c = none ↔ c ≠ '(' ∧ c ≠ ')' := by
  unfold Symbol.ofMark?
  split
  · exact iff_of_false nofun fun h => h.1 rfl
  · exact iff_of_false nofun fun h => h.2 rfl
  · next ho hc => exact iff_of_true rfl ⟨ho, hc⟩

/-- No character of a class without the two parentheses stands for one of their symbols. -/
theorem ofMark?_of_class {q : Char → Bool} (ho : q '(' = false) (hc : q ')' = false) {c : Char} (h : q c = true) :
    Symbol.ofMark? c = none := by
  refine ofMark?_eq_none_iff.mpr ⟨?_, ?_⟩
  · rintro rfl
    exact Bool.false_ne_true (ho.symm.trans h)
  · rintro rfl
    exact Bool.false_ne_true (hc.symm.trans h)

theorem isWordChar_of_isLayout {c : Char} (h : Text.isLayout c = true) : isWordChar c = false := by
  simp only [Text.isLayout, Bool.or_eq_true, decide_eq_true_eq] at h
  rcases h with ((((rfl | rfl) | rfl) | rfl) | rfl) | rfl <;> rfl

theorem ofMark?_of_isLayout {c : Char} (h : Text.isLayout c = true) : Symbol.ofMark? c = none :=
  ofMark?_of_class rfl rfl h

theorem isLayout_of_isWordChar {c : Char} (h : isWordChar c = true) : Text.isLayout c = false := by
  cases hl : Text.isLayout c
  · rfl
  · rw [isWordChar_of_isLayout hl] at h
    cases h

theorem ofMark?_of_isWordChar {c : Char} (h : isWordChar c = true) : Symbol.ofMark? c = none :=
  ofMark?_of_class rfl rfl h

/-! ### The scan -/

namespace Cursor

theorem scan_next (c : Cursor) : c.scan =
    match c.next with
    | .ending e => ⟨[], e⟩
    | .token t after => ⟨t :: after.scan.tokens, after.scan.ending⟩ := by
  rw [scan]
  split
  · next h => simp only [h]
  · next h => simp only [h]

theorem scan_of_ending {c : Cursor} {e : Ending} (h : c.next = .ending e) : c.scan = ⟨[], e⟩ := by
  rw [scan_next, h]

theorem scan_of_token {c after : Cursor} {t : Token} (h : c.next = .token t after) :
    c.scan = ⟨t :: after.scan.tokens, after.scan.ending⟩ := by
  rw [scan_next, h]

theorem scan_congr {c d : Cursor} (h : c.next = d.next) : c.scan = d.scan := by
  rw [scan_next c, scan_next d, h]

variable {p : Nat} {c : Char} {cs w : List Char}

theorem skipWhile_of_neg {q : Char → Bool} (h : q c = false) : (⟨p, c :: cs⟩ : Cursor).skipWhile q = ([], ⟨p, c :: cs⟩) := by
  simp [skipWhile, h]

theorem next_nil : (⟨p, []⟩ : Cursor).next = .ending (.finish p) := by
  simp [next, skipWhile]

theorem next_layout (h : Text.isLayout c = true) : (⟨p, c :: cs⟩ : Cursor).next = (⟨p + 1, cs⟩ : Cursor).next := by
  have hskip : ((⟨p, c :: cs⟩ : Cursor).skipWhile Text.isLayout).2 =
      ((⟨p + 1, cs⟩ : Cursor).skipWhile Text.isLayout).2 := by
    simp only [skipWhile, List.takeWhile_cons, List.dropWhile_cons, h, if_true, List.length_cons]
    rw [Nat.add_right_comm, Nat.add_assoc]
  simp only [next, hskip]

theorem next_mark {s : Symbol} (h : Symbol.ofMark? c = some s) :
    (⟨p, c :: cs⟩ : Cursor).next = .token ⟨s, String.ofList [c], p⟩ ⟨p + 1, cs⟩ := by
  rcases ofMark?_eq_some h with ⟨rfl, rfl⟩ | ⟨rfl, rfl⟩
  · rw [next, skipWhile_of_neg (by rfl)]
    rfl
  · rw [next, skipWhile_of_neg (by rfl)]
    rfl

/-- At a character that is neither layout nor a parenthesis a word starts, or nothing does. -/
theorem next_other (hl : Text.isLayout c = false) (hm : Symbol.ofMark? c = none) :
    (⟨p, c :: cs⟩ : Cursor).next =
      if isWordChar c then
        .token ⟨Symbol.ofWord (String.ofList ((c :: cs).takeWhile isWordChar)),
          String.ofList ((c :: cs).takeWhile isWordChar), p⟩
          ⟨p + ((c :: cs).takeWhile isWordChar).length, (c :: cs).dropWhile isWordChar⟩
      else .ending (.stray c p) := by
  rw [next, skipWhile_of_neg hl]
  dsimp only
  split
  · next h => cases h
  · next h =>
    cases h
    cases hm
  · next h =>
    cases h
    cases hm
  · next h =>
    cases h
    rfl

theorem takeWhile_word (hw : ∀ c ∈ w, isWordChar c = true) (hcs : ∀ c, cs.head? = some c → isWordChar c = false) :
    (w ++ cs).takeWhile isWordChar = w ∧ (w ++ cs).dropWhile isWordChar = cs := by
  rw [List.takeWhile_append_of_pos hw, List.dropWhile_append_of_pos hw]
  cases cs with
  | nil => simp
  | cons c cs => simp [hcs c rfl]

theorem next_word (hne : w ≠ []) (hw : ∀ c ∈ w, isWordChar c = true)
    (hcs : ∀ c, cs.head? = some c → isWordChar c = false) :
    (⟨p, w ++ cs⟩ : Cursor).next =
      .token ⟨Symbol.ofWord (String.ofList w), String.ofList w, p⟩ ⟨p + w.length, cs⟩ := by
  obtain ⟨htake, hdrop⟩ := takeWhile_word hw hcs
  cases w with
  | nil => exact absurd rfl hne
  | cons c w =>
    have hc := hw c (List.mem_cons_self ..)
    rw [List.cons_append] at htake hdrop ⊢
    rw [next_other (isLayout_of_isWordChar hc) (ofMark?_of_isWordChar hc), if_pos hc, htake, hdrop]

end Cursor

namespace Lexes
variable {p : Nat} {cs : List Char} {ts : List Token} {e : Ending}

theorem scan_eq (h : Lexes p cs ts e) : (⟨p, cs⟩ : Cursor).scan = ⟨ts, e⟩ := by
  induction h with
  | finish p => exact Cursor.scan_of_ending Cursor.next_nil
  | stray hl hm hw => exact Cursor.scan_of_ending (by rw [Cursor.next_other hl hm, hw]; rfl)
  | layout hl _ ih => rw [Cursor.scan_congr (Cursor.next_layout hl), ih]
  | mark hm _ ih => rw [Cursor.scan_of_token (Cursor.next_mark hm), ih]
  | word hne hw hcs _ ih => rw [Cursor.scan_of_token (Cursor.next_word hne hw hcs), ih]

/-- A word character starts a word that goes as far as it can. -/
theorem exists_word {c : Char} (cs : List Char) (hc : isWordChar c = true) :
    ∃ w rest, c :: cs = w ++ rest ∧ w ≠ [] ∧ (∀ d ∈ w, isWordChar d = true) ∧
      (∀ d, rest.head? = some d → isWordChar d = false) ∧ rest.length ≤ cs.length := by
  refine ⟨(c :: cs).takeWhile isWordChar, (c :: cs).dropWhile isWordChar, ?_, ?_, ?_, ?_, ?_⟩
  · exact List.takeWhile_append_dropWhile.symm
  · simp [hc]
  · exact fun d hd => List.all_eq_true.mp (List.all_takeWhile ..) d hd
  · intro d hd
    have := List.head?_dropWhile_not isWordChar (c :: cs)
    simpa only [hd, Bool.not_eq_true] using this
  · rw [List.dropWhile_cons_of_pos hc]
    exact (List.dropWhile_sublist isWordChar).length_le

theorem exists_of (p : Nat) (cs : List Char) : ∃ ts e, Lexes p cs ts e := by
  match cs with
  | [] => exact ⟨[], .finish p, .finish p⟩
  | c :: cs =>
    cases hl : Text.isLayout c with
    | true =>
      obtain ⟨ts, e, h⟩ := exists_of (p + 1) cs
      exact ⟨ts, e, .layout hl h⟩
    | false =>
      cases hm : Symbol.ofMark? c with
      | some s =>
        obtain ⟨ts, e, h⟩ := exists_of (p + 1) cs
        exact ⟨_, e, .mark hm h⟩
      | none =>
        cases hc : isWordChar c with
        | false => exact ⟨[], .stray c p, .stray hl hm hc⟩
        | true =>
          -- The word takes at least one character, so the rest is shorter.
          obtain ⟨w, rest, heq, hne, hw, hrest, hle⟩ := exists_word cs hc
          obtain ⟨ts, e, h⟩ := exists_of (p + w.length) rest
          rw [heq]
          exact ⟨_, e, .word hne hw hrest h⟩
termination_by cs.length
decreasing_by all_goals simp only [List.length_cons]; omega

/-- A text holds one list of tokens, the scanned one. -/
theorem iff_scan : Lexes p cs ts e ↔ (⟨p, cs⟩ : Cursor).scan = ⟨ts, e⟩ := by
  refine ⟨scan_eq, fun h => ?_⟩
  obtain ⟨us, f, hl⟩ := exists_of p cs
  rw [hl.scan_eq] at h
  cases h
  exact hl

theorem of_scan (s : String) : Lexes 0 s.toList (Scan.ofText s).tokens (Scan.ofText s).ending :=
  iff_scan.mpr rfl

/-! ### Places -/

theorem le_position (h : Lexes p cs ts e) : p ≤ e.position := by
  induction h with
  | finish | stray => exact Nat.le_refl _
  | layout _ _ ih | mark _ _ ih => exact Nat.le_of_succ_le ih
  | word _ _ _ _ ih => exact Nat.le_trans (Nat.le_add_right ..) ih

/-- A token takes up some places, all of them before the one where the tokens end. -/
theorem places_of_mem (h : Lexes p cs ts e) {t : Token} (ht : t ∈ ts) : t.start < t.stop ∧ t.stop ≤ e.position := by
  induction h with
  | finish | stray => cases ht
  | layout _ _ ih => exact ih ht
  | mark _ hrest ih =>
    rcases List.mem_cons.mp ht with rfl | ht
    · rw [Token.stop_ofList]
      exact ⟨Nat.lt_succ_self _, hrest.le_position⟩
    · exact ih ht
  | word hne _ _ hrest ih =>
    rcases List.mem_cons.mp ht with rfl | ht
    · rw [Token.stop_ofList]
      exact ⟨Nat.lt_add_of_pos_right (List.length_pos_iff.mpr hne), hrest.le_position⟩
    · exact ih ht

theorem start_lt_position (h : Lexes p cs ts e) {t : Token} (ht : t ∈ ts) : t.start < e.position :=
  Nat.lt_of_lt_of_le (h.places_of_mem ht).1 (h.places_of_mem ht).2

theorem position_of_finish {q : Nat} (h : Lexes p cs ts (.finish q)) : q = p + cs.length := by
  generalize he : Ending.finish q = e at h
  induction h with
  | finish => exact Ending.finish.inj he
  | stray => cases he
  | layout _ _ ih | mark _ _ ih =>
    have := ih he
    simp only [List.length_cons]
    omega
  | word _ _ _ _ ih =>
    have := ih he
    simp only [List.length_append]
    omega

/-- A stray character stands at its place in the text. -/
theorem getElem?_of_stray {c : Char} {q : Nat} (h : Lexes p cs ts (.stray c q)) : cs[q - p]? = some c := by
  generalize he : Ending.stray c q = e at h
  induction h with
  | finish => cases he
  | stray =>
    cases he
    simp
  | @layout p d cs ts e _ hrest ih | @mark p d s cs ts e _ hrest ih =>
    have hq := hrest.le_position
    rw [← he, Ending.position] at hq
    have hplace : q - p = q - (p + 1) + 1 := by omega
    rw [hplace, List.getElem?_cons_succ, ih he]
  | @word p w cs ts e _ _ _ hrest ih =>
    have hq := hrest.le_position
    rw [← he, Ending.position] at hq
    have hplace : q - p = w.length + (q - (p + w.length)) := by omega
    rw [hplace, List.getElem?_append_right (Nat.le_add_right ..), Nat.add_sub_cancel_left, ih he]

/-! ### Tokens -/

theorem eq_nil_of_layout (h : Lexes p cs ts e) (hl : ∀ c ∈ cs, Text.isLayout c = true) : ts = [] := by
  induction h with
  | finish | stray => rfl
  | layout _ _ ih => exact ih fun c hc => hl c (List.mem_cons_of_mem _ hc)
  | mark hm =>
    rw [ofMark?_of_isLayout (hl _ (List.mem_cons_self ..))] at hm
    cases hm
  | @word _ w _ _ _ hne hw =>
    obtain ⟨c, hc⟩ := List.exists_mem_of_ne_nil w hne
    have := hw c hc
    rw [isWordChar_of_isLayout (hl c (List.mem_append_left _ hc))] at this
    cases this

/-- The ids among the tokens are course ids. -/
theorem isValid_of_mem (h : Lexes p cs ts e) {t : Token} (ht : t ∈ ts) {id : String} (hid : t.symbol = .id id) :
    CourseId.isValid id = true := by
  induction h with
  | finish | stray => cases ht
  | layout _ _ ih => exact ih ht
  | mark hm _ ih =>
    rcases List.mem_cons.mp ht with rfl | ht
    · rcases ofMark?_eq_some hm with ⟨-, rfl⟩ | ⟨-, rfl⟩ <;> cases hid
    · exact ih ht
  | @word _ w _ _ _ hne hw _ _ ih =>
    rcases List.mem_cons.mp ht with rfl | ht
    · cases hk : Keyword.ofWord? (String.ofList w) with
      | some k => cases k <;> simp [Symbol.ofWord, hk] at hid
      | none =>
        simp only [Symbol.ofWord, hk, Symbol.id.injEq] at hid
        subst hid
        simpa [CourseId.isValid, hk, hne] using hw
    · exact ih ht

end Lexes
end Curriculum
