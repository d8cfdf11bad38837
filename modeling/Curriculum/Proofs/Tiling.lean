import Curriculum.Proofs.Asking
import Curriculum.Proofs.Naming
import Mathlib.Data.List.Sort

/-! The tokens of a text as its tiles. They lie in the text one behind the other, each with the characters of its places,
    and leave nothing but layout between them; a word goes as far as it can to either side; and the first stray
    character ends them, or else the end of the text. All this leaves no choice: a text has one tiling, and the scan of
    the text is it. -/

namespace Curriculum
open CourseId

/-! ### Forms of tokens -/

/-- The symbol of a word: a keyword if its capitals, by the mapping of Unicode, spell one, and else an id. -/
def Symbol.IsOf (word : String) : Symbol → Prop
  | .and => Text.upper word = "AND"
  | .or => Text.upper word = "OR"
  | .nothing => Text.upper word = "NONE"
  | .id name => name = word ∧ Text.upper word ∉ ["AND", "OR", "NONE"]
  | .opening | .closing => False

/-- The token is a parenthesis. -/
def Token.IsMark (t : Token) : Prop :=
  (t.lexeme = "(" ∧ t.symbol = .opening) ∨ (t.lexeme = ")" ∧ t.symbol = .closing)

/-- The token is a word, and neither the characters in front of it nor those behind it make it longer. -/
structure Token.IsWordBetween (front back : List Char) (t : Token) : Prop where
  nonempty : t.lexeme ≠ ""
  drawn : ∀ c ∈ t.lexeme.toList, InAlphabet c
  left : ∀ c, front.getLast? = some c → ¬InAlphabet c
  right : ∀ c, back.head? = some c → ¬InAlphabet c
  symbol : t.symbol.IsOf t.lexeme

/-- The token is a word that goes as far as it can at its places in the text. -/
def Token.IsWordIn (s : String) (t : Token) : Prop :=
  t.IsWordBetween (s.toList.take t.start) (s.toList.drop t.stop)

theorem not_inAlphabet_of {c : Char} (h : isWordChar c = false) : ¬InAlphabet c := by
  rw [inAlphabet_iff, h]
  exact Bool.false_ne_true

theorem not_inAlphabet_of_isLayout {c : Char} (h : Text.isLayout c = true) : ¬InAlphabet c :=
  not_inAlphabet_of (isWordChar_of_isLayout h)

theorem not_inAlphabet_of_ofMark? {c : Char} {s : Symbol} (h : Symbol.ofMark? c = some s) : ¬InAlphabet c := by
  intro hc
  rw [ofMark?_of_isWordChar (inAlphabet_iff.mp hc)] at h
  cases h

theorem Symbol.isOf_ofWord {word : String} (h : ∀ c ∈ word.toList, InAlphabet c) : (ofWord word).IsOf word := by
  have hupper := upper_eq_capitals_of_drawn h
  unfold ofWord
  cases hk : Keyword.ofWord? word with
  | none => exact ⟨rfl, hupper ▸ isNone_ofWord?_iff.mp (by rw [hk]; rfl)⟩
  | some k =>
    unfold Keyword.ofWord? at hk
    split at hk <;> cases hk
    · next hand => exact hupper.trans hand
    · next hor => exact hupper.trans hor
    · next hnone => exact hupper.trans hnone

theorem Symbol.IsOf.unique {word : String} {a b : Symbol} (ha : a.IsOf word) (hb : b.IsOf word) : a = b := by
  cases a <;> cases b <;> simp_all [IsOf]

namespace Token
variable {t u : Token}

theorem eq_of (hsymbol : t.symbol = u.symbol) (hlexeme : t.lexeme = u.lexeme) (hstart : t.start = u.start) : t = u := by
  cases t
  cases u
  cases hsymbol
  cases hlexeme
  cases hstart
  rfl

namespace IsMark

theorem of_ofMark? {c : Char} {s : Symbol} {p : Nat} (h : Symbol.ofMark? c = some s) :
    (⟨s, String.ofList [c], p⟩ : Token).IsMark := by
  rcases ofMark?_eq_some h with ⟨rfl, rfl⟩ | ⟨rfl, rfl⟩
  · exact .inl ⟨by simp, rfl⟩
  · exact .inr ⟨by simp, rfl⟩

theorem stop_eq (h : t.IsMark) : t.stop = t.start + 1 := by
  rcases h with ⟨h, -⟩ | ⟨h, -⟩
  · rw [stop, h]
    rfl
  · rw [stop, h]
    rfl

theorem symbol_eq (h : t.IsMark) (h' : u.IsMark) (hlexeme : t.lexeme = u.lexeme) : t.symbol = u.symbol := by
  rcases h with ⟨h, hs⟩ | ⟨h, hs⟩ <;> rcases h' with ⟨h', hs'⟩ | ⟨h', hs'⟩ <;> rw [h, h'] at hlexeme <;> rw [hs, hs']
  · exact absurd hlexeme (by decide)
  · exact absurd hlexeme (by decide)

theorem mem_lexeme (h : t.IsMark) {c : Char} (hc : c ∈ t.lexeme.toList) : c = '(' ∨ c = ')' := by
  rcases h with ⟨h, -⟩ | ⟨h, -⟩
  · rw [h] at hc
    exact .inl (List.mem_singleton.mp hc)
  · rw [h] at hc
    exact .inr (List.mem_singleton.mp hc)

theorem not_inAlphabet (h : t.IsMark) {c : Char} (hc : c ∈ t.lexeme.toList) : ¬InAlphabet c := by
  rcases h.mem_lexeme hc with rfl | rfl
  · exact not_inAlphabet_of_ofMark? (s := .opening) rfl
  · exact not_inAlphabet_of_ofMark? (s := .closing) rfl

theorem isLayout_eq_false (h : t.IsMark) {c : Char} (hc : c ∈ t.lexeme.toList) : Text.isLayout c = false := by
  rcases h.mem_lexeme hc with rfl | rfl <;> rfl

end IsMark

namespace IsWordBetween
variable {front back w : List Char}

theorem of_word {p : Nat} (hne : w ≠ []) (hw : ∀ c ∈ w, isWordChar c = true)
    (hback : ∀ c, back.head? = some c → ¬InAlphabet c) :
    (⟨Symbol.ofWord (String.ofList w), String.ofList w, p⟩ : Token).IsWordBetween [] back := by
  have hdrawn : ∀ c ∈ (String.ofList w).toList, InAlphabet c := by
    rw [String.toList_ofList]
    exact fun c hc => inAlphabet_iff.mpr (hw c hc)
  refine ⟨fun h => hne (String.ofList_eq_empty_iff.mp h), hdrawn, nofun, hback, ?_⟩
  dsimp only
  exact Symbol.isOf_ofWord hdrawn

theorem append (h : t.IsWordBetween front back) (hw : front = [] → ∀ c, w.getLast? = some c → ¬InAlphabet c) :
    t.IsWordBetween (w ++ front) back := by
  refine ⟨h.nonempty, h.drawn, fun c hc => ?_, h.right, h.symbol⟩
  rw [List.getLast?_append] at hc
  cases hfront : front.getLast? with
  | none =>
    rw [hfront, Option.none_or] at hc
    exact hw (List.getLast?_eq_none_iff.mp hfront) c hc
  | some d =>
    rw [hfront, Option.some_or] at hc
    exact h.left c (hfront.trans hc)

theorem cons (h : t.IsWordBetween front back) {c : Char} (hc : ¬InAlphabet c) : t.IsWordBetween (c :: front) back := by
  refine h.append (w := [c]) fun _ d hd => ?_
  cases hd
  exact hc

end IsWordBetween
end Token

/-! ### Stray characters -/

/-- The character is neither layout nor part of any token. -/
structure IsStray (c : Char) : Prop where
  layout : Text.isLayout c = false
  opening : c ≠ '('
  closing : c ≠ ')'
  alphabet : ¬InAlphabet c

/-- The text has no stray character, and the place is its end, or the first stray one in it is the given one. -/
def Ending.Closes (s : String) : Ending → Prop
  | .finish q => q = s.length ∧ ∀ c ∈ s.toList, ¬IsStray c
  | .stray c q => s.toList[q]? = some c ∧ IsStray c ∧ ∀ d ∈ s.toList.take q, ¬IsStray d

theorem IsStray.of_other {c : Char} (hl : Text.isLayout c = false) (hm : Symbol.ofMark? c = none)
    (hw : isWordChar c = false) : IsStray c := by
  obtain ⟨ho, hc⟩ := ofMark?_eq_none_iff.mp hm
  exact ⟨hl, ho, hc, not_inAlphabet_of hw⟩

namespace Ending.Closes
variable {s : String} {e f : Ending} {c d : Char} {q r : Nat}

theorem not_lt (he : (stray c q).Closes s) (hf : (stray d r).Closes s) : ¬q < r := by
  obtain ⟨hc, hstray, -⟩ := he
  obtain ⟨-, -, hclear⟩ := hf
  intro hlt
  rw [← List.getElem?_take_of_lt hlt] at hc
  exact hclear c (List.mem_of_getElem? hc) hstray

theorem not_finish (he : (stray c q).Closes s) (hf : (finish r).Closes s) : False := by
  obtain ⟨hc, hstray, -⟩ := he
  exact hf.2 c (List.mem_of_getElem? hc) hstray

theorem unique (he : e.Closes s) (hf : f.Closes s) : e = f := by
  cases e with
  | finish q =>
    cases f with
    | finish r => rw [he.1, hf.1]
    | stray c r => exact (hf.not_finish he).elim
  | stray c q =>
    cases f with
    | finish r => exact (he.not_finish hf).elim
    | stray d r =>
      obtain rfl : q = r := Nat.le_antisymm (Nat.le_of_not_lt (hf.not_lt he)) (Nat.le_of_not_lt (he.not_lt hf))
      cases he.1.symm.trans hf.1
      rfl

end Ending.Closes

/-! ### Tokens in their text -/

namespace Lexes
variable {p : Nat} {cs : List Char} {ts : List Token} {e : Ending}

/-- A token stands between the characters in front of it and those behind it. -/
theorem exists_split (h : Lexes p cs ts e) {t : Token} (ht : t ∈ ts) :
    ∃ front back, cs = front ++ (t.lexeme.toList ++ back) ∧ t.start = p + front.length ∧
      (t.IsMark ∨ t.IsWordBetween front back) := by
  induction h with
  | finish | stray => cases ht
  | @layout p c cs ts e hl _ ih =>
    obtain ⟨front, back, rfl, hstart, hformed⟩ := ih ht
    refine ⟨c :: front, back, rfl, by rw [hstart, List.length_cons]; omega, ?_⟩
    exact hformed.imp_right fun hword => hword.cons (not_inAlphabet_of_isLayout hl)
  | @mark p c s cs ts e hm _ ih =>
    rcases List.mem_cons.mp ht with rfl | ht
    · exact ⟨[], cs, by rw [String.toList_ofList]; rfl, rfl, .inl (.of_ofMark? hm)⟩
    · obtain ⟨front, back, rfl, hstart, hformed⟩ := ih ht
      refine ⟨c :: front, back, rfl, by rw [hstart, List.length_cons]; omega, ?_⟩
      exact hformed.imp_right fun hword => hword.cons (not_inAlphabet_of_ofMark? hm)
  | @word p w cs ts e hne hw hcs _ ih =>
    have hright : ∀ c, cs.head? = some c → ¬InAlphabet c := fun c hc => not_inAlphabet_of (hcs c hc)
    rcases List.mem_cons.mp ht with rfl | ht
    · exact ⟨[], cs, by rw [String.toList_ofList]; rfl, rfl, .inr (.of_word hne hw hright)⟩
    · obtain ⟨front, back, rfl, hstart, hformed⟩ := ih ht
      refine ⟨w ++ front, back, (List.append_assoc ..).symm, by rw [hstart, List.length_append, Nat.add_assoc], ?_⟩
      refine hformed.imp_right fun hword => hword.append fun hfront => ?_
      -- Two words do not touch: the second would begin with a character that the first could have taken.
      subst hfront
      obtain ⟨c, rest, hrest⟩ := List.exists_cons_of_ne_nil fun h => hword.nonempty (String.toList_eq_nil_iff.mp h)
      exact absurd (hword.drawn c (hrest ▸ List.mem_cons_self ..)) (hright c (by rw [hrest]; rfl))

theorem le_start (h : Lexes p cs ts e) {t : Token} (ht : t ∈ ts) : p ≤ t.start := by
  obtain ⟨front, back, -, hstart, -⟩ := h.exists_split ht
  exact hstart ▸ Nat.le_add_right ..

theorem ordered (h : Lexes p cs ts e) : ts.Pairwise fun t u => t.stop ≤ u.start := by
  induction h with
  | finish | stray => exact .nil
  | layout _ _ ih => exact ih
  | mark _ hrest ih | word _ _ _ hrest ih =>
    refine .cons (fun u hu => ?_) ih
    rw [Token.stop_ofList]
    exact hrest.le_start hu

/-- What no token takes up before the tokens end is layout. -/
theorem isLayout_of_free (h : Lexes p cs ts e) {i : Nat} {c : Char} (hi : p + i < e.position) (hc : cs[i]? = some c)
    (hfree : ∀ t ∈ ts, ¬(t.start ≤ p + i ∧ p + i < t.stop)) : Text.isLayout c = true := by
  induction h generalizing i with
  | finish | stray => exact absurd hi (Nat.not_lt.mpr (Nat.le_add_right ..))
  | @layout p d cs ts e hl _ ih =>
    cases i with
    | zero =>
      cases hc
      exact hl
    | succ i =>
      have hplace : p + (i + 1) = p + 1 + i := by omega
      rw [hplace] at hi hfree
      exact ih hi hc hfree
  | @mark p d s cs ts e hm _ ih =>
    obtain ⟨hfirst, hfree⟩ := List.forall_mem_cons.mp hfree
    rw [Token.stop_ofList] at hfirst
    cases i with
    | zero => exact absurd ⟨Nat.le_refl p, Nat.lt_succ_self p⟩ hfirst
    | succ i =>
      have hplace : p + (i + 1) = p + 1 + i := by omega
      rw [hplace] at hi hfree
      exact ih hi hc hfree
  | @word p w cs ts e _ _ _ _ ih =>
    obtain ⟨hfirst, hfree⟩ := List.forall_mem_cons.mp hfree
    rw [Token.stop_ofList] at hfirst
    have hbehind : w.length ≤ i := Nat.le_of_not_lt fun h => hfirst ⟨Nat.le_add_right .., Nat.add_lt_add_left h p⟩
    obtain ⟨j, rfl⟩ := Nat.exists_eq_add_of_le hbehind
    rw [← Nat.add_assoc] at hi hfree
    rw [List.getElem?_append_right hbehind, Nat.add_sub_cancel_left] at hc
    exact ih hi hc hfree

theorem isStray_of_stray {c : Char} {q : Nat} (h : Lexes p cs ts (.stray c q)) : IsStray c := by
  generalize he : Ending.stray c q = e at h
  induction h with
  | finish => cases he
  | stray hl hm hw =>
    cases he
    exact .of_other hl hm hw
  | layout _ _ ih | mark _ _ ih | word _ _ _ _ ih => exact ih he

/-- Before the place where the tokens end no character is stray. -/
theorem clear_before (h : Lexes p cs ts e) : ∀ c ∈ cs.take (e.position - p), ¬IsStray c := by
  induction h with
  | finish => simp
  | stray => simp [Ending.position]
  | @layout p c cs ts e hl hrest ih =>
    have hplace : e.position - p = e.position - (p + 1) + 1 := by
      have := hrest.le_position
      omega
    rw [hplace, List.take_succ_cons]
    refine List.forall_mem_cons.mpr ⟨fun hstray => ?_, ih⟩
    rw [hstray.layout] at hl
    cases hl
  | @mark p c s cs ts e hm hrest ih =>
    have hplace : e.position - p = e.position - (p + 1) + 1 := by
      have := hrest.le_position
      omega
    rw [hplace, List.take_succ_cons]
    refine List.forall_mem_cons.mpr ⟨fun hstray => ?_, ih⟩
    rw [ofMark?_eq_none_iff.mpr ⟨hstray.opening, hstray.closing⟩] at hm
    cases hm
  | @word p w cs ts e _ hw _ hrest ih =>
    have hplace : e.position - p = w.length + (e.position - (p + w.length)) := by
      have := hrest.le_position
      omega
    rw [hplace, List.take_length_add_append]
    exact List.forall_mem_append.mpr ⟨fun c hc hstray => hstray.alphabet (inAlphabet_iff.mpr (hw c hc)), ih⟩

theorem closes {s : String} (h : Lexes 0 s.toList ts e) : e.Closes s := by
  have hclear := h.clear_before
  cases e with
  | finish q =>
    have hq := h.position_of_finish
    rw [Nat.zero_add] at hq
    rw [Ending.position, Nat.sub_zero, hq, List.take_length] at hclear
    exact ⟨hq.trans String.length_toList, hclear⟩
  | stray c q => exact ⟨h.getElem?_of_stray, h.isStray_of_stray, hclear⟩

end Lexes

/-! ### Tilings -/

/-- The tokens lie in the text one behind the other, up to the place where they end, and leave nothing but layout
    between them. -/
structure Tiles (s : String) (ts : List Token) (e : Ending) : Prop where
  cut : ∀ t ∈ ts, t.start < t.stop ∧ t.stop ≤ e.position ∧ s.toList.extract t.start t.stop = t.lexeme.toList
  ordered : ts.Pairwise fun t u => t.stop ≤ u.start
  gaps : ∀ q c, q < e.position → s.toList[q]? = some c → (∀ t ∈ ts, ¬(t.start ≤ q ∧ q < t.stop)) →
    Text.isLayout c = true
  formed : ∀ t ∈ ts, t.IsMark ∨ t.IsWordIn s
  closes : e.Closes s

namespace Tiles
variable {s : String} {ts us : List Token} {e f : Ending} {t u : Token} {q : Nat}

theorem of_lexes (h : Lexes 0 s.toList ts e) : Tiles s ts e := by
  have hsplits : ∀ t ∈ ts, ∃ front back, s.toList = front ++ (t.lexeme.toList ++ back) ∧ t.start = front.length ∧
      (t.IsMark ∨ t.IsWordBetween front back) := fun t ht => by
    obtain ⟨front, back, hsplit, hstart, hformed⟩ := h.exists_split ht
    exact ⟨front, back, hsplit, by rw [hstart, Nat.zero_add], hformed⟩
  refine ⟨fun t ht => ?_, h.ordered, fun q c hq hc hfree => ?_, fun t ht => ?_, h.closes⟩
  · obtain ⟨hlt, hle⟩ := h.places_of_mem ht
    refine ⟨hlt, hle, ?_⟩
    obtain ⟨front, back, hsplit, hstart, -⟩ := hsplits t ht
    rw [hsplit, Token.stop, hstart, List.extract_eq_take_drop, Nat.add_sub_cancel_left, List.drop_left,
      ← String.length_toList, List.take_left]
  · rw [← Nat.zero_add q] at hq hfree
    exact h.isLayout_of_free hq hc hfree
  · obtain ⟨front, back, hsplit, hstart, hformed⟩ := hsplits t ht
    rw [Token.IsWordIn, hsplit, Token.stop, hstart, List.take_left, ← String.length_toList, List.drop_length_add_append,
      List.drop_left]
    exact hformed

/-- At the places of a token the text has the characters of the token. -/
theorem exists_char (h : Tiles s ts e) (ht : t ∈ ts) (hq : t.start ≤ q ∧ q < t.stop) :
    ∃ c ∈ t.lexeme.toList, s.toList[q]? = some c := by
  obtain ⟨-, -, hcut⟩ := h.cut t ht
  have hi : q - t.start < t.lexeme.toList.length := by
    have := hq.2
    rw [Token.stop] at this
    rw [String.length_toList]
    omega
  refine ⟨t.lexeme.toList[q - t.start], List.getElem_mem hi, ?_⟩
  rw [← List.getElem?_eq_getElem hi, ← hcut, List.extract_eq_take_drop, List.getElem?_take_of_lt (by omega),
    List.getElem?_drop, Nat.add_sub_cancel' hq.1]

/-! The tiling is the only one. -/

/-- A word does not start behind one that it meets, for it would take the character in front of it too. -/
theorem start_le_of_words (h : Tiles s us f) (hu : u ∈ us) (hword : t.IsWordIn s) (hword' : u.IsWordIn s)
    (hq : t.start ≤ q) (hq' : q < u.stop) : t.start ≤ u.start := by
  by_contra hlater
  obtain ⟨r, hr⟩ := Nat.exists_eq_succ_of_ne_zero (Nat.ne_zero_of_lt (Nat.lt_of_not_le hlater))
  obtain ⟨c, hmem, hc⟩ := h.exists_char hu (q := r) (by omega)
  refine hword.left c ?_ (hword'.drawn c hmem)
  rw [hr, List.take_add_one, hc]
  exact List.getLast?_concat

theorem stop_le_of_words (h : Tiles s ts e) (ht : t ∈ ts) (hword : t.IsWordIn s) (hword' : u.IsWordIn s)
    (hq : t.start ≤ q) (hq' : q < u.stop) : t.stop ≤ u.stop := by
  by_contra hlonger
  obtain ⟨c, hmem, hc⟩ := h.exists_char ht (q := u.stop) (by omega)
  exact hword'.right c (List.head?_drop.trans hc) (hword.drawn c hmem)

/-- Tokens that meet have the same places, so they are one token. -/
theorem eq_of_meet (h : Tiles s ts e) (h' : Tiles s us f) (ht : t ∈ ts) (hu : u ∈ us) (hq : t.start ≤ q ∧ q < t.stop)
    (hq' : u.start ≤ q ∧ q < u.stop) : t = u := by
  obtain ⟨c, hmem, hc⟩ := h.exists_char ht hq
  obtain ⟨d, hmem', hd⟩ := h'.exists_char hu hq'
  cases hc.symm.trans hd
  have hlexeme (hstart : t.start = u.start) (hstop : t.stop = u.stop) : t.lexeme = u.lexeme := by
    obtain ⟨-, -, hcut⟩ := h.cut t ht
    obtain ⟨-, -, hcut'⟩ := h'.cut u hu
    exact String.toList_inj.mp (by rw [← hcut, ← hcut', hstart, hstop])
  rcases h.formed t ht with hmark | hword
  · rcases h'.formed u hu with hmark' | hword'
    · have hstop := hmark.stop_eq
      have hstop' := hmark'.stop_eq
      have hstart : t.start = u.start := by omega
      have hlexeme := hlexeme hstart (by omega)
      exact Token.eq_of (hmark.symbol_eq hmark' hlexeme) hlexeme hstart
    · exact absurd (hword'.drawn c hmem') (hmark.not_inAlphabet hmem)
  · rcases h'.formed u hu with hmark' | hword'
    · exact absurd (hword.drawn c hmem) (hmark'.not_inAlphabet hmem')
    · have hstart := Nat.le_antisymm (h'.start_le_of_words hu hword hword' hq.1 hq'.2)
        (h.start_le_of_words ht hword' hword hq'.1 hq.2)
      have hstop := Nat.le_antisymm (h.stop_le_of_words ht hword hword' hq.1 hq'.2)
        (h'.stop_le_of_words hu hword' hword hq'.1 hq.2)
      have hlexeme := hlexeme hstart hstop
      exact Token.eq_of (hword.symbol.unique (hlexeme ▸ hword'.symbol)) hlexeme hstart

theorem mem_of_mem (h : Tiles s ts e) (h' : Tiles s us e) (ht : t ∈ ts) : t ∈ us := by
  obtain ⟨hlt, hle, -⟩ := h.cut t ht
  have hplace : t.start ≤ t.start ∧ t.start < t.stop := ⟨Nat.le_refl _, hlt⟩
  obtain ⟨c, hmem, hc⟩ := h.exists_char ht hplace
  have hlayout : Text.isLayout c = false := by
    rcases h.formed t ht with hmark | hword
    · exact hmark.isLayout_eq_false hmem
    · exact isLayout_of_isWordChar (inAlphabet_iff.mp (hword.drawn c hmem))
  -- If no token of the other tiling met it, its first character would stand in a gap there.
  by_contra hnot
  have hfree : ∀ u ∈ us, ¬(u.start ≤ t.start ∧ t.start < u.stop) := fun u hu hmeet =>
    hnot (h.eq_of_meet h' ht hu hplace hmeet ▸ hu)
  rw [h'.gaps t.start c (Nat.lt_of_lt_of_le hlt hle) hc hfree] at hlayout
  cases hlayout

theorem increasing (h : Tiles s ts e) : ts.Pairwise fun t u => t.start < u.start :=
  h.ordered.imp_of_mem fun ht _ hle => Nat.lt_of_lt_of_le (h.cut _ ht).1 hle

theorem unique (h : Tiles s ts e) (h' : Tiles s us f) : ts = us ∧ e = f := by
  obtain rfl := h.closes.unique h'.closes
  have : Std.Asymm fun t u : Token => t.start < u.start := ⟨fun _ _ => Nat.lt_asymm⟩
  exact ⟨h.increasing.eq_of_mem_iff h'.increasing fun t => ⟨h.mem_of_mem h', h'.mem_of_mem h⟩, rfl⟩

theorem iff_scan : Tiles s ts e ↔ Scan.ofText s = ⟨ts, e⟩ := by
  have hscan : Tiles s (Scan.ofText s).tokens (Scan.ofText s).ending := of_lexes (Lexes.of_scan s)
  constructor
  · intro h
    obtain ⟨rfl, rfl⟩ := hscan.unique h
    rfl
  · intro h
    rwa [h] at hscan

end Tiles

/-! ### Texts -/

theorem exists_stray_iff (s : String) :
    (∃ c q, (Scan.ofText s).ending = .stray c q) ↔ ∃ c ∈ s.toList, IsStray c := by
  have hcloses := (Lexes.of_scan s).closes
  cases he : (Scan.ofText s).ending with
  | finish q =>
    rw [he] at hcloses
    simpa using hcloses.2
  | stray c q =>
    rw [he] at hcloses
    exact iff_of_true ⟨c, q, rfl⟩ ⟨c, List.mem_of_getElem? hcloses.1, hcloses.2.1⟩

/-- The tokens of a text tile it, and nothing else does; there are no more of them than characters. Who asks for the next
    token again and again is given them one by one, each time with the text behind the token left, and after the last
    one always the same ending. This is the end of the text if no character is stray, and else the first stray one. -/
theorem tokens_tile_text (s : String) :
    (∀ ts e, Tiles s ts e ↔ Scan.ofText s = ⟨ts, e⟩) ∧ (Scan.ofText s).tokens.length ≤ s.length ∧
    (∀ k t, (Scan.ofText s).tokens[k]? = some t →
      (Cursor.ofText s).meets k = .token t ⟨t.stop, s.toList.drop t.stop⟩) ∧
    (∀ k, (Scan.ofText s).tokens.length ≤ k → (Cursor.ofText s).meets k = .ending (Scan.ofText s).ending) ∧
    ((Scan.ofText s).ending = .finish s.length ↔ ∀ c ∈ s.toList, ¬IsStray c) ∧
    ((∃ c q, (Scan.ofText s).ending = .stray c q) ↔ ∃ c ∈ s.toList, IsStray c) := by
  have hlex := Lexes.of_scan s
  refine ⟨fun ts e => Tiles.iff_scan, hlex.length_le.trans_eq String.length_toList, fun k t ht => ?_,
    fun k hk => hlex.meets_ending hk, ⟨fun h => ?_, fun h => hlex.closes.unique ⟨rfl, h⟩⟩, exists_stray_iff s⟩
  · obtain ⟨front, back, hsplit, hstop, hmeets⟩ := hlex.meets_token ht
    rw [Nat.zero_add] at hstop
    rw [Cursor.ofText, hmeets, hsplit, hstop, List.drop_left]
  · have hcloses := hlex.closes
    rw [h] at hcloses
    exact hcloses.2

/-- The word ends where the stray character stands, and that character is met as often as one asks behind it. -/
theorem tokens_tile_text_stray :
    (Cursor.ofText "( And+").meets 1 = .token ⟨.and, "And", 2⟩ ⟨5, ['+']⟩ ∧
      (Cursor.ofText "( And+").meets 2 = .ending (.stray '+' 5) ∧
      (Cursor.ofText "( And+").meets 9 = .ending (.stray '+' 5) := by
  have hscan : Scan.ofText "( And+" = ⟨[⟨.opening, "(", 0⟩, ⟨.and, "And", 2⟩], .stray '+' 5⟩ := by decide +kernel
  obtain ⟨-, -, htokens, hending, -⟩ := tokens_tile_text "( And+"
  rw [hscan] at htokens hending
  exact ⟨htokens 1 _ rfl, hending 2 (by decide), hending 9 (by decide)⟩

end Curriculum
