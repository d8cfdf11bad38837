import Curriculum.Proofs.Lexing

/-! Asking a text for its tokens one at a time, and going on after the last. The tokens come one by one, as the scan lists
    them, and each leaves the text behind it. Where they end the cursor stays, so that the same ending is met from then
    on, be it the end of the text or a stray character. -/

namespace Curriculum

/-! ### Cursors -/

namespace Cursor
variable {p : Nat} {ch : Char} {cs : List Char} {c : Cursor} {e : Ending}

theorem asked_of_token {t : Token} {after : Cursor} (h : c.next = .token t after) : c.asked = after := by
  rw [asked, h]

theorem asked_of_ending (h : c.next = .ending e) : c.asked = (c.skipWhile Text.isLayout).2 := by
  rw [asked, h]

theorem skipWhile_layout (h : Text.isLayout ch = true) :
    ((⟨p, ch :: cs⟩ : Cursor).skipWhile Text.isLayout).2 = ((⟨p + 1, cs⟩ : Cursor).skipWhile Text.isLayout).2 := by
  simp only [skipWhile, List.takeWhile_cons, List.dropWhile_cons, h, if_true, List.length_cons]
  rw [Nat.add_right_comm, Nat.add_assoc]

/-- Layout in front makes no difference to what is met, however often. -/
theorem meets_layout (h : Text.isLayout ch = true) (k : Nat) :
    (⟨p, ch :: cs⟩ : Cursor).meets k = (⟨p + 1, cs⟩ : Cursor).meets k := by
  have hasked : (⟨p, ch :: cs⟩ : Cursor).asked = (⟨p + 1, cs⟩ : Cursor).asked := by
    rw [asked, asked, next_layout h, skipWhile_layout h]
  cases k with
  | zero => exact next_layout h
  | succ k => rw [meets, meets, hasked]

/-- Behind the layout the same is met as in front of it. -/
theorem next_skipWhile (p : Nat) (cs : List Char) :
    ((⟨p, cs⟩ : Cursor).skipWhile Text.isLayout).2.next = (⟨p, cs⟩ : Cursor).next := by
  induction cs generalizing p with
  | nil => rfl
  | cons ch cs ih =>
    cases hl : Text.isLayout ch with
    | true => rw [skipWhile_layout hl, ih, next_layout hl]
    | false => rw [skipWhile_of_neg hl]

/-- An ending that was met once is met for ever. -/
theorem meets_of_ending (h : c.next = .ending e) (k : Nat) : c.meets k = .ending e := by
  induction k generalizing c with
  | zero => exact h
  | succ k ih =>
    refine ih ?_
    rw [asked_of_ending h]
    exact (next_skipWhile c.position c.rest).trans h

end Cursor

/-! ### Tokens and endings -/

namespace Lexes
variable {p : Nat} {cs : List Char} {ts : List Token} {e : Ending}

/-- The tokens are met in their order, and each leaves the characters behind it. -/
theorem meets_token (h : Lexes p cs ts e) {k : Nat} {t : Token} (ht : ts[k]? = some t) :
    ∃ front back, cs = front ++ back ∧ t.stop = p + front.length ∧
      (⟨p, cs⟩ : Cursor).meets k = .token t ⟨t.stop, back⟩ := by
  induction h generalizing k with
  | finish | stray => cases ht
  | @layout p c cs ts e hl _ ih =>
    obtain ⟨front, back, rfl, hstop, hmeets⟩ := ih ht
    exact ⟨c :: front, back, rfl, by rw [hstop, List.length_cons]; omega, (Cursor.meets_layout hl k).trans hmeets⟩
  | @mark p c s cs ts e hm _ ih =>
    cases k with
    | zero =>
      cases ht
      have hstop := Token.stop_ofList s [c] p
      refine ⟨[c], cs, rfl, hstop, ?_⟩
      rw [hstop]
      exact Cursor.next_mark hm
    | succ k =>
      obtain ⟨front, back, rfl, hstop, hmeets⟩ := ih ht
      refine ⟨c :: front, back, rfl, by rw [hstop, List.length_cons]; omega, ?_⟩
      rw [Cursor.meets, Cursor.asked_of_token (Cursor.next_mark hm), hmeets]
  | @word p w cs ts e hne hw hcs _ ih =>
    cases k with
    | zero =>
      cases ht
      have hstop := Token.stop_ofList (Symbol.ofWord (String.ofList w)) w p
      refine ⟨w, cs, rfl, hstop, ?_⟩
      rw [hstop]
      exact Cursor.next_word hne hw hcs
    | succ k =>
      obtain ⟨front, back, rfl, hstop, hmeets⟩ := ih ht
      refine ⟨w ++ front, back, (List.append_assoc ..).symm, by rw [hstop, List.length_append]; omega, ?_⟩
      rw [Cursor.meets, Cursor.asked_of_token (Cursor.next_word hne hw hcs), hmeets]

theorem meets_ending (h : Lexes p cs ts e) {k : Nat} (hk : ts.length ≤ k) : (⟨p, cs⟩ : Cursor).meets k = .ending e := by
  induction h generalizing k with
  | finish => exact Cursor.meets_of_ending Cursor.next_nil k
  | stray hl hm hw => exact Cursor.meets_of_ending (by rw [Cursor.next_other hl hm, hw]; rfl) k
  | layout hl _ ih => exact (Cursor.meets_layout hl k).trans (ih hk)
  | mark hm _ ih =>
    obtain ⟨k, rfl⟩ := Nat.exists_eq_succ_of_ne_zero (Nat.ne_zero_of_lt hk)
    rw [Cursor.meets, Cursor.asked_of_token (Cursor.next_mark hm)]
    exact ih (Nat.le_of_succ_le_succ hk)
  | word hne hw hcs _ ih =>
    obtain ⟨k, rfl⟩ := Nat.exists_eq_succ_of_ne_zero (Nat.ne_zero_of_lt hk)
    rw [Cursor.meets, Cursor.asked_of_token (Cursor.next_word hne hw hcs)]
    exact ih (Nat.le_of_succ_le_succ hk)

/-- A token takes a character at least. -/
theorem length_le (h : Lexes p cs ts e) : ts.length ≤ cs.length := by
  induction h with
  | finish | stray => exact Nat.zero_le _
  | layout _ _ ih => exact Nat.le_succ_of_le ih
  | mark _ _ ih => exact Nat.succ_le_succ ih
  | word hne _ _ _ ih =>
    have := List.length_pos_iff.mpr hne
    rw [List.length_cons, List.length_append]
    omega

end Lexes
end Curriculum
