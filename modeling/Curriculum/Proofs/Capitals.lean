import Curriculum.CourseId.Basic
import Curriculum.Text.Upper
import Mathlib.Data.List.Basic

/-! Capitals of all scripts and of ASCII. Some letters beyond ASCII have ASCII capitals, but there is none whose
    capitals all are letters of the word NONE. So a text that is this word in capitals is written in ASCII, and there
    the two kinds of capitals agree. -/

namespace Curriculum

namespace Text

/-- The last letter of the word in the alphabet is the O, at 79. -/
theorem ofNat_notMem_none {n : Nat} (h : 79 < n) : Char.ofNat n ∉ "NONE".toList := by
  have hcode : (Char.ofNat n).toNat = n ∨ (Char.ofNat n).toNat = 0 := by
    by_cases hn : n.isValidChar
    · exact .inl (by rw [Char.ofNat, dif_pos hn]; rfl)
    · exact .inr (by rw [Char.ofNat, dif_neg hn]; rfl)
  have hletters : ∀ c ∈ "NONE".toList, 0 < c.toNat ∧ c.toNat ≤ 79 := by simp
  intro hc
  obtain ⟨hpos, hle⟩ := hletters _ hc
  omega

/-- No letter beyond ASCII has capitals that all are letters of the word. -/
theorem lt_of_upperChar_subset {c : Char} (h : upperChar c ⊆ "NONE".toList) : c.toNat < 128 := by
  have hexpansions : ∀ e ∈ upperExpansions, ∃ code ∈ e.2, Char.ofNat code ∉ "NONE".toList := by decide +kernel
  -- The capital of a dotless i is an ASCII letter too, but none of the word.
  have hruns : ∀ run ∈ upperRuns, run.2.1 < 128 ∨ 79 < run.1 + run.2.2.2 ∨ run = (0x131, 0x131, 1, -232) := by
    decide +kernel
  unfold upperChar at h
  dsimp only at h
  split at h
  · next codes hlookup =>
    obtain ⟨front, back, htable, -⟩ := List.lookup_eq_some_iff.mp hlookup
    have hmem : (c.toNat, codes) ∈ upperExpansions := by simp [htable]
    obtain ⟨code, hcode, hnot⟩ := hexpansions _ hmem
    exact absurd (h (List.mem_map_of_mem hcode)) hnot
  · split at h
    · next first last step distance hfind =>
      have hcapital := h (List.mem_singleton_self _)
      have hrun := List.find?_some hfind
      simp only [Bool.and_eq_true, decide_eq_true_eq] at hrun
      rcases hruns _ (List.mem_of_find?_eq_some hfind) with hlast | hfar | heq
      · exact Nat.lt_of_le_of_lt hrun.1.2 hlast
      · exact absurd hcapital (ofNat_notMem_none (by simp only at hfar; omega))
      · simp only [Prod.mk.injEq] at heq
        obtain ⟨rfl, rfl, rfl, rfl⟩ := heq
        have hc : c.toNat = 0x131 := Nat.le_antisymm hrun.1.2 hrun.1.1
        rw [hc] at hcapital
        exact absurd hcapital (by decide)
    · have hascii : ∀ d ∈ "NONE".toList, d.toNat < 128 := by simp
      exact hascii c (h (List.mem_singleton_self _))

/-- Among the ASCII characters, the small letters have their own capitals and nothing else has others. -/
theorem upperChar_of_lt {c : Char} (h : c.toNat < 128) : upperChar c = [c.toUpper] := by
  have hexpansions : ∀ e ∈ upperExpansions, 128 ≤ e.1 := by decide +kernel
  have hlookup : upperExpansions.lookup c.toNat = none := by
    refine List.lookup_eq_none_iff.mpr fun e he => bne_iff_ne.mpr fun heq => ?_
    exact absurd (hexpansions e he) (Nat.not_le.mpr (heq ▸ h))
  obtain ⟨others, hruns, hothers⟩ :
      ∃ others, upperRuns = (97, 122, 1, -32) :: others ∧ ∀ run ∈ others, 128 ≤ run.1 := ⟨_, rfl, by decide +kernel⟩
  have hletters : ∀ n < 26, [Char.ofNat ((97 + n : Nat) + -32 : Int).toNat] = [(Char.ofNat (97 + n)).toUpper] := by
    decide
  unfold upperChar
  simp only [hlookup, hruns, List.find?_cons]
  by_cases hc : 97 ≤ c.toNat ∧ c.toNat ≤ 122
  · obtain ⟨n, hn⟩ := Nat.exists_eq_add_of_le hc.1
    have hcapital := hletters n (by omega)
    rw [← hn, Char.ofNat_toNat] at hcapital
    simp only [hc, Nat.mod_one, decide_true, Bool.and_true]
    exact hcapital
  · have hsmall : (97 ≤ c.toNat && c.toNat ≤ 122) = false := by simpa using hc
    have hlater : others.find? (fun run =>
        run.1 ≤ c.toNat && c.toNat ≤ run.2.1 && (c.toNat - run.1) % run.2.2.1 = 0) = none := by
      refine List.find?_eq_none.mpr fun run hrun hfound => ?_
      simp only [Bool.and_eq_true, decide_eq_true_eq] at hfound
      have := hothers run hrun
      omega
    have hsame : c.toUpper = c := dif_neg hc
    simp only [hsmall, hlater, hsame, Bool.false_and]

end Text

/-- In ASCII the two kinds of capitals agree. -/
theorem upper_eq_capitals {cs : List Char} (h : ∀ c ∈ cs, c.toNat < 128) :
    Text.upper (String.ofList cs) = capitals (String.ofList cs) := by
  rw [Text.upper, capitals, String.toList_ofList, List.flatMap_congr fun c hc => Text.upperChar_of_lt (h c hc),
    List.map_eq_flatMap]

/-- A text that becomes the word becomes it also where only ASCII letters are put into capitals. -/
theorem capitals_of_upper {cs : List Char} (h : Text.upper (String.ofList cs) = "NONE") :
    capitals (String.ofList cs) = "NONE" := by
  have hmap : cs.flatMap Text.upperChar = "NONE".toList := by
    rw [← h, Text.upper, String.toList_ofList, String.toList_ofList]
  have hascii : ∀ c ∈ cs, c.toNat < 128 := fun c hc =>
    Text.lt_of_upperChar_subset fun d hd => hmap ▸ List.mem_flatMap.mpr ⟨c, hc, hd⟩
  rw [← upper_eq_capitals hascii, h]

end Curriculum
