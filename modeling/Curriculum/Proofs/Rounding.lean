import Mathlib.Algebra.Order.Field.Power
import Mathlib.Tactic.FieldSimp
import Mathlib.Tactic.Linarith
import Mathlib.Tactic.Positivity
import Mathlib.Tactic.Ring
import Curriculum.Number.Double

/-! Which ratios are rounded to a binary64 number. The exponent at which a ratio is rounded is the only one at which
    it has the right size. A ratio in the rounding interval of a number is rounded to this number. -/

namespace Curriculum.Double

/-! ### Quotients -/

theorem roundHalfEven_cases (num den : Nat) :
    (roundHalfEven num den = num / den ∧ (2 * (num % den) < den ∨ 2 * (num % den) = den ∧ num / den % 2 = 0)) ∨
      (roundHalfEven num den = num / den + 1 ∧ (den < 2 * (num % den) ∨ 2 * (num % den) = den ∧ num / den % 2 = 1)) := by
  unfold roundHalfEven
  dsimp only
  split
  · next h =>
    simp only [Bool.or_eq_true, Bool.and_eq_true, decide_eq_true_eq] at h
    exact .inr ⟨rfl, h⟩
  · next h =>
    simp only [Bool.or_eq_true, Bool.and_eq_true, decide_eq_true_eq, not_or, not_and] at h
    omega

/-- A quotient at most a half away is rounded to the number, an odd one if it is less than a half. -/
theorem roundHalfEven_eq {num den m : Nat} (hlow : 2 * (m * den) ≤ 2 * num + den)
    (hhigh : 2 * num ≤ 2 * (m * den) + den)
    (h : m % 2 = 0 ∨ 2 * (m * den) < 2 * num + den ∧ 2 * num < 2 * (m * den) + den) (hden : 0 < den) :
    roundHalfEven num den = m := by
  have hnum : num = num / den * den + num % den := (Nat.div_add_mod' num den).symm
  have hrem : num % den < den := Nat.mod_lt num hden
  have hcases := roundHalfEven_cases num den
  generalize num / den = q at hnum hcases
  generalize num % den = r at hnum hrem hcases
  have hq : q = m ∨ q + 1 = m := by
    have hle : q ≤ m := by
      by_contra hlt
      have := Nat.mul_le_mul_right den (Nat.lt_of_not_le hlt)
      rw [Nat.succ_mul] at this
      omega
    have hge : m ≤ q + 1 := by
      by_contra hlt
      have := Nat.mul_le_mul_right den (Nat.lt_of_not_le hlt)
      rw [Nat.succ_mul, Nat.succ_mul] at this
      omega
    omega
  rcases hq with rfl | rfl
  · omega
  · rw [Nat.succ_mul q den] at hlow hhigh h
    omega

theorem le_roundHalfEven (num den : Nat) : num / den ≤ roundHalfEven num den := by
  have := roundHalfEven_cases num den
  omega

theorem roundHalfEven_le (num den : Nat) : roundHalfEven num den ≤ num / den + 1 := by
  have := roundHalfEven_cases num den
  omega

/-! ### Exponents -/

theorem two_zpow_pos (e : Int) : (0 : ℚ) < 2 ^ e := by positivity

theorem scaled_pos {den : Nat} (hden : 0 < den) (num : Nat) (e : Int) : 0 < (scaled num den e).2 := by
  unfold scaled
  split
  · exact Nat.mul_pos hden (Nat.two_pow_pos _)
  · exact hden

/-- Scaling divides by a power of two. -/
theorem scaled_div (num den : Nat) (e : Int) :
    ((scaled num den e).1 : ℚ) / (scaled num den e).2 = num / den / 2 ^ e := by
  unfold scaled
  split
  · next h =>
    obtain ⟨k, rfl⟩ := Int.eq_ofNat_of_zero_le h
    simp only [Int.toNat_natCast, Nat.pow_eq, Nat.cast_mul, Nat.cast_pow, Nat.cast_ofNat, zpow_natCast]
    rw [div_div]
  · next h =>
    obtain ⟨k, hk⟩ := Int.eq_ofNat_of_zero_le (show 0 ≤ -e by omega)
    obtain rfl : e = -k := by omega
    simp only [neg_neg, Int.toNat_natCast, Nat.pow_eq, Nat.cast_mul, Nat.cast_pow, Nat.cast_ofNat, zpow_neg, zpow_natCast]
    rw [div_inv_eq_mul, mul_div_right_comm]

theorem le_scaled_iff {num den : Nat} (hden : 0 < den) (k : Nat) (e : Int) :
    k ≤ (scaled num den e).1 / (scaled num den e).2 ↔ (k : ℚ) * 2 ^ e ≤ num / den := by
  have hpos := scaled_pos hden num e
  rw [Nat.le_div_iff_mul_le hpos, ← le_div_iff₀ (two_zpow_pos e), ← scaled_div, le_div_iff₀ (by exact_mod_cast hpos)]
  exact_mod_cast Iff.rfl

/-- The exponent at which the value is rounded: the significand has 53 bits, or fewer at the least exponent. -/
structure RoundsAt (v : ℚ) (e : Int) : Prop where
  lt : v < 2 ^ 53 * 2 ^ e
  least : -1074 ≤ e
  full : 2 ^ 52 * 2 ^ e ≤ v ∨ e = -1074

theorem RoundsAt.unique {v : ℚ} {e f : Int} (he : RoundsAt v e) (hf : RoundsAt v f) : e = f := by
  have hle : ∀ {e f : Int}, RoundsAt v e → RoundsAt v f → f ≤ e := by
    intro e f he hf
    by_contra hlt
    rcases hf.full with hfull | hfull
    · have hpow : (2 : ℚ) ^ (e + 1) ≤ 2 ^ f := zpow_le_zpow_right₀ (by norm_num) (by omega)
      rw [zpow_add_one₀ (by norm_num)] at hpow
      linarith [he.lt]
    · have := he.least
      omega
  exact le_antisymm (hle hf he) (hle he hf)

theorem two_zpow_log2 {n : Nat} (hn : n ≠ 0) : (2 : ℚ) ^ (n.log2 : Int) ≤ n ∧ (n : ℚ) < 2 ^ ((n.log2 : Int) + 1) := by
  constructor
  · rw [zpow_natCast]
    exact_mod_cast Nat.log2_self_le hn
  · rw [← Nat.cast_add_one, zpow_natCast]
    exact_mod_cast Nat.lt_log2_self

/-- The binary logarithms of its terms tell a ratio up to a factor of four. -/
theorem log2_bounds {num den : Nat} (hnum : num ≠ 0) (hden : den ≠ 0) :
    (2 : ℚ) ^ ((num.log2 : Int) - den.log2 - 1) ≤ num / den ∧ (num : ℚ) / den < 2 ^ ((num.log2 : Int) - den.log2 + 1) := by
  obtain ⟨hnumlow, hnumhigh⟩ := two_zpow_log2 hnum
  obtain ⟨hdenlow, hdenhigh⟩ := two_zpow_log2 hden
  have hdenpos : (0 : ℚ) < den := by exact_mod_cast Nat.pos_of_ne_zero hden
  constructor
  · rw [sub_sub, zpow_sub₀ two_ne_zero]
    exact div_le_div₀ (by positivity) hnumlow hdenpos hdenhigh.le
  · rw [sub_add_eq_add_sub, zpow_sub₀ two_ne_zero]
    exact (div_lt_div_of_pos_right hnumhigh hdenpos).trans_le
      (div_le_div_of_nonneg_left (by positivity) (two_zpow_pos _) hdenlow)

/-- A ratio that is not zero is rounded at its exponent to the nearest significand; one that is full moves up. -/
theorem exists_ofRatio_eq {num den : Nat} (hnum : num ≠ 0) (hden : 0 < den) : ∃ e, RoundsAt (num / den) e ∧
    ∀ negative, ofRatio negative num den =
      let q := roundHalfEven (scaled num den e).1 (scaled num den e).2
      let (q, e) := if q = 2 ^ 53 then (2 ^ 52, e + 1) else (q, e)
      if 971 < e then .infinite negative else .finite negative q e := by
  obtain ⟨hlow, hhigh⟩ := log2_bounds hnum hden.ne'
  let least : Int := max ((num.log2 : Int) - den.log2 - 53) (-1074)
  refine ⟨if 2 ^ 53 ≤ (scaled num den least).1 / (scaled num den least).2 then least + 1 else least, ?_,
    fun negative => by rw [ofRatio, if_neg hnum]; rfl⟩
  split
  · next h =>
    rw [le_scaled_iff hden] at h
    push_cast at h
    refine ⟨hhigh.trans_le ?_, by omega, .inl ?_⟩
    · rw [show (2 : ℚ) ^ 53 = 2 ^ (53 : Int) from rfl, ← zpow_add₀ two_ne_zero]
      exact zpow_le_zpow_right₀ (by norm_num) (by omega)
    · rw [zpow_add_one₀ two_ne_zero]
      linarith
  · next h =>
    rw [le_scaled_iff hden] at h
    push_cast at h
    refine ⟨lt_of_not_ge h, by omega, ?_⟩
    rcases le_or_gt ((num.log2 : Int) - den.log2 - 53) (-1074) with hle | hlt
    · exact .inr (by omega)
    · refine .inl (le_of_eq_of_le ?_ hlow)
      rw [show (2 : ℚ) ^ 52 = 2 ^ (52 : Int) from rfl, ← zpow_add₀ two_ne_zero]
      congr 1
      omega

/-! ### Numbers and their intervals -/

/-- A finite number is written with such a significand and exponent. -/
structure Representable (m : Nat) (e : Int) : Prop where
  lt : m < 2 ^ 53
  least : -1074 ≤ e
  greatest : e ≤ 971
  full : 2 ^ 52 ≤ m ∨ e = -1074

/-- Rounding comes to numbers only. -/
theorem representable_of_ofRatio {negative sign : Bool} {num den m : Nat} {e : Int} (hden : 0 < den)
    (h : ofRatio negative num den = .finite sign m e) : sign = negative ∧ Representable m e := by
  by_cases hnum : num = 0
  · rw [ofRatio, if_pos hnum] at h
    cases h
    exact ⟨rfl, by decide, by decide, by decide, .inr rfl⟩
  · obtain ⟨f, hf, hrounds⟩ := exists_ofRatio_eq hnum hden
    have hlow := le_roundHalfEven (scaled num den f).1 (scaled num den f).2
    have hhigh := roundHalfEven_le (scaled num den f).1 (scaled num den f).2
    have hlt : (scaled num den f).1 / (scaled num den f).2 < 2 ^ 53 := by
      rw [← not_le, le_scaled_iff hden, not_le]
      exact_mod_cast hf.lt
    have hfull : 2 ^ 52 ≤ (scaled num den f).1 / (scaled num den f).2 ∨ f = -1074 := by
      refine hf.full.imp_left fun hfull => (le_scaled_iff hden _ _).mpr ?_
      exact_mod_cast hfull
    have hleast := hf.least
    rw [hrounds] at h
    generalize roundHalfEven (scaled num den f).1 (scaled num den f).2 = q at hlow hhigh h
    by_cases hq : q = 2 ^ 53
    · simp only [hq, if_true] at h
      split at h
      · cases h
      · cases h
        exact ⟨rfl, by decide, by omega, by omega, .inl le_rfl⟩
    · simp only [if_neg hq] at h
      split at h
      · cases h
      · cases h
        exact ⟨rfl, by omega, by omega, by omega, by omega⟩

/-- Where the interval of a number begins, in quarters of a unit of its significand: the number below a power of two
    is twice as near. -/
def intervalStart (m : Nat) (e : Int) : Nat := if m = 2 ^ 52 ∧ -1074 < e then 4 * m - 1 else 4 * m - 2

theorem le_intervalStart (m : Nat) (e : Int) : 4 * m ≤ intervalStart m e + 2 := by
  unfold intervalStart
  split <;> omega

theorem le_intervalStart_mul (m : Nat) (e : Int) : (4 * m - 2 : ℚ) * 2 ^ (e - 2) ≤ intervalStart m e * 2 ^ (e - 2) := by
  have : (4 * m : ℚ) ≤ intervalStart m e + 2 := by exact_mod_cast le_intervalStart m e
  exact mul_le_mul_of_nonneg_right (by linarith) (two_zpow_pos _).le

theorem intervalStart_le (m : Nat) (e : Int) : intervalStart m e ≤ 4 * m := by
  unfold intervalStart
  split <;> omega

theorem intervalStart_pos {m : Nat} (hpos : 0 < m) (e : Int) : 0 < intervalStart m e := by
  unfold intervalStart
  split <;> omega

/-- The value is nearer to the number than to any other one, or it is half way and the significand is even. -/
structure Nearest (v : ℚ) (m : Nat) (e : Int) : Prop where
  above : intervalStart m e * 2 ^ (e - 2) < v ∨ m % 2 = 0 ∧ intervalStart m e * 2 ^ (e - 2) = v
  below : v < (4 * m + 2) * 2 ^ (e - 2) ∨ m % 2 = 0 ∧ v = (4 * m + 2) * 2 ^ (e - 2)

namespace Nearest
variable {v : ℚ} {m : Nat} {e : Int} (h : Nearest v m e)
include h

theorem start_le : intervalStart m e * 2 ^ (e - 2) ≤ v := h.above.elim le_of_lt fun h => h.2.le

theorem start_le' : (4 * m - 2) * 2 ^ (e - 2) ≤ v := (le_intervalStart_mul m e).trans h.start_le

theorem le_end : v ≤ (4 * m + 2) * 2 ^ (e - 2) := h.below.elim le_of_lt fun h => h.2.le

theorem pos (hpos : 0 < m) : 0 < v := by
  have hstart : (0 : ℚ) < intervalStart m e := by exact_mod_cast intervalStart_pos hpos e
  exact (mul_pos hstart (two_zpow_pos _)).trans_le h.start_le

end Nearest

theorem zpow_eq_four_mul (e : Int) : (2 : ℚ) ^ e = 4 * 2 ^ (e - 2) := by
  rw [zpow_sub₀ two_ne_zero]
  ring

/-- The rounded quotient of a scaled ratio is the significand whose interval holds the ratio. -/
theorem roundHalfEven_scaled {num den m : Nat} {e : Int} (hden : 0 < den)
    (hlow : (2 * m - 1 : ℚ) * 2 ^ e ≤ 2 * (num / den)) (hhigh : 2 * (num / den : ℚ) ≤ (2 * m + 1) * 2 ^ e)
    (h : m % 2 = 0 ∨ (2 * m - 1 : ℚ) * 2 ^ e < 2 * (num / den) ∧ 2 * (num / den : ℚ) < (2 * m + 1) * 2 ^ e) :
    roundHalfEven (scaled num den e).1 (scaled num den e).2 = m := by
  have hpos := scaled_pos hden num e
  have hdiv := scaled_div num den e
  generalize (scaled num den e).1 = n at hdiv
  generalize (scaled num den e).2 = d at hpos hdiv
  have hposq : (0 : ℚ) < d := by exact_mod_cast hpos
  have hv : 2 * (num / den : ℚ) = 2 * n / d * 2 ^ e := by
    rw [mul_div_assoc, hdiv, mul_assoc, div_mul_cancel₀ _ (two_zpow_pos e).ne']
  rw [hv] at hlow hhigh h
  simp only [mul_le_mul_iff_left₀ (two_zpow_pos e), mul_lt_mul_iff_left₀ (two_zpow_pos e), le_div_iff₀ hposq, div_le_iff₀ hposq,
    lt_div_iff₀ hposq, div_lt_iff₀ hposq] at hlow hhigh h
  refine roundHalfEven_eq ?_ ?_ (h.imp_right fun ⟨hlow, hhigh⟩ => ⟨?_, ?_⟩) hpos
  · have : (2 * (m * d) : ℚ) ≤ 2 * n + d := by linarith
    exact_mod_cast this
  · have : (2 * n : ℚ) ≤ 2 * (m * d) + d := by linarith
    exact_mod_cast this
  · have : (2 * (m * d) : ℚ) < 2 * n + d := by linarith
    exact_mod_cast this
  · have : (2 * n : ℚ) < 2 * (m * d) + d := by linarith
    exact_mod_cast this

/-- A ratio of the size of the number itself is rounded at the exponent of the number. -/
theorem rounds_at_exponent {num den m : Nat} {e : Int} (hm : Representable m e) (hden : 0 < den)
    (h : Nearest (num / den) m e) (hfull : 2 ^ 52 * 2 ^ e ≤ (num / den : ℚ) ∨ e = -1074) :
    RoundsAt (num / den) e ∧ roundHalfEven (scaled num den e).1 (scaled num den e).2 = m := by
  have hunit := two_zpow_pos (e - 2)
  have hstart := h.start_le'
  have hend := h.le_end
  refine ⟨⟨?_, hm.least, hfull⟩, roundHalfEven_scaled hden ?_ ?_ ?_⟩
  · have hlt : (m : ℚ) + 1 ≤ 2 ^ 53 := by exact_mod_cast hm.lt
    have := mul_le_mul_of_nonneg_right hlt hunit.le
    rw [zpow_eq_four_mul]
    linarith
  · rw [zpow_eq_four_mul]
    linarith
  · rw [zpow_eq_four_mul]
    linarith
  · rcases Nat.mod_two_eq_zero_or_one m with heven | hodd
    · exact .inl heven
    · have habove := h.above.resolve_right fun h => by omega
      have hbelow := h.below.resolve_right fun h => by omega
      have hle := le_intervalStart_mul m e
      rw [zpow_eq_four_mul]
      exact .inr ⟨by linarith, by linarith⟩

/-- A smaller ratio is just below a power of two, and at the exponent before the significand becomes full. -/
theorem rounds_below_power {num den m : Nat} {e : Int} (hm : Representable m e) (hden : 0 < den)
    (h : Nearest (num / den) m e) (hlt : (num / den : ℚ) < 2 ^ 52 * 2 ^ e) (hne : e ≠ -1074) :
    m = 2 ^ 52 ∧ RoundsAt (num / den) (e - 1) ∧ roundHalfEven (scaled num den (e - 1)).1 (scaled num den (e - 1)).2 = 2 ^ 53 := by
  have hunit := two_zpow_pos (e - 2)
  have hleast := hm.least
  rw [zpow_eq_four_mul] at hlt
  have hhalf : (2 : ℚ) ^ (e - 1) = 2 * 2 ^ (e - 2) := by
    rw [zpow_sub₀ two_ne_zero, zpow_sub₀ two_ne_zero]
    ring
  have hpower : m = 2 ^ 52 := by
    have hge : 2 ^ 52 ≤ m := hm.full.resolve_right hne
    by_contra hne
    have hgt : (2 ^ 52 + 1 : ℚ) ≤ m := by exact_mod_cast (by omega : 2 ^ 52 + 1 ≤ m)
    have := mul_le_mul_of_nonneg_right hgt hunit.le
    linarith [h.start_le']
  have hstart : (2 ^ 54 - 1 : ℚ) * 2 ^ (e - 2) ≤ num / den := by
    have hquarters : intervalStart m e = 2 ^ 54 - 1 := by
      unfold intervalStart
      rw [if_pos ⟨hpower, by omega⟩, hpower]
      rfl
    have := h.start_le
    rw [hquarters] at this
    exact_mod_cast this
  refine ⟨hpower, ⟨?_, by omega, .inl ?_⟩, roundHalfEven_scaled hden ?_ ?_ (.inl (by norm_num))⟩
  · rw [hhalf]
    linarith
  · rw [hhalf]
    linarith
  · rw [hhalf]
    push_cast
    linarith
  · rw [hhalf]
    push_cast
    linarith

/-- A ratio in the interval of a number is rounded to it. -/
theorem ofRatio_of_nearest {num den m : Nat} {e : Int} (hm : Representable m e) (hpos : 0 < m) (hden : 0 < den)
    (h : Nearest (num / den) m e) (negative : Bool) : ofRatio negative num den = .finite negative m e := by
  have hnum : num ≠ 0 := by
    rintro rfl
    have := h.pos hpos
    simp at this
  obtain ⟨f, hf, hrounds⟩ := exists_ofRatio_eq hnum hden
  rw [hrounds]
  by_cases hfull : 2 ^ 52 * 2 ^ e ≤ (num / den : ℚ) ∨ e = -1074
  · obtain ⟨he, hq⟩ := rounds_at_exponent hm hden h hfull
    obtain rfl := hf.unique he
    simp only [hq, if_neg hm.lt.ne, if_neg hm.greatest.not_gt]
  · -- The significand becomes full at the exponent before, and is moved up to the number.
    rw [not_or, not_le] at hfull
    obtain ⟨rfl, he, hq⟩ := rounds_below_power hm hden h hfull.1 hfull.2
    obtain rfl := hf.unique he
    simp only [hq, if_true, Int.sub_add_cancel, if_neg hm.greatest.not_gt]

end Curriculum.Double
