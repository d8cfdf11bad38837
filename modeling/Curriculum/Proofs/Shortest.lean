import Curriculum.Number.Shortest
import Curriculum.Proofs.Rounding

/-! The shortest digits of a number. They are a point of a decimal grid within the rounding interval of the number,
    and there is one, since the finest grid has steps smaller than the interval. -/

namespace Curriculum.Double

/-! ### Points of a decimal grid -/

theorem pow_toNat_div (b : ℚ) (k : Int) : b ^ k.toNat / b ^ (-k).toNat = b ^ k := by
  rcases le_total 0 k with h | h
  · obtain ⟨n, rfl⟩ := Int.eq_ofNat_of_zero_le h
    simp
  · obtain ⟨n, hn⟩ := Int.eq_ofNat_of_zero_le (show 0 ≤ -k by omega)
    obtain rfl : k = -n := by omega
    simp

/-- A step of the grid and a quarter of a unit, as natural numbers of one size. -/
theorem grid_step (e k : Int) :
    ((Nat.pow 10 k.toNat * Nat.pow 2 (-(e - 2)).toNat : Nat) : ℚ) * 2 ^ (e - 2) =
      (Nat.pow 10 (-k).toNat * Nat.pow 2 (e - 2).toNat : Nat) * 10 ^ k := by
  rw [← pow_toNat_div 2 (e - 2), ← pow_toNat_div 10 k]
  simp only [Nat.pow_eq, Nat.cast_mul, Nat.cast_pow, Nat.cast_ofNat]
  field_simp

/-- A point that is found is the last one up to the value, above the start of the interval, or the first one behind
    the value, below the end of the interval. -/
theorem gridPoint?_cases {m n num den : Nat} {e k : Int} (hnum : num = Nat.pow 10 k.toNat * Nat.pow 2 (-(e - 2)).toNat)
    (hden : den = Nat.pow 10 (-k).toNat * Nat.pow 2 (e - 2).toNat) (h : gridPoint? m e k = some n) :
    (n * num ≤ 4 * m * den ∧
      (intervalStart m e * den < n * num ∨ m % 2 = 0 ∧ intervalStart m e * den = n * num)) ∨
    (4 * m * den < n * num ∧ (n * num < (4 * m + 2) * den ∨ m % 2 = 0 ∧ n * num = (4 * m + 2) * den)) := by
  have hpos : 0 < num := hnum ▸ Nat.mul_pos (Nat.pow_pos (by decide)) (Nat.pow_pos (by decide))
  have hbelow : 4 * m * den / num * num ≤ 4 * m * den := Nat.div_mul_le_self ..
  have habove : 4 * m * den < (4 * m * den / num + 1) * num := by
    rw [Nat.mul_comm _ num]
    exact Nat.lt_mul_div_succ _ hpos
  unfold gridPoint? at h
  dsimp only at h
  rw [← hnum, ← hden] at h
  split at h
  · cases h
  · next hhits _ =>
    cases h
    simp only [Bool.or_eq_true, Bool.and_eq_true, decide_eq_true_eq] at hhits
    exact .inl ⟨hbelow, hhits⟩
  · next _ hhits =>
    cases h
    simp only [Bool.or_eq_true, Bool.and_eq_true, decide_eq_true_eq] at hhits
    exact .inr ⟨habove, hhits⟩
  · next hhits hhits' =>
    simp only [Bool.or_eq_true, Bool.and_eq_true, decide_eq_true_eq] at hhits hhits'
    split at h
    · cases h
      exact .inl ⟨hbelow, hhits⟩
    · cases h
      exact .inr ⟨habove, hhits'⟩

/-- A point that is found on the grid is rounded to the number. -/
theorem nearest_of_gridPoint? {m n : Nat} {e k : Int} (h : gridPoint? m e k = some n) : Nearest (n * 10 ^ k) m e := by
  -- The point and the quarters of a unit are compared over a common denominator.
  have hcases := gridPoint?_cases rfl rfl h
  have hden : 0 < Nat.pow 10 (-k).toNat * Nat.pow 2 (e - 2).toNat :=
    Nat.mul_pos (Nat.pow_pos (by decide)) (Nat.pow_pos (by decide))
  have hstep := grid_step e k
  generalize Nat.pow 10 k.toNat * Nat.pow 2 (-(e - 2)).toNat = num at hcases hstep
  generalize Nat.pow 10 (-k).toNat * Nat.pow 2 (e - 2).toNat = den at hcases hden hstep
  have hdenq : (0 : ℚ) < den := by exact_mod_cast hden
  have hunit := two_zpow_pos (e - 2)
  have hpoint : (n * 10 ^ k : ℚ) = (n * num : Nat) / den * 2 ^ (e - 2) := by
    rw [Nat.cast_mul, div_mul_eq_mul_div, mul_assoc (n : ℚ), hstep, mul_left_comm, mul_div_cancel_left₀ _ hdenq.ne']
  have hquarters : ∀ a : Nat, (a : ℚ) * 2 ^ (e - 2) = (a * den : Nat) / den * 2 ^ (e - 2) := fun a => by
    rw [Nat.cast_mul, mul_div_cancel_right₀ _ hdenq.ne']
  have hend : (4 * m + 2 : ℚ) = (4 * m + 2 : Nat) := by push_cast; rfl
  have hlt : ∀ x y : Nat, (x / den * 2 ^ (e - 2) : ℚ) < y / den * 2 ^ (e - 2) ↔ x < y := fun x y => by
    rw [mul_lt_mul_iff_left₀ hunit, div_lt_div_iff_of_pos_right hdenq, Nat.cast_lt]
  have heq : ∀ x y : Nat, (x / den * 2 ^ (e - 2) : ℚ) = y / den * 2 ^ (e - 2) ↔ x = y := fun x y => by
    rw [mul_left_inj' hunit.ne', div_left_inj' hdenq.ne', Nat.cast_inj]
  refine ⟨?_, ?_⟩
  · rw [hpoint, hquarters, hlt, heq]
    rcases hcases with ⟨-, habove⟩ | ⟨hbehind, -⟩
    · exact habove
    · exact .inl ((Nat.mul_le_mul_right den (intervalStart_le m e)).trans_lt hbehind)
  · rw [hend, hpoint, hquarters, hlt, heq]
    rcases hcases with ⟨hupto, -⟩ | ⟨-, hbelow⟩
    · exact .inl (hupto.trans_lt (Nat.mul_lt_mul_of_pos_right (by omega) hden))
    · exact hbelow

/-- A grid of quarters of a unit, or a finer one, has a point in the interval. -/
theorem exists_gridPoint? {m : Nat} {e k : Int} (hpos : 0 < m) (h : (10 : ℚ) ^ k ≤ 2 ^ (e - 2)) :
    ∃ n, gridPoint? m e k = some n := by
  have hnum : 0 < Nat.pow 10 k.toNat * Nat.pow 2 (-(e - 2)).toNat := Nat.mul_pos (Nat.pow_pos (by decide)) (Nat.pow_pos (by decide))
  have hstep := grid_step e k
  unfold gridPoint?
  dsimp only
  generalize Nat.pow 10 k.toNat * Nat.pow 2 (-(e - 2)).toNat = num at hnum hstep
  generalize Nat.pow 10 (-k).toNat * Nat.pow 2 (e - 2).toNat = den at hstep
  have hle : num ≤ den := by
    have := mul_le_mul_of_nonneg_left h (show (0 : ℚ) ≤ den from Nat.cast_nonneg den)
    rw [← hstep, mul_le_mul_iff_left₀ (two_zpow_pos _)] at this
    exact_mod_cast this
  have hhit : intervalStart m e * den < 4 * m * den / num * num := by
    have hstart : intervalStart m e + 1 ≤ 4 * m := by
      unfold intervalStart
      split <;> omega
    have hroom := Nat.mul_le_mul_right den hstart
    have hlast := Nat.lt_mul_div_succ (4 * m * den) hnum
    rw [Nat.add_one_mul (intervalStart m e)] at hroom
    rw [Nat.mul_comm num, Nat.add_one_mul (4 * m * den / num)] at hlast
    omega
  split
  · next hmiss _ =>
    simp only [Bool.or_eq_false_iff, Bool.and_eq_true, decide_eq_false_iff_not, decide_eq_true_eq] at hmiss
    exact absurd hhit hmiss.1
  · exact ⟨_, rfl⟩
  · exact ⟨_, rfl⟩
  · split
    · exact ⟨_, rfl⟩
    · exact ⟨_, rfl⟩

theorem ten_zpow_le : (10 : ℚ) ^ (-324 : Int) ≤ 2 ^ (-1076 : Int) := by
  have h : (10 : ℚ) ^ (-81 : Int) ≤ 2 ^ (-135 : Int) * 2 ^ (-134 : Int) := by norm_num
  calc (10 : ℚ) ^ (-324 : Int) = (10 ^ (-81 : Int)) ^ (4 : Int) := by
        rw [← zpow_mul]
        rfl
    _ ≤ (2 ^ (-135 : Int) * 2 ^ (-134 : Int)) ^ (4 : Int) := zpow_le_zpow_left₀ (by decide) (by positivity) h
    _ = 2 ^ (-1076 : Int) := by
        rw [← zpow_add₀ two_ne_zero, ← zpow_mul]
        rfl

theorem two_zpow_lt : (2 : ℚ) ^ (55 : Int) * 2 ^ (969 : Int) < 10 ^ (309 : Int) := by
  have h : (2 : ℚ) ^ (93 : Int) ≤ 10 ^ (28 : Int) := by norm_num
  calc (2 : ℚ) ^ (55 : Int) * 2 ^ (969 : Int) = (2 ^ (93 : Int)) ^ (11 : Int) * 2 := by
        rw [← zpow_add₀ two_ne_zero, ← zpow_mul, ← zpow_add_one₀ two_ne_zero]
        rfl
    _ ≤ (10 ^ (28 : Int)) ^ (11 : Int) * 2 := by
        have := zpow_le_zpow_left₀ (show (0 : Int) ≤ 11 by decide) (two_zpow_pos 93).le h
        linarith
    _ < (10 ^ (28 : Int)) ^ (11 : Int) * 10 := by gcongr; norm_num
    _ = 10 ^ (309 : Int) := by
        rw [← zpow_mul, ← zpow_add_one₀ (by norm_num)]
        rfl

/-- A decimal that is rounded to a number is below the greatest power of ten. -/
theorem le_of_nearest {m n : Nat} {e k : Int} (hm : Representable m e) (hn : 0 < n) (h : Nearest (n * 10 ^ k) m e) :
    k ≤ 308 := by
  by_contra hk
  have hten : (10 : ℚ) ^ (309 : Int) ≤ 10 ^ k := zpow_le_zpow_right₀ (by norm_num) (by omega)
  have hone : (10 ^ k : ℚ) ≤ n * 10 ^ k := le_mul_of_one_le_left (by positivity) (by exact_mod_cast hn)
  have hsize : (n * 10 ^ k : ℚ) ≤ 2 ^ (55 : Int) * 2 ^ (969 : Int) := by
    have hsignificand : (4 * m + 2 : ℚ) ≤ 2 ^ (55 : Int) := by
      have : (4 * m + 2 : Nat) ≤ (2 ^ 55 : Nat) := by linarith [hm.lt]
      exact_mod_cast this
    have hunit : (2 : ℚ) ^ (e - 2) ≤ 2 ^ (969 : Int) := zpow_le_zpow_right₀ (by norm_num) (by linarith [hm.greatest])
    exact h.le_end.trans (mul_le_mul hsignificand hunit (two_zpow_pos _).le (two_zpow_pos _).le)
  exact (hten.trans (hone.trans hsize)).not_gt two_zpow_lt

/-- The digits that are found are rounded to the number. -/
theorem shortestDigits_spec {m : Nat} {e : Int} (hm : Representable m e) (hpos : 0 < m) : ∃ n k,
    shortestDigits m e = (n, k) ∧ Nearest (n * 10 ^ k) m e ∧ -324 ≤ k ∧ k ≤ 308 := by
  have hfinest : ∃ n, gridPoint? m e (-324) = some n := by
    refine exists_gridPoint? hpos (ten_zpow_le.trans ?_)
    exact zpow_le_zpow_right₀ (by norm_num) (by linarith [hm.least])
  -- The search ends on the finest grid, if on no coarser one before.
  have hfound : ∃ n k, shortestDigits m e = (n, k) ∧ gridPoint? m e k = some n ∧ -324 ≤ k := by
    unfold shortestDigits
    dsimp only
    generalize hgrids : (List.range 634).map (fun (i : Nat) => (309 : Int) - i) = grids
    have hgrid : ∀ k ∈ grids, -324 ≤ k := by
      subst hgrids
      simp only [List.mem_map, List.mem_range]
      rintro k ⟨i, hi, rfl⟩
      omega
    have hmem : -324 ∈ grids := by
      subst hgrids
      exact List.mem_map.mpr ⟨633, List.mem_range.mpr (by decide), rfl⟩
    cases hsearch : grids.findSome? fun k => (gridPoint? m e k).map (·, k) with
    | none =>
      obtain ⟨n, hn⟩ := hfinest
      have := List.findSome?_eq_none_iff.mp hsearch _ hmem
      rw [hn] at this
      cases this
    | some p =>
      obtain ⟨k, hk, hp⟩ := List.exists_of_findSome?_eq_some hsearch
      obtain ⟨n, hn, rfl⟩ := Option.map_eq_some_iff.mp hp
      exact ⟨n, k, rfl, hn, hgrid k hk⟩
  obtain ⟨n, k, hdigits, hpoint, hk⟩ := hfound
  have hnearest := nearest_of_gridPoint? hpoint
  have hn : 0 < n := by
    have := hnearest.pos hpos
    exact_mod_cast pos_of_mul_pos_left this (by positivity)
  exact ⟨n, k, hdigits, hnearest, hk, le_of_nearest hm hn hnearest⟩

end Curriculum.Double
