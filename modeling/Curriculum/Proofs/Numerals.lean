import Curriculum.Graph.Row
import Curriculum.Proofs.Shortest

/-! The text of a number is read as the number again. However its digits are laid out, what is read has the value of
    the digits, and this is rounded to the number. -/

namespace Curriculum.Decimal

/-! ### Reading digits -/

/-- The characters are digits from `0` to `9`. -/
def AllDigits (cs : List Char) : Prop := ∀ c ∈ cs, Text.isAsciiDigit c = true

theorem AllDigits.append {cs ds : List Char} (h : AllDigits cs) (h' : AllDigits ds) : AllDigits (cs ++ ds) :=
  fun c hc => (List.mem_append.mp hc).elim (h c) (h' c)

theorem allDigits_nil : AllDigits [] := fun _ hc => absurd hc List.not_mem_nil

theorem allDigits_replicate (k : Nat) : AllDigits (List.replicate k '0') := fun c hc => by
  rw [List.eq_of_mem_replicate hc]
  decide

theorem allDigits_repr (n : Nat) : AllDigits n.repr.toList := by
  intro c hc
  rw [Nat.repr_eq_ofList_toDigits, String.toList_ofList] at hc
  have := Nat.isDigit_of_mem_toDigits (by decide) (by decide) hc
  simp only [Char.isDigit, Bool.and_eq_true, decide_eq_true_eq, ge_iff_le] at this
  simp only [Text.isAsciiDigit, Bool.and_eq_true, decide_eq_true_eq]
  exact this

theorem repr_ne_nil (n : Nat) : n.repr.toList ≠ [] := by
  rw [Nat.repr_eq_ofList_toDigits, String.toList_ofList]
  exact Nat.toDigits_ne_nil

theorem valueOf_repr (n : Nat) : valueOf n.repr.toList = n := by
  rw [Nat.repr_eq_ofList_toDigits, String.toList_ofList]
  exact Nat.ofDigitChars_toDigits (by decide) (by decide)

theorem valueOf_append (cs ds : List Char) : valueOf (cs ++ ds) = valueOf cs * 10 ^ ds.length + valueOf ds := by
  change Nat.ofDigitChars 10 (cs ++ ds) 0 = Nat.ofDigitChars 10 cs 0 * 10 ^ ds.length + Nat.ofDigitChars 10 ds 0
  rw [Nat.ofDigitChars_append, Nat.ofDigitChars_eq_ofDigitChars_zero, Nat.mul_comm]

theorem valueOf_replicate (k : Nat) : valueOf (List.replicate k '0') = 0 := by
  change Nat.ofDigitChars 10 (List.replicate k '0') 0 = 0
  rw [Nat.ofDigitChars_replicate_zero, Nat.mul_zero]

/-! ### Reading decimals -/

/-- The power of ten that stands behind the digits; where nothing stands there, it is zero. -/
def powerIn? : List Char → Option Int
  | [] => some 0
  | _ :: power => readPower? power

theorem powerIn?_written (power : Int) : powerIn? ('e' :: (if power < 0 then '-' else '+') ::
    (if power.natAbs.repr.toList.length < 2 then '0' :: power.natAbs.repr.toList else power.natAbs.repr.toList)) = some power := by
  have hsize : ∃ size, (if power.natAbs.repr.toList.length < 2 then '0' :: power.natAbs.repr.toList
      else power.natAbs.repr.toList) = size ∧ size ≠ [] ∧ AllDigits size ∧ valueOf size = power.natAbs := by
    refine ⟨_, rfl, ?_⟩
    split
    · refine ⟨nofun, (allDigits_replicate 1).append (allDigits_repr _), ?_⟩
      rw [← List.singleton_append, valueOf_append, valueOf_repr]
      exact Nat.add_eq_right.mpr (Nat.zero_mul _)
    · exact ⟨repr_ne_nil _, allDigits_repr _, valueOf_repr _⟩
  obtain ⟨size, hwritten, hne, hall, hvalue⟩ := hsize
  have hread : (size.isEmpty || !size.all Text.isAsciiDigit) = false := by
    rw [Bool.or_eq_false_iff, Bool.not_eq_false']
    exact ⟨List.isEmpty_eq_false_iff.mpr hne, List.all_eq_true.mpr hall⟩
  rw [hwritten, powerIn?, readPower?]
  by_cases hpower : power < 0
  · simp only [if_pos hpower, takeSign, hread, hvalue, Bool.false_eq_true, if_false, if_true]
    congr 1
    omega
  · simp only [if_neg hpower, takeSign, hread, hvalue, Bool.false_eq_true, if_false]
    congr 1
    omega

/-- A decimal is read in parts: its whole digits, those behind the point, and the power. -/
theorem read?_of_parts (whole point part tail : List Char) {cs : List Char} {negative : Bool}
    (hs : takeSign cs = (negative, whole ++ (point ++ tail))) (hwhole : AllDigits whole) (hne : whole ≠ [])
    (hpart : AllDigits part) (hpoint : point = '.' :: part ∨ point = [] ∧ part = [])
    (htail : tail = [] ∨ ∃ power, tail = 'e' :: power) :
    read? cs = (powerIn? tail).map fun power => ⟨negative, valueOf (whole ++ part), power - part.length⟩ := by
  have hstop : tail.takeWhile Text.isAsciiDigit = [] ∧ tail.dropWhile Text.isAsciiDigit = tail := by
    rcases htail with rfl | ⟨power, rfl⟩ <;> exact ⟨rfl, rfl⟩
  have hpointstop : (point ++ tail).takeWhile Text.isAsciiDigit = [] ∧ (point ++ tail).dropWhile Text.isAsciiDigit = point ++ tail := by
    rcases hpoint with rfl | ⟨rfl, -⟩
    · exact ⟨rfl, rfl⟩
    · exact hstop
  unfold read?
  rw [hs]
  simp only [List.takeWhile_append_of_pos hwhole, List.dropWhile_append_of_pos hwhole, hpointstop, List.append_nil]
  rcases hpoint with rfl | ⟨rfl, rfl⟩
  · simp only [List.cons_append, List.takeWhile_append_of_pos hpart, List.dropWhile_append_of_pos hpart, hstop, List.append_nil]
    rcases htail with rfl | ⟨power, rfl⟩
    · simp [hne, powerIn?]
    · simp [hne, powerIn?]
  · rcases htail with rfl | ⟨power, rfl⟩
    · simp [hne, powerIn?]
    · simp [hne, powerIn?]

/-- The characters write `± digits · 10 ^ exponent`; where the last digit stands before the point, a zero may follow
    behind it. -/
def Writes (cs : List Char) (negative : Bool) (digits : Nat) (exponent : Int) : Prop :=
  ∃ d, read? cs = some d ∧ d.negative = negative ∧ (d.digits * 10 ^ d.exponent : ℚ) = digits * 10 ^ exponent ∧
    (d.exponent = exponent ∨ d.exponent = -1)

theorem writes_of_parts (whole point part tail : List Char) {cs : List Char} {negative : Bool} {power : Int}
    (hs : takeSign cs = (negative, whole ++ (point ++ tail))) (hwhole : AllDigits whole) (hne : whole ≠ [])
    (hpart : AllDigits part) (hpoint : point = '.' :: part ∨ point = [] ∧ part = [])
    (htail : tail = [] ∨ ∃ power, tail = 'e' :: power) (hpower : powerIn? tail = some power) :
    Writes cs negative (valueOf (whole ++ part)) (power - part.length) := by
  refine ⟨⟨negative, valueOf (whole ++ part), power - part.length⟩, ?_, rfl, rfl, .inl rfl⟩
  rw [read?_of_parts _ _ _ _ hs hwhole hne hpart hpoint htail, hpower]
  rfl

section
variable {cs digits : List Char} {negative : Bool} {point : Int} (hdigits : AllDigits digits)
include hdigits

theorem writes_fraction {zeros : Nat} (hs : takeSign cs = (negative, '0' :: '.' :: (List.replicate zeros '0' ++ digits))) :
    Writes cs negative (valueOf digits) (-(zeros + digits.length : Nat)) := by
  have hvalue : valueOf (['0'] ++ (List.replicate zeros '0' ++ digits)) = valueOf digits := by
    rw [valueOf_append, valueOf_append, valueOf_replicate, Nat.zero_mul, Nat.zero_add]
    exact Nat.add_eq_right.mpr (Nat.zero_mul _)
  have hwrites := writes_of_parts ['0'] _ _ [] (by simpa using hs) (allDigits_replicate 1) nofun
    ((allDigits_replicate zeros).append hdigits) (.inl rfl) (.inl rfl) rfl
  rwa [hvalue, List.length_append, List.length_replicate, Int.zero_sub] at hwrites

variable (hne : digits ≠ [])
include hne

/-- The zero behind the point is read as a digit. -/
theorem writes_padded {zeros : Nat} (hs : takeSign cs = (negative, (digits ++ List.replicate zeros '0') ++ ['.', '0'])) :
    Writes cs negative (valueOf digits) zeros := by
  have hread := read?_of_parts _ ['.', '0'] _ [] (by simpa using hs) (hdigits.append (allDigits_replicate zeros))
    (by simp [hne]) (allDigits_replicate 1) (.inl rfl) (.inl rfl)
  refine ⟨_, hread, rfl, ?_, .inr rfl⟩
  simp only [valueOf_append, valueOf_replicate, List.length_replicate]
  push_cast
  rw [zpow_natCast, add_zero, add_zero, mul_assoc, show (10 : ℚ) * 10 ^ (-1 : Int) = 1 by norm_num, mul_one]

theorem writes_positional (hs : takeSign cs = (negative, Double.positional digits point)) :
    Writes cs negative (valueOf digits) (point - digits.length) := by
  unfold Double.positional at hs
  split at hs
  · next hpoint =>
    have hwrites := writes_fraction hdigits hs
    rwa [show -((-point).toNat + digits.length : Nat) = point - digits.length by omega] at hwrites
  · next hpoint =>
    dsimp only at hs
    split at hs
    · next hdrop =>
      have hlen : digits.length ≤ point.toNat := List.drop_eq_nil_iff.mp hdrop
      rw [List.take_of_length_le hlen] at hs
      have hwrites := writes_padded hdigits hne hs
      rwa [show ((point.toNat - digits.length : Nat) : Int) = point - digits.length by omega] at hwrites
    · next hdrop =>
      have hlen : point.toNat < digits.length := by
        by_contra hle
        exact hdrop (List.drop_eq_nil_iff.mpr (Nat.le_of_not_lt hle))
      rw [Nat.sub_eq_zero_of_le hlen.le, List.replicate_zero, List.append_nil] at hs
      have htake : AllDigits (digits.take point.toNat) := fun c hc => hdigits c (List.mem_of_mem_take hc)
      have hwrites := writes_of_parts _ _ _ [] (by simpa using hs) htake (by simp [hne]; omega)
        (fun c hc => hdigits c (List.mem_of_mem_drop hc)) (.inl rfl) (.inl rfl) rfl
      rw [List.take_append_drop, List.length_drop] at hwrites
      rwa [show (0 : Int) - (digits.length - point.toNat : Nat) = point - digits.length by omega] at hwrites

theorem writes_scientific (hs : takeSign cs = (negative, Double.scientific digits point)) :
    Writes cs negative (valueOf digits) (point - digits.length) := by
  have hpower := powerIn?_written (point - 1)
  unfold Double.scientific at hs
  dsimp only at hs
  split at hs
  · next first second rest =>
    have hwrites := writes_of_parts [first] ('.' :: second :: rest) _ _ hs
      (fun c hc => hdigits c (List.mem_singleton.mp hc ▸ List.mem_cons_self ..)) nofun
      (fun c hc => hdigits c (List.mem_cons_of_mem _ hc)) (.inl rfl) (.inr ⟨_, rfl⟩) hpower
    rwa [List.singleton_append, show point - 1 - ((second :: rest).length : Int) = point - (first :: second :: rest).length by
      simp only [List.length_cons]; omega] at hwrites
  · next hshort =>
    have hlen : digits.length = 1 := by
      cases digits with
      | nil => exact absurd rfl hne
      | cons c cs =>
        cases cs with
        | nil => rfl
        | cons d ds => exact absurd rfl (hshort c d ds)
    have hwrites := writes_of_parts _ [] _ _ hs hdigits hne allDigits_nil (.inr ⟨rfl, rfl⟩) (.inr ⟨_, rfl⟩) hpower
    rwa [List.append_nil, List.length_nil, show point - 1 - ((0 : Nat) : Int) = point - digits.length by omega] at hwrites

end

/-- A text that begins with a digit. -/
def BeginsWithDigit (cs : List Char) : Prop := ∃ c ds, cs = c :: ds ∧ Text.isAsciiDigit c = true

theorem beginsWithDigit_append {cs : List Char} (hall : AllDigits cs) (hne : cs ≠ []) (rest : List Char) :
    BeginsWithDigit (cs ++ rest) := by
  cases cs with
  | nil => exact absurd rfl hne
  | cons c cs => exact ⟨c, cs ++ rest, rfl, hall c (List.mem_cons_self ..)⟩

theorem beginsWithDigit_positional {digits : List Char} (hdigits : AllDigits digits) (hne : digits ≠ []) (point : Int) :
    BeginsWithDigit (Double.positional digits point) := by
  unfold Double.positional
  split
  · exact ⟨'0', _, rfl, by decide⟩
  · next hpoint =>
    have hwhole : AllDigits (digits.take point.toNat ++ List.replicate (point.toNat - digits.length) '0') :=
      AllDigits.append (fun c hc => hdigits c (List.mem_of_mem_take hc)) (allDigits_replicate _)
    have htake : digits.take point.toNat ++ List.replicate (point.toNat - digits.length) '0' ≠ [] := by
      simp [hne]
      omega
    dsimp only
    split
    · exact beginsWithDigit_append hwhole htake _
    · exact beginsWithDigit_append hwhole htake _

theorem beginsWithDigit_scientific {digits : List Char} (hdigits : AllDigits digits) (hne : digits ≠ []) (point : Int) :
    BeginsWithDigit (Double.scientific digits point) := by
  unfold Double.scientific
  dsimp only
  split
  · next first _ _ => exact ⟨first, _, rfl, hdigits _ (List.mem_cons_self ..)⟩
  · exact beginsWithDigit_append hdigits hne _

theorem takeSign_signed {cs : List Char} (h : BeginsWithDigit cs) (negative : Bool) :
    takeSign (if negative then '-' :: cs else cs) = (negative, cs) := by
  obtain ⟨c, ds, rfl, hc⟩ := h
  cases negative with
  | true => rfl
  | false =>
    rw [if_neg Bool.false_ne_true]
    unfold takeSign
    split
    · next h =>
      cases h
      cases hc
    · next h =>
      cases h
      cases hc
    · rfl

/-- The text of a number is its sign and the digits that were found for it, laid out in one of two ways. -/
theorem exists_takeSign_text {m n : Nat} {e k : Int} (hpos : 0 < m) (h : Double.shortestDigits m e = (n, k))
    (negative : Bool) : ∃ cs, takeSign (Double.text (.finite negative m e)).toList = (negative, cs) ∧ BeginsWithDigit cs ∧
      (cs = Double.positional n.repr.toList (n.repr.toList.length + k) ∨
        cs = Double.scientific n.repr.toList (n.repr.toList.length + k)) := by
  have hdigits := allDigits_repr n
  have hne := repr_ne_nil n
  rw [Double.text, if_neg hpos.ne', h, String.toList_ofList]
  dsimp only
  generalize (decide (-4 < (n.repr.toList.length + k : Int)) && decide ((n.repr.toList.length + k : Int) ≤ 16)) = near
  cases near with
  | true =>
    have hbegins := beginsWithDigit_positional hdigits hne (n.repr.toList.length + k)
    exact ⟨_, takeSign_signed hbegins negative, hbegins, .inl rfl⟩
  | false =>
    have hbegins := beginsWithDigit_scientific hdigits hne (n.repr.toList.length + k)
    exact ⟨_, takeSign_signed hbegins negative, hbegins, .inr rfl⟩

/-- The characters of numbers: digits, points, powers and signs. -/
def IsPlain (c : Char) : Prop := Text.isAsciiDigit c = true ∨ c ∈ ['.', 'e', '+', '-']

theorem AllDigits.isPlain {cs : List Char} (h : AllDigits cs) : ∀ c ∈ cs, IsPlain c := fun c hc => .inl (h c hc)

theorem isPlain_zero : IsPlain '0' := .inl (by decide)

theorem isPlain_mark {c : Char} (h : c ∈ ['.', 'e', '+', '-']) : IsPlain c := .inr h

theorem isPlain_positional {digits : List Char} (hdigits : AllDigits digits) (point : Int) :
    ∀ c ∈ Double.positional digits point, IsPlain c := by
  have htake : AllDigits (digits.take point.toNat) := fun c hc => hdigits c (List.mem_of_mem_take hc)
  have hdrop : AllDigits (digits.drop point.toNat) := fun c hc => hdigits c (List.mem_of_mem_drop hc)
  have hpoint : IsPlain '.' := isPlain_mark (by decide)
  unfold Double.positional
  split
  · simp only [List.forall_mem_cons, List.forall_mem_append]
    exact ⟨isPlain_zero, hpoint, (allDigits_replicate _).isPlain, hdigits.isPlain⟩
  · dsimp only
    split
    · simp only [List.forall_mem_cons, List.forall_mem_append]
      exact ⟨⟨htake.isPlain, (allDigits_replicate _).isPlain⟩, hpoint, isPlain_zero, List.forall_mem_nil _⟩
    · simp only [List.forall_mem_cons, List.forall_mem_append]
      exact ⟨⟨htake.isPlain, (allDigits_replicate _).isPlain⟩, hpoint, hdrop.isPlain⟩

theorem isPlain_scientific {digits : List Char} (hdigits : AllDigits digits) (point : Int) :
    ∀ c ∈ Double.scientific digits point, IsPlain c := by
  have hpower : ∀ power : Int, ∀ c ∈ 'e' :: (if power < 0 then '-' else '+') ::
      (if power.natAbs.repr.toList.length < 2 then '0' :: power.natAbs.repr.toList else power.natAbs.repr.toList), IsPlain c := by
    intro power
    simp only [List.forall_mem_cons]
    refine ⟨isPlain_mark (by decide), ?_, ?_⟩
    · split <;> exact isPlain_mark (by decide)
    · split
      · exact List.forall_mem_cons.mpr ⟨isPlain_zero, (allDigits_repr _).isPlain⟩
      · exact (allDigits_repr _).isPlain
  unfold Double.scientific
  refine List.forall_mem_append.mpr ⟨?_, hpower _⟩
  split
  · obtain ⟨hfirst, hrest⟩ := List.forall_mem_cons.mp hdigits.isPlain
    exact List.forall_mem_cons.mpr ⟨hfirst, List.forall_mem_cons.mpr ⟨isPlain_mark (by decide), hrest⟩⟩
  · exact hdigits.isPlain

theorem isPlain_text (negative : Bool) (m : Nat) (e : Int) : ∀ c ∈ (Double.text (.finite negative m e)).toList, IsPlain c := by
  rw [Double.text, String.toList_ofList]
  have hunsigned : ∀ cs : List Char, (∀ c ∈ cs, IsPlain c) → ∀ c ∈ if negative then '-' :: cs else cs, IsPlain c := by
    intro cs hcs
    cases negative with
    | true => exact List.forall_mem_cons.mpr ⟨isPlain_mark (by decide), hcs⟩
    | false => exact hcs
  refine hunsigned _ ?_
  split
  · exact List.forall_mem_cons.mpr ⟨isPlain_zero, List.forall_mem_cons.mpr ⟨isPlain_mark (by decide), (allDigits_replicate 1).isPlain⟩⟩
  · dsimp only
    split
    · exact isPlain_positional (allDigits_repr _) _
    · exact isPlain_scientific (allDigits_repr _) _

theorem isPlain_int (n : Int) : ∀ c ∈ (toString n).toList, IsPlain c := by
  rw [Int.toString_eq_repr, Int.repr_eq_if]
  split
  · exact (allDigits_repr _).isPlain
  · rw [String.toList_append]
    exact List.forall_mem_append.mpr
      ⟨fun c hc => isPlain_mark (List.mem_singleton.mp hc ▸ by decide), (allDigits_repr _).isPlain⟩

theorem trim_of_isPlain {text : String} (h : ∀ c ∈ text.toList, IsPlain c) : Text.trim text = text := by
  have hblank : ∀ c ∈ text.toList, Text.isBlank c = false := by
    intro c hc
    rcases h c hc with hdigit | hmark
    · simp only [Text.isAsciiDigit, Bool.and_eq_true, decide_eq_true_eq] at hdigit
      have hlow : 48 ≤ c.toNat := hdigit.1
      have hhigh : c.toNat ≤ 57 := hdigit.2
      simp only [Text.isBlank, Bool.or_eq_false_iff, Bool.and_eq_false_iff, decide_eq_false_iff_not]
      omega
    · simp only [List.mem_cons, List.not_mem_nil, or_false] at hmark
      rcases hmark with rfl | rfl | rfl | rfl <;> decide
  rw [Text.trim, Text.trimEnds_eq_self hblank, String.ofList_toList]

/-- The decimal that is read is rounded to the number that was written. -/
theorem toDouble_of_nearest {d : Decimal} {m : Nat} {e : Int} (hm : Double.Representable m e) (hpos : 0 < m)
    (h : Double.Nearest (d.digits * 10 ^ d.exponent) m e) (hlow : -324 ≤ d.exponent) (hhigh : d.exponent ≤ 308) :
    d.toDouble = .finite d.negative m e := by
  have hdigits : d.digits ≠ 0 := by
    intro hzero
    have := h.pos hpos
    simp [hzero] at this
  unfold toDouble Double.ofDecimal
  dsimp only
  rw [if_neg hdigits, if_neg (by omega), if_neg (by omega)]
  split
  · next hexponent =>
    obtain ⟨k, hk⟩ := Int.eq_ofNat_of_zero_le hexponent
    refine Double.ofRatio_of_nearest hm hpos Nat.one_pos ?_ _
    rw [hk] at h ⊢
    simpa using h
  · next hexponent =>
    obtain ⟨k, hk⟩ := Int.eq_ofNat_of_zero_le (show 0 ≤ -d.exponent by omega)
    refine Double.ofRatio_of_nearest hm hpos (Nat.pow_pos (by decide)) ?_ _
    rw [hk]
    rw [show d.exponent = -(k : Int) by omega, zpow_neg, zpow_natCast, ← div_eq_mul_inv] at h
    simpa using h

theorem infinity?_eq_none {cs ds : List Char} {negative : Bool} (hs : takeSign cs = (negative, ds)) (h : BeginsWithDigit ds) :
    Numeral.infinity? cs = none := by
  obtain ⟨c, ds, rfl, hc⟩ := h
  have hlower : c.toLower ≠ 'i' := by
    intro h
    simp only [Text.isAsciiDigit, Bool.and_eq_true, decide_eq_true_eq] at hc
    unfold Char.toLower at h
    split at h
    · next hupper =>
      have hnine : c.val ≤ 57 := hc.2
      have hcapital : 65 ≤ c.val := hupper.1
      rw [UInt32.le_iff_toNat_le] at hnine hcapital
      exact absurd (hcapital.trans hnine) (by decide)
    · subst h
      exact absurd hc (by decide)
  have hword : ∀ word : String, word.toList.head? = some 'i' → String.ofList ((c :: ds).map Char.toLower) ≠ word := by
    rintro word hhead rfl
    rw [String.toList_ofList] at hhead
    exact hlower (Option.some.inj hhead)
  rw [Numeral.infinity?, hs]
  simp only [hword "inf" rfl, hword "infinity" rfl, decide_false, Bool.or_false, Bool.false_eq_true, if_false]

end Curriculum.Decimal

namespace Curriculum.Graph

/-! ### Credits -/

/-- Neither an infinity nor NaN. -/
def isFinite : Double → Bool
  | .finite .. => true
  | _ => false

/-- Credits that begin with a digit are read as a decimal. -/
theorem readCredits?_of_read {text : String} {digits : List Char} {negative : Bool} {d : Decimal}
    (hs : Decimal.takeSign text.toList = (negative, digits)) (h : Decimal.BeginsWithDigit digits)
    (hread : Decimal.read? text.toList = some d) (hd : d.exponent ≤ 308) :
    readCredits? text = if isFinite d.toDouble then some d.toDouble else none := by
  rw [readCredits?, Decimal.infinity?_eq_none hs h, hread]
  simp only [if_neg (not_lt.mpr hd)]
  cases d.toDouble <;> rfl

/-- The text of a number is read as credits of this number. -/
theorem readCredits?_text {m : Nat} {e : Int} (hm : Double.Representable m e) (negative : Bool) :
    readCredits? (Double.text (.finite negative m e)) = some (.finite negative m e) := by
  rcases Nat.eq_zero_or_pos m with rfl | hpos
  · obtain rfl : e = -1074 := hm.full.resolve_left (by decide)
    cases negative <;> decide +kernel
  · obtain ⟨n, k, hdigits, hnearest, hlow, hhigh⟩ := Double.shortestDigits_spec hm hpos
    obtain ⟨cs, hs, hbegins, hlayout⟩ := Decimal.exists_takeSign_text hpos hdigits negative
    have hwrites : Decimal.Writes (Double.text (.finite negative m e)).toList negative n k := by
      have hall := Decimal.allDigits_repr n
      have hne := Decimal.repr_ne_nil n
      have hpoint : (n.repr.toList.length + k : Int) - n.repr.toList.length = k := by omega
      rcases hlayout with rfl | rfl
      · have := Decimal.writes_positional hall hne hs
        rwa [Decimal.valueOf_repr, hpoint] at this
      · have := Decimal.writes_scientific hall hne hs
        rwa [Decimal.valueOf_repr, hpoint] at this
    obtain ⟨d, hread, rfl, hvalue, hexponent⟩ := hwrites
    have hdouble := Decimal.toDouble_of_nearest (d := d) hm hpos (by rwa [hvalue]) (by omega) (by omega)
    rw [readCredits?_of_read hs hbegins hread (by omega), hdouble]
    rfl

theorem toDouble_natAbs (n : Int) : Decimal.toDouble ⟨decide (n < 0), n.natAbs, 0⟩ = .ofInt n := by
  unfold Decimal.toDouble Double.ofDecimal Double.ofInt
  dsimp only
  by_cases hzero : n.natAbs = 0
  · rw [if_pos hzero, hzero]
    rfl
  · rw [if_neg hzero, if_neg (show ¬(400 : Int) < 0 by decide), if_neg (by omega), if_pos le_rfl]
    exact congrArg (Double.ofRatio _ · 1) (Nat.mul_one _)

/-- The digits of a whole number are read as credits of the number that they round to, if it is finite. -/
theorem readCredits?_int (n : Int) :
    readCredits? (toString n) = if isFinite (.ofInt n) then some (.ofInt n) else none := by
  have hall := Decimal.allDigits_repr n.natAbs
  have hne := Decimal.repr_ne_nil n.natAbs
  have hbegins : Decimal.BeginsWithDigit n.natAbs.repr.toList := by
    simpa using Decimal.beginsWithDigit_append hall hne []
  have hs : Decimal.takeSign (toString n).toList = (decide (n < 0), n.natAbs.repr.toList) := by
    rw [← Decimal.takeSign_signed hbegins (decide (n < 0)), Int.toString_eq_repr, Int.repr_eq_if]
    by_cases hn : 0 ≤ n
    · rw [if_pos hn, show n.toNat = n.natAbs by omega, if_neg (by simpa using hn)]
    · rw [if_neg hn, show (-n).toNat = n.natAbs by omega, if_pos (by simpa using hn), String.toList_append]
      rfl
  have hread : Decimal.read? (toString n).toList = some ⟨decide (n < 0), n.natAbs, 0⟩ := by
    have := Decimal.read?_of_parts _ [] _ [] (by simpa using hs) hall hne Decimal.allDigits_nil
      (.inr ⟨rfl, rfl⟩) (.inl rfl)
    rwa [List.append_nil, Decimal.valueOf_repr] at this
  rw [readCredits?_of_read hs hbegins hread (show (0 : Int) ≤ 308 by decide), toDouble_natAbs]

/-- A whole number of finite size is read alike from its digits and from the text of the number it rounds to. -/
theorem readCredits?_text_ofInt {n : Int} (h : isFinite (.ofInt n)) :
    readCredits? (Double.text (.ofInt n)) = readCredits? (toString n) := by
  rw [readCredits?_int, if_pos h]
  cases hx : Double.ofInt n with
  | finite negative m e =>
    obtain ⟨-, hm⟩ := Double.representable_of_ofRatio Nat.one_pos hx
    exact readCredits?_text hm negative
  | infinite negative =>
    rw [hx] at h
    cases h
  | nan =>
    rw [hx] at h
    cases h

end Curriculum.Graph
