/-! Binary64 numbers as exact values: a sign, a significand and a power of two. Rounding is done once,
    from a ratio of natural numbers, so that every later question is one about integers. Powers are
    written `Nat.pow`, which means the same whatever else is imported. -/

namespace Curriculum

/-- A binary64 number. A finite one is `± significand · 2 ^ exponent`, with a significand below `2 ^ 53`
    and an exponent from `-1074` to `971`; the significand is at least `2 ^ 52` unless the exponent is
    the least one. -/
inductive Double
  | finite (negative : Bool) (significand : Nat) (exponent : Int)
  | infinite (negative : Bool)
  | nan
  deriving DecidableEq, Repr, Inhabited

namespace Double

def zero : Double := .finite false 0 (-1074)

/-! ### Rounding -/

/-- The quotient rounded to the nearest integer, a half to the even neighbour. -/
def roundHalfEven (num den : Nat) : Nat :=
  let q := num / den
  let r := num % den
  if den < 2 * r || (2 * r = den && q % 2 = 1) then q + 1 else q

/-- `num / den / 2 ^ e` as a numerator and a denominator. -/
def scaled (num den : Nat) (e : Int) : Nat × Nat :=
  if 0 ≤ e then (num, den * Nat.pow 2 e.toNat) else (num * Nat.pow 2 (-e).toNat, den)

/-- The number nearest to `± num / den`, a half going to the even significand. -/
def ofRatio (negative : Bool) (num den : Nat) : Double :=
  if num = 0 then .finite negative 0 (-1074) else
    let least : Int := max ((num.log2 : Int) - den.log2 - 53) (-1074)
    let (n, d) := scaled num den least
    let e := if Nat.pow 2 53 ≤ n / d then least + 1 else least
    let (n, d) := scaled num den e
    let q := roundHalfEven n d
    let (q, e) := if q = Nat.pow 2 53 then (Nat.pow 2 52, e + 1) else (q, e)
    if 971 < e then .infinite negative else .finite negative q e

/-- The number nearest to `± digits · 10 ^ exponent`. Beyond the bounds below every value is infinite
    or zero, whatever its digits. -/
def ofDecimal (negative : Bool) (digits : Nat) (exponent : Int) : Double :=
  let length : Int := digits.log2 / 3 + 1
  if digits = 0 then .finite negative 0 (-1074)
  else if 400 < exponent then .infinite negative
  else if exponent + length < -400 then .finite negative 0 (-1074)
  else if 0 ≤ exponent then ofRatio negative (digits * Nat.pow 10 exponent.toNat) 1
  else ofRatio negative digits (Nat.pow 10 (-exponent).toNat)

def ofInt (n : Int) : Double :=
  ofRatio (n < 0) n.natAbs 1

/-! ### Questions -/

/-- Whether the number is below zero; neither zero is, nor is NaN. -/
def isNegative : Double → Bool
  | .finite negative significand _ => negative && significand ≠ 0
  | .infinite negative => negative
  | .nan => false

/-- The integer part, toward zero, of a finite number. -/
def truncate? : Double → Option Int
  | .finite negative significand exponent =>
    let size :=
      if 0 ≤ exponent then significand * Nat.pow 2 exponent.toNat
      else significand / Nat.pow 2 (-exponent).toNat
    some (if negative then -(size : Int) else size)
  | _ => none

def integer? : Double → Option Int
  | .finite negative significand exponent =>
    if exponent < 0 && significand % Nat.pow 2 (-exponent).toNat ≠ 0 then none
    else truncate? (.finite negative significand exponent)
  | _ => none

/-- Whether one number is below another; NaN is comparable to nothing. -/
def lt : Double → Double → Bool
  | .nan, _ => false
  | _, .nan => false
  | .infinite a, .infinite b => a && !b
  | .infinite a, .finite .. => a
  | .finite .., .infinite b => !b
  | .finite na a e, .finite nb b f =>
    let low := min e f
    let size (negative : Bool) (m : Nat) (x : Int) : Int :=
      let v : Int := (m * Nat.pow 2 (x - low).toNat : Nat)
      if negative then -v else v
    size na a e < size nb b f

/-- The second number where it is above the first, else the first. So a NaN yields to the bound, and an
    equal number, such as a negative zero, does as well. -/
def atLeast (bound x : Double) : Double :=
  if bound.lt x then x else bound

end Double
end Curriculum
