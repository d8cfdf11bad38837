import Curriculum.Number.Double

/-! The shortest decimal text that reads back as the same binary64 number, and its layout. -/

namespace Curriculum.Double

/-- Whether the grid of multiples of `10 ^ k` has a point that rounds to `significand · 2 ^ exponent`,
    and if so the nearest such point, in units of the grid; of two equally near points the even one.
    The numbers that round to it reach half way to its neighbours, and the ends belong to it when its
    significand is even; the lower neighbour of a power of two is twice as near. -/
def gridPoint? (significand : Nat) (exponent : Int) (k : Int) : Option Nat :=
  -- in quarters of a unit in the last place, the value is `4 · significand` and one grid step `num / den`
  let quarter := exponent - 2
  let num := Nat.pow 10 k.toNat * Nat.pow 2 (-quarter).toNat
  let den := Nat.pow 10 (-k).toNat * Nat.pow 2 quarter.toNat
  let value := 4 * significand * den
  let high := (4 * significand + 2) * den
  let low := (if significand = Nat.pow 2 52 && -1074 < exponent then 4 * significand - 1 else 4 * significand - 2) * den
  let closed := significand % 2 = 0
  let below := value / num
  let above := below + 1
  let hitsBelow := low < below * num || (closed && low = below * num)
  let hitsAbove := above * num < high || (closed && above * num = high)
  match hitsBelow, hitsAbove with
  | false, false => none
  | true, false => some below
  | false, true => some above
  | true, true =>
    let toBelow := value - below * num
    let toAbove := above * num - value
    if toBelow < toAbove || (toBelow = toAbove && below % 2 = 0) then some below else some above

/-- The fewest digits that read back as a positive finite number, with the power of ten of the last. The
    coarsest grid with a point has the fewest digits; the finest one that is ever needed is
    `10 ^ (-324)`. -/
def shortestDigits (significand : Nat) (exponent : Int) : Nat × Int :=
  let grids := (List.range 634).map fun (i : Nat) => (309 : Int) - i
  (grids.findSome? fun k => (gridPoint? significand exponent k).map (·, k)).getD (0, 0)

/-- Digits with a point after the first `point` of them, padded with zeros and never ending in a bare
    point: `12` with point 4 is `1200.0`, with point -1 it is `0.012`. -/
def positional (digits : List Char) (point : Int) : List Char :=
  if point ≤ 0 then '0' :: '.' :: (List.replicate (-point).toNat '0' ++ digits)
  else
    let whole := digits.take point.toNat ++ List.replicate (point.toNat - digits.length) '0'
    match digits.drop point.toNat with
    | [] => whole ++ ['.', '0']
    | part => whole ++ '.' :: part

/-- Digits with a point after the first one and the power of ten in at least two digits. -/
def scientific (digits : List Char) (point : Int) : List Char :=
  let power := point - 1
  let size := (Nat.repr power.natAbs).toList
  let size := if size.length < 2 then '0' :: size else size
  let lead := match digits with
    | first :: second :: rest => first :: '.' :: second :: rest
    | _ => digits
  lead ++ 'e' :: (if power < 0 then '-' else '+') :: size

/-- The number as text: positional from `0.0001` up to below `10 ^ 16`, scientific outside. -/
def text : Double → String
  | .nan => "nan"
  | .infinite negative => if negative then "-inf" else "inf"
  | .finite negative significand exponent =>
    let unsigned :=
      if significand = 0 then ['0', '.', '0'] else
        let (n, k) := shortestDigits significand exponent
        let digits := (Nat.repr n).toList
        let point := digits.length + k
        if -4 < point && point ≤ 16 then positional digits point else scientific digits point
    String.ofList (if negative then '-' :: unsigned else unsigned)

end Curriculum.Double
