import Curriculum.Number.Double
import Curriculum.Text.Blank
import Curriculum.Text.Digit

/-! Reading numbers written by people: integers and decimals with a sign, digits of any script, and
    underscores between digits. -/

namespace Curriculum

/-- A number in decimal: `± digits · 10 ^ exponent`. -/
structure Decimal where
  negative : Bool
  digits : Nat
  exponent : Int
  deriving DecidableEq, Repr

namespace Decimal

/-! ### Plain numerals -/

/-- A sign and the rest; without a sign the number is not negative. -/
def takeSign : List Char → Bool × List Char
  | '-' :: rest => (true, rest)
  | '+' :: rest => (false, rest)
  | rest => (false, rest)

/-- The number that a run of digits from `0` to `9` writes. -/
def valueOf (digits : List Char) : Nat :=
  digits.foldl (fun n c => 10 * n + (c.toNat - '0'.toNat)) 0

/-- The power of ten after an exponent mark: a sign and at least one digit, and nothing else. -/
def readPower? (cs : List Char) : Option Int :=
  let (negative, digits) := takeSign cs
  if digits.isEmpty || !digits.all Text.isAsciiDigit then none
  else some (if negative then -(valueOf digits : Int) else valueOf digits)

/-- A decimal written with the digits `0` to `9`: a sign, digits with a point anywhere among them, and a
    power of ten after `e` or `E`. At least one digit stands before the power. -/
def read? (cs : List Char) : Option Decimal :=
  let (negative, cs) := takeSign cs
  let whole := cs.takeWhile Text.isAsciiDigit
  let (part, rest) := match cs.dropWhile Text.isAsciiDigit with
    | '.' :: rest => (rest.takeWhile Text.isAsciiDigit, rest.dropWhile Text.isAsciiDigit)
    | rest => ([], rest)
  let decimal (power : Int) : Decimal := ⟨negative, valueOf (whole ++ part), power - part.length⟩
  if whole.isEmpty && part.isEmpty then none else
    match rest with
    | [] => some (decimal 0)
    | mark :: power => if mark = 'e' || mark = 'E' then (readPower? power).map decimal else none

def toDouble (d : Decimal) : Double :=
  .ofDecimal d.negative d.digits d.exponent

end Decimal

namespace Numeral

/-! ### Written numerals -/

/-- The blanks that may surround a numeral: all but the information separators. -/
def isMargin (c : Char) : Bool :=
  Text.isBlank c && !('\x1c' ≤ c && c ≤ '\x1f')

/-- A digit of any script as one of `0` to `9`; other characters stay as they are. -/
def plainDigit (c : Char) : Char :=
  match Text.digitValue? c with
  | some n => Char.ofNat ('0'.toNat + n)
  | none => c

/-- The characters without the underscores, if each of these stands between two digits. The first
    argument says whether a digit came just before. -/
def joinGroups? : Bool → List Char → Option (List Char)
  | _, [] => some []
  | afterDigit, '_' :: c :: rest =>
    if afterDigit && Text.isAsciiDigit c then (joinGroups? true rest).map (c :: ·) else none
  | _, ['_'] => none
  | _, c :: rest => (joinGroups? (Text.isAsciiDigit c) rest).map (c :: ·)

/-- The numeral in plain characters: without margins and underscores, its digits from `0` to `9`. -/
def plain? (s : String) : Option (List Char) :=
  joinGroups? false ((Text.trimEnds isMargin s.toList).map plainDigit)

inductive IntegerError
  | malformed (text : String)
  | tooLong (digits : Nat)
  deriving DecidableEq, Repr

def maxDigits : Nat := 4300

/-- The integer that a text writes: a sign and digits. -/
def integer (s : String) : Except IntegerError Int :=
  match plain? s with
  | none => .error (.malformed s)
  | some cs =>
    let (negative, digits) := Decimal.takeSign cs
    if digits.isEmpty || !digits.all Text.isAsciiDigit then .error (.malformed s)
    else if maxDigits < digits.length then .error (.tooLong digits.length)
    else .ok (if negative then -(Decimal.valueOf digits : Int) else Decimal.valueOf digits)

/-- The special value that a word names, in whatever case: `inf` and `infinity`, with a sign. -/
def infinity? (cs : List Char) : Option Double :=
  let (negative, word) := Decimal.takeSign cs
  let word := String.ofList (word.map Char.toLower)
  if word = "inf" || word = "infinity" then some (.infinite negative) else none

/-- The binary64 number that a text writes: a decimal, an infinity or `nan`. -/
def double? (s : String) : Option Double := do
  let cs ← plain? s
  if let some x := infinity? cs then return x
  if String.ofList ((Decimal.takeSign cs).2.map Char.toLower) = "nan" then return .nan
  return (← Decimal.read? cs).toDouble

end Numeral
end Curriculum
