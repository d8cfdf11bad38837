import Curriculum.Json.Basic
import Curriculum.Number.Numeral
import Curriculum.OrderedMap

/-! Reading JSON text. The characters are cut into tokens, and the tokens drive a machine that keeps
    the unfinished arrays and objects on a stack. Both go through their input once. The stack is taken as
    unlimited: no depth of nesting is refused. -/

namespace Curriculum.Json

/-! ### Scalars -/

/-- A number in JSON form: no sign but a minus, no idle leading zero, and digits on both sides of a
    point. Without point and power it is an integer, of at most as many digits as an integer may have. -/
def number? (cs : List Char) : Option Json :=
  let (negative, body) := match cs with
    | '-' :: rest => (true, rest)
    | rest => (false, rest)
  let whole := body.takeWhile Text.isAsciiDigit
  let float := (Decimal.read? cs).map fun d => Json.float d.toDouble
  if whole.isEmpty || (whole.head? = some '0' && whole.length ≠ 1) then none else
    match body.dropWhile Text.isAsciiDigit with
    | [] =>
      let n := Decimal.valueOf whole
      if Numeral.maxDigits < whole.length then none else some (.int (if negative then -(n : Int) else n))
    | '.' :: rest => if (rest.takeWhile Text.isAsciiDigit).isEmpty then none else float
    | _ => float

/-- The value of a bare word: a constant, the name of a special number, or a number. -/
def scalar? (cs : List Char) : Option Json :=
  match String.ofList cs with
  | "null" => some .null
  | "true" => some (.bool true)
  | "false" => some (.bool false)
  | "NaN" => some (.float .nan)
  | "Infinity" => some (.float (.infinite false))
  | "-Infinity" => some (.float (.infinite true))
  | _ => number? cs

/-! ### Tokens -/

inductive Token
  | scalar (value : Json)
  | openArray
  | closeArray
  | openObject
  | closeObject
  | comma
  | colon

/-- Where the cutting stands: between tokens, in a string or in a bare word, whose characters are kept
    with the last one first. -/
inductive Place
  | between
  | inString (done : List Char)
  | inWord (done : List Char)

def hexValue? (c : Char) : Option Nat :=
  if '0' ≤ c && c ≤ '9' then some (c.toNat - 48)
  else if 'a' ≤ c && c ≤ 'f' then some (c.toNat - 87)
  else if 'A' ≤ c && c ≤ 'F' then some (c.toNat - 55)
  else none

/-- The code unit that four hexadecimal digits write. -/
def codeUnit? (a b c d : Char) : Option Nat := do
  return (((← hexValue? a) * 16 + (← hexValue? b)) * 16 + (← hexValue? c)) * 16 + (← hexValue? d)

/-- The character of a code unit. Half of a pair on its own is no character and is replaced. -/
def unitChar (n : Nat) : Char :=
  if 0xd800 ≤ n && n < 0xe000 then '\ufffd' else Char.ofNat n

/-- The character that a pair of code units stands for, if they are the two halves of one. -/
def pairChar? (high low : Nat) : Option Char :=
  if 0xd800 ≤ high && high < 0xdc00 && 0xdc00 ≤ low && low < 0xe000 then
    some (Char.ofNat (0x10000 + (high - 0xd800) * 0x400 + (low - 0xdc00)))
  else none

/-- The character that stands after a backslash. -/
def escape? : Char → Option Char
  | '"' => some '"'
  | '\\' => some '\\'
  | '/' => some '/'
  | 'b' => some '\x08'
  | 'f' => some '\x0c'
  | 'n' => some '\n'
  | 'r' => some '\r'
  | 't' => some '\t'
  | _ => none

/-- The tokens that one character between tokens completes, and the place after it. -/
def enter? (c : Char) : Option (List Token × Place) :=
  if c = ' ' || c = '\t' || c = '\n' || c = '\r' then some ([], .between)
  else if c = '[' then some ([.openArray], .between)
  else if c = ']' then some ([.closeArray], .between)
  else if c = '\x7b' then some ([.openObject], .between)
  else if c = '\x7d' then some ([.closeObject], .between)
  else if c = ',' then some ([.comma], .between)
  else if c = ':' then some ([.colon], .between)
  else if c = '"' then some ([], .inString [])
  else some ([], .inWord [c])

/-- Whether a character continues a bare word. -/
def isWordChar (c : Char) : Bool :=
  c.isAlphanum || c = '+' || c = '-' || c = '.'

/-- The tokens of the characters from the given place on. A string has no control characters, and it
    does not end before its closing quote. -/
def tokens? : Place → List Char → Option (List Token)
  | .between, [] => some []
  | .between, c :: rest => do
    let (done, place) ← enter? c
    return done ++ (← tokens? place rest)
  | .inWord word, [] => do return [.scalar (← scalar? word.reverse)]
  | .inWord word, c :: rest =>
    if isWordChar c then tokens? (.inWord (c :: word)) rest else do
      let value ← scalar? word.reverse
      let (done, place) ← enter? c
      return .scalar value :: done ++ (← tokens? place rest)
  | .inString _, [] => none
  | .inString done, '"' :: rest => do
    return .scalar (.str (String.ofList done.reverse)) :: (← tokens? .between rest)
  | .inString done, '\\' :: 'u' :: a :: b :: c :: d :: '\\' :: 'u' :: e :: f :: g :: h :: rest => do
    let first ← codeUnit? a b c d
    match (codeUnit? e f g h).bind (pairChar? first) with
    | some pair => tokens? (.inString (pair :: done)) rest
    | none => tokens? (.inString (unitChar first :: done)) ('\\' :: 'u' :: e :: f :: g :: h :: rest)
  | .inString done, '\\' :: 'u' :: a :: b :: c :: d :: rest => do
    tokens? (.inString (unitChar (← codeUnit? a b c d) :: done)) rest
  | .inString done, '\\' :: c :: rest => do
    tokens? (.inString ((← escape? c) :: done)) rest
  | .inString done, c :: rest =>
    if c.toNat < 0x20 || c = '\\' then none else tokens? (.inString (c :: done)) rest

/-! ### Values -/

/-- An unfinished array, its last item first, or an unfinished object that waits for the value of a
    key. -/
inductive Frame
  | array (items : List Json)
  | object (fields : List (String × Json)) (key : String)

/-- What the machine expects next; outside the whole value nothing is left to expect. -/
inductive Expect
  | value
  | itemOrEnd
  | keyOrEnd
  | key (fields : List (String × Json))
  | colon (fields : List (String × Json)) (key : String)
  | afterItem (items : List Json)
  | afterField (fields : List (String × Json))
  | nothing (value : Json)

/-- The machine after a complete value. -/
def deliver (value : Json) : List Frame → Expect × List Frame
  | [] => (.nothing value, [])
  | .array items :: frames => (.afterItem (value :: items), frames)
  | .object fields key :: frames => (.afterField (Entries.put key value fields), frames)

/-- The machine after one token. -/
def advance? : Expect → List Frame → Token → Option (Expect × List Frame)
  | .value, frames, .scalar v => some (deliver v frames)
  | .value, frames, .openArray => some (.itemOrEnd, frames)
  | .value, frames, .openObject => some (.keyOrEnd, frames)
  | .itemOrEnd, frames, .scalar v => some (.afterItem [v], frames)
  | .itemOrEnd, frames, .openArray => some (.itemOrEnd, .array [] :: frames)
  | .itemOrEnd, frames, .openObject => some (.keyOrEnd, .array [] :: frames)
  | .itemOrEnd, frames, .closeArray => some (deliver (.arr []) frames)
  | .keyOrEnd, frames, .scalar (.str key) => some (.colon [] key, frames)
  | .keyOrEnd, frames, .closeObject => some (deliver (.obj []) frames)
  | .key fields, frames, .scalar (.str key) => some (.colon fields key, frames)
  | .colon fields key, frames, .colon => some (.value, .object fields key :: frames)
  | .afterItem items, frames, .comma => some (.value, .array items :: frames)
  | .afterItem items, frames, .closeArray => some (deliver (.arr items.reverse) frames)
  | .afterField fields, frames, .comma => some (.key fields, frames)
  | .afterField fields, frames, .closeObject => some (deliver (.obj fields) frames)
  | _, _, _ => none

/-- The value that the tokens write. -/
def build? : Expect → List Frame → List Token → Option Json
  | .nothing value, _, [] => some value
  | _, _, [] => none
  | expect, frames, token :: rest => do
    let (expect, frames) ← advance? expect frames token
    build? expect frames rest

/-- The value of a JSON text. A key that comes again in an object keeps its place and takes the last
    value. -/
def ofText (s : String) : Option Json := do
  build? .value [] (← tokens? .between s.toList)

end Curriculum.Json
