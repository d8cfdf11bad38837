import Curriculum.CourseId.Basic

/-! The tokens of a requirement text: words, keywords and parentheses, with the places where they stand.
    Layout separates tokens and means nothing else. -/

namespace Curriculum

inductive Symbol
  | id (name : String)
  | and
  | or
  | nothing
  | opening
  | closing
  deriving DecidableEq, Repr

namespace Symbol

def kindName : Symbol → String
  | .id _ => "ID"
  | .and => "AND"
  | .or => "OR"
  | .nothing => "NONE"
  | .opening => "LPAREN"
  | .closing => "RPAREN"

/-- The symbol of a word: a keyword, or else an id. -/
def ofWord (word : String) : Symbol :=
  match Keyword.ofWord? word with
  | some .and => .and
  | some .or => .or
  | some .nothing => .nothing
  | none => .id word

end Symbol

/-- A symbol as it is written at some place. Places count characters from zero. -/
structure Token where
  symbol : Symbol
  lexeme : String
  start : Nat
  deriving DecidableEq, Repr

/-- The place after the last character of a token. -/
def Token.stop (t : Token) : Nat := t.start + t.lexeme.length

/-- Why a text has no further token: it is over, or a character stands there that starts none. -/
inductive Ending
  | finish (position : Nat)
  | stray (c : Char) (position : Nat)
  deriving DecidableEq, Repr

/-! ### Reading one token -/

/-- A place in a text and the characters from there on. -/
structure Cursor where
  position : Nat
  rest : List Char
  deriving DecidableEq, Repr

namespace Cursor

def ofText (s : String) : Cursor := ⟨0, s.toList⟩

/-- The place after as many characters as satisfy a test, and these characters. -/
def skipWhile (p : Char → Bool) (c : Cursor) : List Char × Cursor :=
  let run := c.rest.takeWhile p
  (run, ⟨c.position + run.length, c.rest.dropWhile p⟩)

/-- What a cursor meets: a token, and the place after it, or the end of all tokens. -/
inductive Step
  | token (t : Token) (after : Cursor)
  | ending (e : Ending)
  deriving DecidableEq, Repr

/-- The next token after the layout: a parenthesis or a word as long as it goes. -/
def next (c : Cursor) : Step :=
  let here := (c.skipWhile Text.isLayout).2
  match here.rest with
  | [] => .ending (.finish here.position)
  | '(' :: rest => .token ⟨.opening, "(", here.position⟩ ⟨here.position + 1, rest⟩
  | ')' :: rest => .token ⟨.closing, ")", here.position⟩ ⟨here.position + 1, rest⟩
  | ch :: _ =>
    if isWordChar ch then
      let (run, after) := here.skipWhile isWordChar
      let word := String.ofList run
      .token ⟨Symbol.ofWord word, word, here.position⟩ after
    else .ending (.stray ch here.position)

/-- Where a cursor stands once it was asked for a token: behind the token, or where the tokens end. -/
def asked (c : Cursor) : Cursor :=
  match c.next with
  | .token _ after => after
  | .ending _ => (c.skipWhile Text.isLayout).2

/-- What a cursor meets when it was asked so many times before. -/
def meets (c : Cursor) : Nat → Step
  | 0 => c.next
  | k + 1 => c.asked.meets k

/-- A token takes at least one character. -/
theorem length_rest_lt_of_next {c after : Cursor} {t : Token} (h : c.next = .token t after) :
    after.rest.length < c.rest.length := by
  have hle : ∀ (p : Char → Bool) (l : List Char), (l.dropWhile p).length ≤ l.length := fun p l =>
    (List.dropWhile_sublist p).length_le
  unfold next at h
  simp only [skipWhile] at h
  have hskip := hle Text.isLayout c.rest
  split at h
  · cases h
  · next hr => cases h; simp only [hr, List.length_cons] at hskip; exact hskip
  · next hr => cases h; simp only [hr, List.length_cons] at hskip; exact hskip
  · next ch rest _ _ hr =>
    split at h
    · next hw =>
      cases h
      have := hle isWordChar rest
      simp only [hr, List.dropWhile_cons, hw, if_true, List.length_cons] at hskip ⊢
      omega
    · cases h

end Cursor

/-! ### Reading all tokens -/

/-- The tokens of a text and why they end. -/
structure Scan where
  tokens : List Token
  ending : Ending
  deriving DecidableEq, Repr

/-- The tokens from a cursor on. -/
def Cursor.scan (c : Cursor) : Scan :=
  match h : c.next with
  | .ending e => ⟨[], e⟩
  | .token t after =>
    have := Cursor.length_rest_lt_of_next h
    let s := after.scan
    ⟨t :: s.tokens, s.ending⟩
termination_by c.rest.length

def Scan.ofText (s : String) : Scan := (Cursor.ofText s).scan

end Curriculum
