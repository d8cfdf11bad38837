/-! White space. A requirement text is laid out with six ASCII characters; names, ids and table
    cells are trimmed of everything that Unicode counts as blank. -/

namespace Curriculum.Text

/-- The six characters that separate the tokens of a requirement: space, tab, line feed, carriage
    return, form feed and vertical tab. -/
def isLayout (c : Char) : Bool :=
  c = ' ' || c = '\t' || c = '\n' || c = '\r' || c = '\x0c' || c = '\x0b'

/-- White space in the wide sense: the layout characters, the four information separators, the next
    line and the Unicode spaces and line ends. Zero-width characters are not blank. -/
def isBlank (c : Char) : Bool :=
  let n := c.toNat
  (0x09 ≤ n && n ≤ 0x0d) || (0x1c ≤ n && n ≤ 0x20) || n = 0x85 || n = 0xa0 || n = 0x1680 ||
    (0x2000 ≤ n && n ≤ 0x200a) || n = 0x2028 || n = 0x2029 || n = 0x202f || n = 0x205f || n = 0x3000

/-- The characters without those at either end that satisfy `p`. -/
def trimEnds (p : Char → Bool) (cs : List Char) : List Char :=
  ((cs.dropWhile p).reverse.dropWhile p).reverse

def trim (s : String) : String :=
  String.ofList (trimEnds isBlank s.toList)

theorem dropWhile_eq_self {p : Char → Bool} {cs : List Char} (h : ∀ c, cs.head? = some c → p c = false) :
    cs.dropWhile p = cs := by
  cases cs with
  | nil => rfl
  | cons c cs => rw [List.dropWhile_cons_of_neg (by simp [h c rfl])]

/-! ### What is cut off -/

section
variable {p : Char → Bool} {cs : List Char} {c : Char}

theorem head?_dropWhile (h : (cs.dropWhile p).head? = some c) : p c = false := by
  have hnot := List.head?_dropWhile_not p cs
  rw [h] at hnot
  exact hnot

theorem reverse_trimEnds (p : Char → Bool) (cs : List Char) :
    (trimEnds p cs).reverse = (cs.dropWhile p).reverse.dropWhile p := List.reverse_reverse _

/-- No character to be cut off is left at either end. -/
theorem head?_trimEnds (h : (trimEnds p cs).head? = some c) : p c = false := by
  have hsuffix := List.dropWhile_suffix p (l := (cs.dropWhile p).reverse)
  rw [← reverse_trimEnds] at hsuffix
  obtain ⟨rest, hrest⟩ := List.reverse_suffix.mp hsuffix
  have hhead : (cs.dropWhile p).head? = some c := by rw [← hrest, List.head?_append, h, Option.some_or]
  exact head?_dropWhile hhead

theorem getLast?_trimEnds (h : (trimEnds p cs).getLast? = some c) : p c = false := by
  rw [← List.head?_reverse, reverse_trimEnds] at h
  exact head?_dropWhile h

/-- What stands between characters to be cut off is left if it starts and ends with others. -/
theorem trimEnds_between {front back : List Char} (hfront : ∀ c ∈ front, p c = true) (hback : ∀ c ∈ back, p c = true)
    (hfirst : ∀ c, cs.head? = some c → p c = false) (hlast : ∀ c, cs.getLast? = some c → p c = false) :
    trimEnds p (front ++ (cs ++ back)) = cs := by
  rw [trimEnds, List.dropWhile_append_of_pos hfront]
  cases cs with
  | nil =>
    rw [List.nil_append, ← List.append_nil back, List.dropWhile_append_of_pos hback]
    rfl
  | cons c cs =>
    have hreversed : ∀ d, (c :: cs).reverse.head? = some d → p d = false := by
      rw [List.head?_reverse]
      exact hlast
    rw [List.cons_append, List.dropWhile_cons_of_neg (by simp [hfirst c rfl]), ← List.cons_append, List.reverse_append,
      List.dropWhile_append_of_pos fun d hd => hback d (List.mem_reverse.mp hd), dropWhile_eq_self hreversed,
      List.reverse_reverse]

theorem trimEnds_eq_self_of_ends (hfirst : ∀ c, cs.head? = some c → p c = false)
    (hlast : ∀ c, cs.getLast? = some c → p c = false) : trimEnds p cs = cs := by
  have hnone : ∀ c ∈ ([] : List Char), p c = true := nofun
  have h := trimEnds_between hnone hnone hfirst hlast
  rwa [List.nil_append, List.append_nil] at h

/-- Nothing is cut off where no character is to go. -/
theorem trimEnds_eq_self (h : ∀ c ∈ cs, p c = false) : trimEnds p cs = cs :=
  trimEnds_eq_self_of_ends (fun c hc => h c (List.mem_of_head? hc)) fun c hc => h c (List.mem_of_getLast? hc)

/-- Nothing more is cut off a second time. -/
theorem trimEnds_trimEnds (p : Char → Bool) (cs : List Char) : trimEnds p (trimEnds p cs) = trimEnds p cs :=
  trimEnds_eq_self_of_ends (fun _ => head?_trimEnds) fun _ => getLast?_trimEnds

theorem exists_trimEnds (p : Char → Bool) (cs : List Char) :
    ∃ front back, cs = front ++ (trimEnds p cs ++ back) ∧ (∀ c ∈ front, p c = true) ∧ ∀ c ∈ back, p c = true := by
  refine ⟨cs.takeWhile p, ((cs.dropWhile p).reverse.takeWhile p).reverse, ?_, ?_, ?_⟩
  · rw [trimEnds, ← List.reverse_append, List.takeWhile_append_dropWhile, List.reverse_reverse,
      List.takeWhile_append_dropWhile]
  · exact fun c hc => List.all_eq_true.mp List.all_takeWhile c hc
  · exact fun c hc => List.all_eq_true.mp List.all_takeWhile c (List.mem_reverse.mp hc)

end

theorem trim_trim (s : String) : trim (trim s) = trim s := by
  rw [trim, trim, String.toList_ofList, trimEnds_trimEnds]

end Curriculum.Text
