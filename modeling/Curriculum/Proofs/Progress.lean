import Curriculum.Proofs.Interchange
import Curriculum.Standing

/-! The text that shows how far a requirement is met. Without its marks it is read again, and what is read is the
    requirement with its leaves in order and its operators regrouped at most: parentheses are left out between
    operators of one kind, where it does not matter how they group, and they stand wherever the kind changes. The
    marks tell of each course in turn whether it is completed. -/

namespace Curriculum.Requirement

/-! ### Leaves -/

/-- The leaves from left to right: a course, or none where nothing is asked for. -/
def leaves : Requirement → List (Option String)
  | .nothing => [none]
  | .course id => [some id]
  | .both l r | .either l r => l.leaves ++ r.leaves

/-- The courses among the leaves. -/
def courses (r : Requirement) : List String := r.leaves.filterMap id

theorem courses_both (l r : Requirement) : (both l r).courses = l.courses ++ r.courses := List.filterMap_append

theorem courses_either (l r : Requirement) : (either l r).courses = l.courses ++ r.courses := List.filterMap_append

theorem depth_lt_length_leaves (r : Requirement) : r.depth < r.leaves.length := by
  induction r with
  | nothing | course => simp [depth, leaves]
  | both l r ihl ihr | either l r ihl ihr =>
    simp only [depth, leaves, List.length_append]
    omega

/-! ### Regrouping -/

/-- The requirements differ at most in how operators of one kind group, at whatever places. -/
inductive Regrouped : Requirement → Requirement → Prop
  | refl (x : Requirement) : Regrouped x x
  | symm {x y : Requirement} (h : Regrouped x y) : Regrouped y x
  | trans {x y z : Requirement} (h : Regrouped x y) (h' : Regrouped y z) : Regrouped x z
  | both {x x' y y' : Requirement} (h : Regrouped x x') (h' : Regrouped y y') : Regrouped (.both x y) (.both x' y')
  | either {x x' y y' : Requirement} (h : Regrouped x x') (h' : Regrouped y y') :
    Regrouped (.either x y) (.either x' y')
  | both_assoc (x y z : Requirement) : Regrouped (.both (.both x y) z) (.both x (.both y z))
  | either_assoc (x y z : Requirement) : Regrouped (.either (.either x y) z) (.either x (.either y z))

namespace Regrouped
variable {x y : Requirement}

theorem leaves_eq (h : Regrouped x y) : x.leaves = y.leaves := by
  induction h with
  | refl => rfl
  | symm _ ih => exact ih.symm
  | trans _ _ ih ih' => exact ih.trans ih'
  | both _ _ ih ih' | either _ _ ih ih' => rw [leaves, leaves, ih, ih']
  | both_assoc | either_assoc => simp only [leaves, List.append_assoc]

theorem holds_eq (h : Regrouped x y) (done : String → Bool) : x.holds done = y.holds done := by
  induction h with
  | refl => rfl
  | symm _ ih => exact ih.symm
  | trans _ _ ih ih' => exact ih.trans ih'
  | both _ _ ih ih' | either _ _ ih ih' => rw [holds, holds, ih, ih']
  | both_assoc => simp only [holds, Bool.and_assoc]
  | either_assoc => simp only [holds, Bool.or_assoc]

end Regrouped
end Requirement

namespace Derives
open Requirement

/-- Phrases of one level with their operator between them are a phrase of that level, which groups to the left. -/
theorem and_regrouped {v w : List Symbol} {l r : Requirement} (hv : Derives .both v l) (hw : Derives .both w r) :
    ∃ t, Regrouped (.both l r) t ∧ Derives .both (v ++ .and :: w) t := by
  generalize hp : Phrase.both = p at hw
  induction hw with
  | nothing | course | enclosed | ofBoth | or => cases hp
  | ofOperand h => exact ⟨_, .refl _, hv.and h⟩
  | and _ h ih =>
    obtain ⟨t, ht, hd⟩ := ih hp
    refine ⟨_, .trans (.symm (.both_assoc ..)) (.both ht (.refl _)), ?_⟩
    simpa using hd.and h

theorem or_regrouped {v w : List Symbol} {l r : Requirement} (hv : Derives .either v l) (hw : Derives .either w r) :
    ∃ t, Regrouped (.either l r) t ∧ Derives .either (v ++ .or :: w) t := by
  generalize hp : Phrase.either = p at hw
  induction hw with
  | nothing | course | enclosed | ofOperand | and => cases hp
  | ofBoth h => exact ⟨_, .refl _, hv.or h⟩
  | or _ h ih =>
    obtain ⟨t, ht, hd⟩ := ih hp
    refine ⟨_, .trans (.symm (.either_assoc ..)) (.either ht (.refl _)), ?_⟩
    simpa using hd.or h

end Derives

namespace Requirement

/-! ### Marks -/

/-- The characters without the marks and the spaces in front of them. -/
def unmark : List Char → List Char
  | [] => []
  | ' ' :: '✓' :: rest | ' ' :: '✗' :: rest => unmark rest
  | c :: rest => c :: unmark rest

/-- The words that a mark follows, in order, each with whether the mark is that of a completed course, where the
    given characters have been read of the first word. -/
def markedFrom (word : List Char) : List Char → List (String × Bool)
  | [] => []
  | ' ' :: '✓' :: rest => (String.ofList word, true) :: markedFrom [] rest
  | ' ' :: '✗' :: rest => (String.ofList word, false) :: markedFrom [] rest
  | c :: rest => markedFrom (if isWordChar c then word ++ [c] else []) rest

def marked (s : String) : List (String × Bool) := markedFrom [] s.toList

/-- The characters do not begin with a mark. -/
def Clear (cs : List Char) : Prop := ∀ c, cs.head? = some c → c ≠ '✓' ∧ c ≠ '✗'

/-- The characters do not begin with the mark of a word in front of them. -/
def Ends (cs : List Char) : Prop := ∀ word, markedFrom word cs = markedFrom [] cs

section
variable {c : Char} {cs ds op rest word : List Char}

theorem ne_mark_of_isWordChar (h : isWordChar c = true) : c ≠ '✓' ∧ c ≠ '✗' := by
  constructor <;> rintro rfl <;> cases h

theorem Clear.cons (hc : c ≠ '✓' ∧ c ≠ '✗') (cs : List Char) : Clear (c :: cs) := fun _ h => Option.some.inj h ▸ hc

theorem Clear.append (h : Clear cs) (h' : Clear ds) : Clear (cs ++ ds) := by
  cases cs with
  | nil => exact h'
  | cons c cs => exact h

theorem Clear.of_word (h : ∀ c ∈ cs, isWordChar c = true) : Clear cs :=
  fun c hc => ne_mark_of_isWordChar (h c (List.mem_of_head? hc))

theorem unmark_cons (h : Clear rest) : unmark (c :: rest) = c :: unmark rest := by
  rw [unmark]
  · exact fun tail _ hr => (h '✓' (by rw [hr]; rfl)).1 rfl
  · exact fun tail _ hr => (h '✗' (by rw [hr]; rfl)).2 rfl

theorem unmark_word (hcs : ∀ c ∈ cs, isWordChar c = true) (h : Clear rest) : unmark (cs ++ rest) = cs ++ unmark rest := by
  induction cs with
  | nil => rfl
  | cons c cs ih =>
    obtain ⟨-, hcs⟩ := List.forall_mem_cons.mp hcs
    rw [List.cons_append, unmark_cons ((Clear.of_word hcs).append h), ih hcs, List.cons_append]

theorem markedFrom_cons (h : c ≠ ' ' ∨ Clear rest) :
    markedFrom word (c :: rest) = markedFrom (if isWordChar c then word ++ [c] else []) rest := by
  rw [markedFrom]
  · exact fun tail hc hr => h.elim (· hc) fun h => (h '✓' (by rw [hr]; rfl)).1 rfl
  · exact fun tail hc hr => h.elim (· hc) fun h => (h '✗' (by rw [hr]; rfl)).2 rfl

theorem markedFrom_word (hcs : ∀ c ∈ cs, isWordChar c = true) : markedFrom word (cs ++ rest) = markedFrom (word ++ cs) rest := by
  induction cs generalizing word with
  | nil => rw [List.nil_append, List.append_nil]
  | cons c cs ih =>
    obtain ⟨hc, hcs⟩ := List.forall_mem_cons.mp hcs
    have hspace : c ≠ ' ' := by
      rintro rfl
      cases hc
    rw [List.cons_append, markedFrom_cons (.inl hspace), if_pos hc, ih hcs, List.append_assoc, List.singleton_append]

/-- A space ends a word, unless a mark comes next. -/
theorem Ends.space (h : Clear rest) : Ends (' ' :: rest) := fun word => by
  rw [markedFrom_cons (.inr h), markedFrom_cons (.inr h)]
  rfl

theorem Ends.closing (rest : List Char) : Ends (')' :: rest) := fun word => by
  rw [markedFrom_cons (.inl (by decide)), markedFrom_cons (.inl (by decide))]
  rfl

end

/-- Wherever the characters stand, they are the plain ones with marks, and the marks tell of the given courses. -/
structure Shows (cs plain : List Char) (told : List (String × Bool)) : Prop where
  ne_nil : cs ≠ []
  clear : Clear cs
  unmark_append : ∀ rest, Clear rest → unmark (cs ++ rest) = plain ++ unmark rest
  marked_append : ∀ rest, Ends rest → markedFrom [] (cs ++ rest) = told ++ markedFrom [] rest

namespace Shows
variable {cs ds plain plain' : List Char} {told told' : List (String × Bool)}

theorem clear_append (h : Shows cs plain told) (rest : List Char) : Clear (cs ++ rest) := by
  obtain ⟨c, tail, rfl⟩ := List.exists_cons_of_ne_nil h.ne_nil
  exact h.clear

theorem nothing : Shows "NONE".toList "NONE".toList [] := by
  have hword : ∀ c ∈ "NONE".toList, isWordChar c = true := List.all_eq_true.mp (by decide)
  refine ⟨by decide, .of_word hword, fun rest h => unmark_word hword h, fun rest h => ?_⟩
  rw [markedFrom_word hword]
  exact h _

theorem course {id : String} (hid : ∀ c ∈ id.toList, isWordChar c = true) (done : Bool) :
    Shows (id.toList ++ [' ', if done then '✓' else '✗']) id.toList [(id, done)] := by
  have hspace : ∀ cs, Clear (' ' :: cs) := fun cs => .cons (by decide) cs
  refine ⟨by simp, (Clear.of_word hid).append (hspace _), fun rest _ => ?_, fun rest _ => ?_⟩
  · rw [List.append_assoc, List.cons_append, List.singleton_append, unmark_word hid (hspace _)]
    cases done <;> rfl
  · rw [List.append_assoc, List.cons_append, List.singleton_append, markedFrom_word hid]
    cases done <;> simp [markedFrom]

theorem enclosed (h : Shows cs plain told) : Shows ('(' :: (cs ++ [')'])) ('(' :: (plain ++ [')'])) told := by
  have hclosing : ∀ rest, Clear (')' :: rest) := fun rest => .cons (by decide) rest
  refine ⟨nofun, .cons (by decide) _, fun rest hrest => ?_, fun rest hrest => ?_⟩
  · rw [List.cons_append, List.append_assoc, List.singleton_append, unmark_cons (h.clear_append _),
      h.unmark_append _ (hclosing rest), unmark_cons hrest]
    simp
  · rw [List.cons_append, List.append_assoc, List.singleton_append, markedFrom_cons (.inl (by decide)), if_neg (by decide),
      h.marked_append _ (.closing rest), markedFrom_cons (.inl (by decide)), if_neg (by decide)]

theorem joined {op : List Char} (h : Shows cs plain told) (h' : Shows ds plain' told')
    (hop : ∀ c ∈ op, isWordChar c = true) :
    Shows (cs ++ ' ' :: (op ++ ' ' :: ds)) (plain ++ ' ' :: (op ++ ' ' :: plain')) (told ++ told') := by
  have hspace : ∀ rest, Clear (' ' :: rest) := fun rest => .cons (by decide) rest
  have hafter : ∀ rest, Clear (op ++ ' ' :: rest) := fun rest => (Clear.of_word hop).append (hspace rest)
  refine ⟨by simp, h.clear_append _, fun rest hrest => ?_, fun rest hrest => ?_⟩
  · simp only [List.append_assoc, List.cons_append]
    rw [h.unmark_append _ (hspace _), unmark_cons (hafter _), unmark_word hop (hspace _),
      unmark_cons (h'.clear_append rest), h'.unmark_append rest hrest]
  · simp only [List.append_assoc, List.cons_append]
    rw [h.marked_append _ (.space (hafter _)), markedFrom_cons (.inr (hafter _)), if_neg (by decide), markedFrom_word hop,
      markedFrom_cons (.inr (h'.clear_append rest)), if_neg (by decide), h'.marked_append rest hrest]

end Shows

/-! ### The text without marks -/

/-- The characters, in parentheses unless they may stand bare. -/
def wrapped (bare : Bool) (cs : List Char) : List Char := if bare then cs else '(' :: (cs ++ [')'])

theorem Operator.all_isWordChar_word (op : Operator) : op.word.toList.all isWordChar = true := by
  cases op <;> decide

/-- The text that shows how far the requirement is met, without the marks. -/
def outlineIn (parent : Option Operator) : Requirement → List Char
  | .nothing => "NONE".toList
  | .course id => id.toList
  | .both l r => wrap .and (l.outlineIn (some .and)) (r.outlineIn (some .and))
  | .either l r => wrap .or (l.outlineIn (some .or)) (r.outlineIn (some .or))
where
  wrap (op : Operator) (left right : List Char) : List Char :=
    wrapped (parent = none || parent = some op) (left ++ ' ' :: (op.word.toList ++ ' ' :: right))

theorem toList_wrap (parent : Option Operator) (op : Operator) (left right : String) :
    (progressIn.wrap parent op left right).toList = outlineIn.wrap parent op left.toList right.toList := by
  unfold progressIn.wrap outlineIn.wrap wrapped
  dsimp only
  split <;> simp

theorem Shows.wrap {cs ds plain plain' : List Char} {told told' : List (String × Bool)} (h : Shows cs plain told)
    (h' : Shows ds plain' told') (parent : Option Operator) (op : Operator) :
    Shows (outlineIn.wrap parent op cs ds) (outlineIn.wrap parent op plain plain') (told ++ told') := by
  have hbare := h.joined h' (List.all_eq_true.mp op.all_isWordChar_word)
  unfold outlineIn.wrap wrapped
  split
  · exact hbare
  · exact hbare.enclosed

theorem shows_progressIn (done : String → Bool) (r : Requirement) (h : ∀ id ∈ r.courseIds, CourseId.isValid id = true)
    (parent : Option Operator) :
    Shows (r.progressIn done parent).toList (r.outlineIn parent) (r.courses.map fun id => (id, done id)) := by
  induction r generalizing parent with
  | nothing => exact .nothing
  | course id =>
    have hid := h id (by simp [courseIds])
    have hcourse := Shows.course (fun c hc => CourseId.isWordChar_of_isValid hid hc) (done id)
    have htext : (progressIn done parent (.course id)).toList = id.toList ++ [' ', if done id then '✓' else '✗'] := by
      rw [progressIn, String.toList_append]
      cases done id <;> rfl
    rw [htext]
    exact hcourse
  | both l r ihl ihr =>
    obtain ⟨hleft, hright⟩ := SortedSet.forall_mem_union.mp h
    have hl := ihl hleft (some .and)
    have hr := ihr hright (some .and)
    rw [progressIn, toList_wrap, courses_both, List.map_append]
    exact hl.wrap hr parent .and
  | either l r ihl ihr =>
    obtain ⟨hleft, hright⟩ := SortedSet.forall_mem_union.mp h
    have hl := ihl hleft (some .or)
    have hr := ihr hright (some .or)
    rw [progressIn, toList_wrap, courses_either, List.map_append]
    exact hl.wrap hr parent .or

/-! ### Reading the outline -/

/-- The level at which a text inside the operator is read. -/
def levelIn : Option Operator → Phrase
  | some .and => .both
  | some .or | none => .either

theorem wrapped_spelling {op : Operator} {cs : List Char} {t : Requirement} {k : Nat}
    (h : Spelling (levelIn (some op)) cs t k) (parent : Option Operator) :
    Spelling (levelIn parent) (wrapped (parent = none || parent = some op) cs) t (k + 1) := by
  have hbare : Spelling .either cs t (k + 1) := (h.loosen (by cases op <;> decide)).mono (Nat.le_succ k)
  have henclosed : Spelling (levelIn parent) ('(' :: (cs ++ [')'])) t (k + 1) :=
    (h.loosen (p := .either) (by cases op <;> decide)).enclosed.loosen (by rcases parent with _ | _ | _ <;> decide)
  unfold wrapped
  split
  · next hp =>
    simp only [Bool.or_eq_true, decide_eq_true_eq] at hp
    rcases hp with rfl | rfl
    · exact hbare
    · exact h.mono (Nat.le_succ k)
  · exact henclosed

/-- The outlines of two operands with their operator between them spell a regrouping of the whole. -/
theorem exists_wrap_spelling (op : Operator) {combine : Requirement → Requirement → Requirement} {l r l' r' : Requirement}
    {cs ds : List Char} {m n : Nat}
    (hcombine : ∀ {x x' y y' : Requirement}, Regrouped x x' → Regrouped y y' → Regrouped (combine x y) (combine x' y'))
    (hd : ∀ {v w : List Symbol} {x y : Requirement}, Derives (levelIn (some op)) v x → Derives (levelIn (some op)) w y →
      ∃ t, Regrouped (combine x y) t ∧
        Derives (levelIn (some op)) (v ++ Symbol.ofWord (String.ofList op.word.toList) :: w) t)
    (hl : Regrouped l l' ∧ Spelling (levelIn (some op)) cs l' m)
    (hr : Regrouped r r' ∧ Spelling (levelIn (some op)) ds r' n) (parent : Option Operator) :
    ∃ t, Regrouped (combine l r) t ∧ Spelling (levelIn parent) (outlineIn.wrap parent op cs ds) t (max m n + 1) := by
  obtain ⟨hl, hsl⟩ := hl
  obtain ⟨hr, hsr⟩ := hr
  have hne : op.word.toList ≠ [] := by cases op <;> decide
  obtain ⟨t, ht, hs⟩ := (hsl.mono (Nat.le_max_left m n)).exists_joined op.word.toList (hsr.mono (Nat.le_max_right m n))
    hne op.all_isWordChar_word hd
  exact ⟨t, (hcombine hl hr).trans ht, wrapped_spelling hs parent⟩

/-- The outline of a requirement spells it, with operators of one kind grouped to the left. -/
theorem outlineIn_spelling (r : Requirement) (h : ∀ id ∈ r.courseIds, CourseId.isValid id = true)
    (parent : Option Operator) : ∃ t, Regrouped r t ∧ Spelling (levelIn parent) (r.outlineIn parent) t r.depth := by
  have hlevel : (levelIn parent).binding ≤ Phrase.operand.binding := by rcases parent with _ | _ | _ <;> decide
  induction r generalizing parent with
  | nothing => exact ⟨_, .refl _, (renderAt_spelling .nothing h .operand).loosen hlevel⟩
  | course id => exact ⟨_, .refl _, (renderAt_spelling (.course id) h .operand).loosen hlevel⟩
  | both l r ihl ihr =>
    obtain ⟨hleft, hright⟩ := SortedSet.forall_mem_union.mp h
    obtain ⟨l', hl⟩ := ihl hleft (some .and) (by decide)
    obtain ⟨r', hr⟩ := ihr hright (some .and) (by decide)
    exact exists_wrap_spelling .and .both Derives.and_regrouped hl hr parent
  | either l r ihl ihr =>
    obtain ⟨hleft, hright⟩ := SortedSet.forall_mem_union.mp h
    obtain ⟨l', hl⟩ := ihl hleft (some .or) (by decide)
    obtain ⟨r', hr⟩ := ihr hright (some .or) (by decide)
    exact exists_wrap_spelling .or .either Derives.or_regrouped hl hr parent

/-! ### The text with marks -/

/-- The text without the marks and the spaces in front of them. -/
def unmarked (s : String) : String := String.ofList (unmark s.toList)

section
variable {t : Requirement} (h : ∀ id ∈ t.courseIds, CourseId.isValid id = true) (done : String → Bool)
include h

theorem unmarked_progressIn (parent : Option Operator) : unmarked (t.progressIn done parent) = String.ofList (t.outlineIn parent) := by
  have hplain := (shows_progressIn done t h parent).unmark_append [] nofun
  rw [unmarked, ← List.append_nil (t.progressIn done parent).toList, hplain, unmark, List.append_nil]

theorem marked_progressIn (parent : Option Operator) :
    marked (t.progressIn done parent) = t.courses.map fun id => (id, done id) := by
  have htold := (shows_progressIn done t h parent).marked_append [] fun _ => rfl
  rw [marked, ← List.append_nil (t.progressIn done parent).toList, htold, markedFrom, List.append_nil]

/-- What is read from the text without its marks is a regrouping of the requirement. -/
theorem exists_parse_unmarked (hleaves : t.leaves.length ≤ 129) :
    ∃ u, parse (unmarked (t.progressIn done none)) = .ok u ∧ Regrouped t u := by
  obtain ⟨u, hu, hs⟩ := outlineIn_spelling t h none
  -- A tree with so few leaves cannot be too deep, however it is grouped.
  have hdepth := u.depth_lt_length_leaves
  have hnesting := t.depth_lt_length_leaves
  rw [← hu.leaves_eq] at hdepth
  rw [unmarked_progressIn h]
  exact ⟨u, parse_eq_ok_iff.mpr (hs.writes (Nat.le_of_lt_succ (Nat.lt_of_lt_of_le hdepth hleaves))
    (Nat.le_of_lt_succ (Nat.lt_of_lt_of_le hnesting hleaves))), hu⟩

end

theorem isValid_of_scan {id : String} (h : (Scan.ofText id).tokens.map Token.symbol = [.id id]) : CourseId.isValid id = true := by
  obtain ⟨t, ht, hsymbol⟩ : ∃ t ∈ (Scan.ofText id).tokens, t.symbol = .id id := by
    rw [← List.mem_map, h]
    exact List.mem_singleton_self _
  exact (Lexes.of_scan id).isValid_of_mem ht hsymbol

/-- The text that shows how far a requirement is met by a student is read, once its marks are deleted, as the
    requirement with operators of one kind regrouped at most: its leaves are in order, and every student meets the one
    just if he meets the other. The marks tell of each course in order whether the student has completed it. -/
theorem progress_shows_requirement {t : Requirement} (hstated : t ≠ .nothing)
    (hids : ∀ id ∈ t.courseIds, (Scan.ofText id).tokens.map Token.symbol = [.id id]) (hleaves : t.leaves.length ≤ 129)
    (standing : Standing) :
    (∃ u, parse (unmarked (t.progress standing.has)) = .ok u ∧ u.leaves = t.leaves ∧ Regrouped t u ∧
      ∀ other : Standing, u.holds other.has = t.holds other.has) ∧
    marked (t.progress standing.has) = t.courses.map fun id => (id, standing.has id) := by
  have hvalid : ∀ id ∈ t.courseIds, CourseId.isValid id = true := fun id hid => isValid_of_scan (hids id hid)
  have hprogress : t.progress standing.has = t.progressIn standing.has none := by
    cases t with
    | nothing => exact absurd rfl hstated
    | course | both | either => rfl
  rw [hprogress]
  obtain ⟨u, hparse, hu⟩ := exists_parse_unmarked hvalid standing.has hleaves
  exact ⟨⟨u, hparse, hu.leaves_eq.symm, hu, fun other => (hu.holds_eq other.has).symm⟩,
    marked_progressIn hvalid standing.has none⟩

/-- Operators that group to the right inside both kinds, shown with a status for some of the courses. -/
theorem progress_shows_requirement_nested :
    ∃ (t : Requirement) (standing : Standing),
      t = .both (.course "A") (.both (.either (.course "B") (.either .nothing (.course "A"))) (.course "c")) ∧
      standing = .statuses (.ofList [("A", .str "planned"), ("B", .str "completed")]) ∧
      t.progress standing.has = "A ✗ AND (B ✓ OR NONE OR A ✗) AND c ✗" ∧
      (∃ u, parse "A AND (B OR NONE OR A) AND c" = .ok u ∧ u.leaves = t.leaves ∧ Regrouped t u) ∧
      marked (t.progress standing.has) = [("A", false), ("B", true), ("A", false), ("c", false)] := by
  refine ⟨_, _, rfl, rfl, by decide +kernel, ?_⟩
  obtain ⟨⟨u, hparse, hleaves, hu, -⟩, hmarked⟩ := progress_shows_requirement
    (t := .both (.course "A") (.both (.either (.course "B") (.either .nothing (.course "A"))) (.course "c")))
    nofun (by decide +kernel) (by decide) (.statuses (.ofList [("A", .str "planned"), ("B", .str "completed")]))
  have htext : unmarked (progress (Standing.statuses (.ofList [("A", .str "planned"), ("B", .str "completed")])).has
      (.both (.course "A") (.both (.either (.course "B") (.either .nothing (.course "A"))) (.course "c")))) =
      "A AND (B OR NONE OR A) AND c" := by
    decide +kernel
  rw [htext] at hparse
  exact ⟨⟨u, hparse, hleaves, hu⟩, hmarked⟩

end Requirement
end Curriculum
