import Curriculum.Proofs.Interchange
import Curriculum.Proofs.Numerals

/-! Which JSON values are read as which requirements: objects that name their kind, position by position as the
    tree, and hold their ids and operands. One value names a kind that should not: null, whose text in capitals is the
    word for nothing. -/

namespace Curriculum.Requirement

/-! ### The shape of a requirement -/

/-- The value of a field is a text that in capitals is the word. -/
def Names (type : Option Json) (word : String) : Prop := ∃ s, type = some (.str s) ∧ Text.upper s = word

/-- What is taken for the name of a kind: its name, and null for the word for nothing. -/
def PassesAsName (type : Option Json) (word : String) : Prop := Names type word ∨ type = some .null ∧ word = "NONE"

/-- The value has the shape of the requirement: kind by kind, with the ids of the courses as texts, and operands that
    have the shapes of the operands. -/
inductive Depicts (names : Option Json → String → Prop) : Json → Requirement → Prop
  | nothing {fields : List (String × Json)} (kind : names (fields.lookup "type") "NONE") :
    Depicts names (.obj fields) .nothing
  | course {fields : List (String × Json)} {id : String} (kind : names (fields.lookup "type") "COURSE")
    (named : fields.lookup "id" = some (.str id)) (valid : CourseId.isValid id = true) :
    Depicts names (.obj fields) (.course id)
  | both {fields : List (String × Json)} {left right : Json} {l r : Requirement}
    (kind : names (fields.lookup "type") "AND") (hleft : fields.lookup "left" = some left)
    (hright : fields.lookup "right" = some right) (hl : Depicts names left l) (hr : Depicts names right r) :
    Depicts names (.obj fields) (.both l r)
  | either {fields : List (String × Json)} {left right : Json} {l r : Requirement}
    (kind : names (fields.lookup "type") "OR") (hleft : fields.lookup "left" = some left)
    (hright : fields.lookup "right" = some right) (hl : Depicts names left l) (hr : Depicts names right r) :
    Depicts names (.obj fields) (.either l r)

/-- The kind of the object is null, or of an object in the place of an operand. -/
inductive Nameless : Json → Prop
  | here {fields : List (String × Json)} (h : fields.lookup "type" = some .null) : Nameless (.obj fields)
  | operand {fields : List (String × Json)} {word key : String} {v : Json} (kind : Names (fields.lookup "type") word)
    (hword : word ∈ ["AND", "OR"]) (hkey : key ∈ ["left", "right"]) (hv : fields.lookup key = some v) (h : Nameless v) :
    Nameless (.obj fields)

/-! ### Texts that are no words -/

/-- The words for the kinds. -/
def kinds : List String := ["NONE", "COURSE", "AND", "OR"]

/-- The character is a digit or opens an array or an object. -/
def IsMark (c : Char) : Prop := Text.isAsciiDigit c = true ∨ c = '[' ∨ c = '\x7b'

theorem exists_ofNat_of_isAsciiDigit {c : Char} (h : Text.isAsciiDigit c = true) :
    ∃ n < 10, c = Char.ofNat (48 + n) := by
  have hbounds : '0' ≤ c ∧ c ≤ '9' := by simpa [Text.isAsciiDigit] using h
  have hlow : 48 ≤ c.toNat := hbounds.1
  have hhigh : c.toNat ≤ 57 := hbounds.2
  exact ⟨c.toNat - 48, by omega, by rw [Nat.add_sub_cancel' hlow, Char.ofNat_toNat]⟩

/-- Marks are no letters: they have no capitals and occur in no word. -/
theorem upperChar_of_isMark {c : Char} (h : IsMark c) : Text.upperChar c = [c] ∧ ∀ kind ∈ kinds, c ∉ kind.toList := by
  rcases h with h | rfl | rfl
  · have hdigits : ∀ n < 10, Text.upperChar (Char.ofNat (48 + n)) = [Char.ofNat (48 + n)] ∧
        ∀ kind ∈ kinds, Char.ofNat (48 + n) ∉ kind.toList := by
      decide +kernel
    obtain ⟨n, hn, rfl⟩ := exists_ofNat_of_isAsciiDigit h
    exact hdigits n hn
  · decide +kernel
  · decide +kernel

/-- A text with a mark in it does not become a word in capitals. -/
theorem upper_notMem_kinds {s : String} {c : Char} (hc : c ∈ s.toList) (h : IsMark c) : Text.upper s ∉ kinds := by
  obtain ⟨hupper, hkinds⟩ := upperChar_of_isMark h
  intro hkind
  have hmem : c ∈ (Text.upper s).toList := by
    rw [Text.upper, String.toList_ofList]
    exact List.mem_flatMap.mpr ⟨c, hc, hupper ▸ List.mem_singleton_self c⟩
  exact hkinds _ hkind hmem

theorem exists_mark_signed {cs : List Char} (h : Decimal.BeginsWithDigit cs) (negative : Bool) :
    ∃ c ∈ (if negative then '-' :: cs else cs), IsMark c := by
  obtain ⟨c, ds, rfl, hc⟩ := h
  refine ⟨c, ?_, Or.inl hc⟩
  cases negative <;> simp

theorem exists_mark_int (n : Int) : ∃ c ∈ (toString n).toList, IsMark c := by
  have hbegins : ∀ k : Nat, Decimal.BeginsWithDigit k.repr.toList := fun k => by
    simpa using Decimal.beginsWithDigit_append (Decimal.allDigits_repr k) (Decimal.repr_ne_nil k) []
  rw [Int.toString_eq_repr, Int.repr_eq_if]
  split
  · exact exists_mark_signed (hbegins _) false
  · rw [String.toList_append]
    exact exists_mark_signed (hbegins _) true

theorem exists_mark_finite (negative : Bool) (significand : Nat) (exponent : Int) :
    ∃ c ∈ (Double.text (.finite negative significand exponent)).toList, IsMark c := by
  rw [Double.text, String.toList_ofList]
  refine exists_mark_signed ?_ negative
  split
  · exact ⟨'0', _, rfl, by decide⟩
  · have hall := Decimal.allDigits_repr (Double.shortestDigits significand exponent).1
    have hne := Decimal.repr_ne_nil (Double.shortestDigits significand exponent).1
    dsimp only
    split
    · exact Decimal.beginsWithDigit_positional hall hne _
    · exact Decimal.beginsWithDigit_scientific hall hne _

/-- Of the values that are no texts, only null is written as a word. -/
theorem upper_literal_mem_kinds {v : Json} (hv : ∀ s, v ≠ .str s) (h : Text.upper v.literal ∈ kinds) : v = .null := by
  -- truth values and numbers that are not finite have few texts, and every other value is written with a mark
  cases v with
  | null => rfl
  | str s => exact absurd rfl (hv s)
  | bool b => cases b <;> exact absurd h (by decide +kernel)
  | int n =>
    obtain ⟨c, hc, hmark⟩ := exists_mark_int n
    exact absurd h (upper_notMem_kinds hc hmark)
  | float x =>
    cases x with
    | finite negative significand exponent =>
      obtain ⟨c, hc, hmark⟩ := exists_mark_finite negative significand exponent
      exact absurd h (upper_notMem_kinds hc hmark)
    | infinite negative => cases negative <;> exact absurd h (by decide +kernel)
    | nan => exact absurd h (by decide +kernel)
  | arr items =>
    refine absurd h (upper_notMem_kinds (c := '[') ?_ (.inr (.inl rfl)))
    simp [Json.literal]
  | obj fields =>
    refine absurd h (upper_notMem_kinds (c := '\x7b') ?_ (.inr (.inr rfl)))
    simp [Json.literal]

/-- An object is of a kind just if its type passes as the name of the kind. -/
theorem kindOf_eq_iff {fields : List (String × Json)} {kind : String} (h : kind ∈ kinds) :
    kindOf fields = kind ↔ PassesAsName (fields.lookup "type") kind := by
  have hnull : Text.upper (Json.literal .null) = "NONE" := by decide +kernel
  unfold kindOf PassesAsName Names
  cases htype : fields.lookup "type" with
  | none =>
    refine iff_of_false (fun hkind => ?_) (by simp)
    rw [← hkind] at h
    exact absurd h (by decide +kernel)
  | some v =>
    by_cases hs : ∃ s, v = .str s
    · obtain ⟨s, rfl⟩ := hs
      simp [Json.text]
    · have hother : ∀ s, v ≠ .str s := fun s hv => hs ⟨s, hv⟩
      have htext : v.text = v.literal := by
        cases v with
        | str s => exact absurd rfl (hother s)
        | _ => rfl
      rw [Option.map_some, Option.getD_some, htext]
      constructor
      · rintro rfl
        obtain rfl := upper_literal_mem_kinds hother h
        exact .inr ⟨rfl, hnull⟩
      · rintro (⟨s, hv, -⟩ | ⟨hv, rfl⟩)
        · exact absurd (Option.some.inj hv) (hother s)
        · obtain rfl := Option.some.inj hv
          exact hnull

/-! ### Reading -/

theorem ofCourse_eq_ok_iff {fields : List (String × Json)} {t : Requirement} : ofCourse fields = .ok t ↔
    ∃ id, fields.lookup "id" = some (.str id) ∧ CourseId.isValid id = true ∧ t = .course id := by
  constructor
  · intro h
    obtain ⟨id, hid, rfl⟩ := ofCourse_eq_ok h
    unfold ofCourse at h
    split at h
    · next id' hlookup =>
      split at h
      · cases h
      · split at h
        · cases h
          exact ⟨id, hlookup, hid, rfl⟩
        · cases h
    · cases h
  · rintro ⟨id, hlookup, hid, rfl⟩
    exact ofCourse_of_lookup hlookup hid

/-- An operand that is read is there: null, which stands for a missing one, is no object. -/
theorem exists_lookup_of_ofJsonWithin {room : Nat} {fields : List (String × Json)} {key : String} {t : Requirement}
    (h : ofJsonWithin room ((fields.lookup key).getD .null) = .ok t) :
    ∃ v, fields.lookup key = some v ∧ ofJsonWithin room v = .ok t := by
  cases hv : fields.lookup key with
  | none =>
    rw [hv] at h
    obtain ⟨_, hobject⟩ := isObject_of_ofJsonWithin h
    cases hobject
  | some v => exact ⟨v, rfl, by rwa [hv] at h⟩

theorem ofOperands_eq_ok_iff {room : Nat} {op : Requirement → Requirement → Requirement} {fields : List (String × Json)}
    {t : Requirement} : ofOperands (ofJsonWithin room) op fields = .ok t ↔
      ∃ left right l r, fields.lookup "left" = some left ∧ fields.lookup "right" = some right ∧
        ofJsonWithin room left = .ok l ∧ ofJsonWithin room right = .ok r ∧ t = op l r := by
  constructor
  · intro h
    obtain ⟨l, hl, h⟩ := bind_eq_ok.mp h
    obtain ⟨r, hr, h⟩ := bind_eq_ok.mp h
    obtain ⟨left, hleft, hl⟩ := exists_lookup_of_ofJsonWithin hl
    obtain ⟨right, hright, hr⟩ := exists_lookup_of_ofJsonWithin hr
    exact ⟨left, right, l, r, hleft, hright, hl, hr, (Except.ok.inj h).symm⟩
  · rintro ⟨left, right, l, r, hleft, hright, hl, hr, rfl⟩
    exact ofOperands_of_lookup hleft hright hl hr

/-- What is read has the shape of the requirement it is read as. -/
theorem depicts_of_ofJsonWithin {room : Nat} {v : Json} {t : Requirement} (h : ofJsonWithin room v = .ok t) :
    Depicts PassesAsName v t := by
  -- by the room, since operands are read with less of it
  induction room using Nat.strongRecOn generalizing v t with
  | _ room ih =>
    obtain ⟨fields, rfl⟩ := isObject_of_ofJsonWithin h
    rw [ofJsonWithin_obj] at h
    have hname : ∀ kind ∈ kinds, kindOf fields = kind → PassesAsName (fields.lookup "type") kind :=
      fun kind hkind => (kindOf_eq_iff hkind).mp
    generalize kindOf fields = kind at h hname
    split at h
    · cases h
      exact .nothing (hname _ (by decide) rfl)
    · obtain ⟨id, hlookup, hid, rfl⟩ := ofCourse_eq_ok_iff.mp h
      exact .course (hname _ (by decide) rfl) hlookup hid
    · cases h
    · cases h
    · obtain ⟨left, right, l, r, hleft, hright, hl, hr, rfl⟩ := ofOperands_eq_ok_iff.mp h
      exact .both (hname _ (by decide) rfl) hleft hright (ih _ (Nat.lt_succ_self _) hl) (ih _ (Nat.lt_succ_self _) hr)
    · obtain ⟨left, right, l, r, hleft, hright, hl, hr, rfl⟩ := ofOperands_eq_ok_iff.mp h
      exact .either (hname _ (by decide) rfl) hleft hright (ih _ (Nat.lt_succ_self _) hl) (ih _ (Nat.lt_succ_self _) hr)
    · cases h

/-- What has the shape of a requirement is read as it, where there is room for its operators. -/
theorem ofJsonWithin_of_depicts {room : Nat} {v : Json} {t : Requirement} (h : Depicts PassesAsName v t)
    (hroom : t.depth ≤ room) : ofJsonWithin room v = .ok t := by
  induction h generalizing room with
  | nothing kind =>
    rw [ofJsonWithin_obj, (kindOf_eq_iff (by decide)).mpr kind]
    rfl
  | course kind named valid =>
    rw [ofJsonWithin_obj, (kindOf_eq_iff (by decide)).mpr kind]
    exact ofCourse_of_lookup named valid
  | @both fields left right l r kind hleft hright _ _ ihl ihr =>
    have hdepth : max l.depth r.depth + 1 ≤ room := hroom
    obtain ⟨n, rfl⟩ : ∃ n, room = n + 1 := ⟨room - 1, by omega⟩
    rw [ofJsonWithin_obj, (kindOf_eq_iff (by decide)).mpr kind]
    exact ofOperands_of_lookup hleft hright (ihl (by omega)) (ihr (by omega))
  | @either fields left right l r kind hleft hright _ _ ihl ihr =>
    have hdepth : max l.depth r.depth + 1 ≤ room := hroom
    obtain ⟨n, rfl⟩ : ∃ n, room = n + 1 := ⟨room - 1, by omega⟩
    rw [ofJsonWithin_obj, (kindOf_eq_iff (by decide)).mpr kind]
    exact ofOperands_of_lookup hleft hright (ihl (by omega)) (ihr (by omega))

theorem ofJsonWithin_eq_ok_iff_depicts {room : Nat} {v : Json} {t : Requirement} :
    ofJsonWithin room v = .ok t ↔ Depicts PassesAsName v t ∧ t.depth ≤ room :=
  ⟨fun h => ⟨depicts_of_ofJsonWithin h, (admissibleWithin_of_ofJsonWithin h).1⟩,
    fun h => ofJsonWithin_of_depicts h.1 h.2⟩

/-! ### Kinds that are null -/

theorem Names.eq {type : Option Json} {word word' : String} (h : Names type word) (h' : Names type word') :
    word = word' := by
  obtain ⟨s, rfl, rfl⟩ := h
  obtain ⟨s', hs, rfl⟩ := h'
  cases hs
  rfl

theorem Names.ne_null {type : Option Json} {word : String} (h : Names type word) : type ≠ some .null := by
  obtain ⟨s, rfl, -⟩ := h
  nofun

section
variable {fields : List (String × Json)} {word : String} (kind : Names (fields.lookup "type") word)
include kind

theorem not_nameless_of_leaf (hword : word ∉ ["AND", "OR"]) : ¬Nameless (.obj fields) := by
  rintro (hnull | ⟨kind', hword', -, -, -⟩)
  · exact kind.ne_null hnull
  · exact hword (kind.eq kind' ▸ hword')

theorem not_nameless_of_operands {left right : Json} (hleft : fields.lookup "left" = some left)
    (hright : fields.lookup "right" = some right) (hl : ¬Nameless left) (hr : ¬Nameless right) :
    ¬Nameless (.obj fields) := by
  rintro (hnull | ⟨-, -, hkey, hv, hoperand⟩)
  · exact kind.ne_null hnull
  · simp only [List.mem_cons, List.not_mem_nil, or_false] at hkey
    rcases hkey with rfl | rfl
    · exact hl (Option.some.inj (hleft.symm.trans hv) ▸ hoperand)
    · exact hr (Option.some.inj (hright.symm.trans hv) ▸ hoperand)

theorem not_nameless_operand {key : String} {v : Json} (hword : word ∈ ["AND", "OR"]) (hkey : key ∈ ["left", "right"])
    (hv : fields.lookup key = some v) (h : ¬Nameless (.obj fields)) : ¬Nameless v :=
  fun hoperand => h (.operand kind hword hkey hv hoperand)

end

theorem PassesAsName.names {fields : List (String × Json)} {word : String}
    (h : PassesAsName (fields.lookup "type") word) (hv : ¬Nameless (.obj fields)) : Names (fields.lookup "type") word :=
  h.resolve_right fun hnull => hv (.here hnull.1)

/-- A value has the shape of a requirement just if it passes as such and no kind in it is null. -/
theorem depicts_names_iff {v : Json} {t : Requirement} :
    Depicts Names v t ↔ Depicts PassesAsName v t ∧ ¬Nameless v := by
  constructor
  · intro h
    induction h with
    | nothing kind => exact ⟨.nothing (.inl kind), not_nameless_of_leaf kind (by decide)⟩
    | course kind named valid => exact ⟨.course (.inl kind) named valid, not_nameless_of_leaf kind (by decide)⟩
    | both kind hleft hright _ _ ihl ihr =>
      exact ⟨.both (.inl kind) hleft hright ihl.1 ihr.1, not_nameless_of_operands kind hleft hright ihl.2 ihr.2⟩
    | either kind hleft hright _ _ ihl ihr =>
      exact ⟨.either (.inl kind) hleft hright ihl.1 ihr.1, not_nameless_of_operands kind hleft hright ihl.2 ihr.2⟩
  · rintro ⟨h, hv⟩
    induction h with
    | nothing kind => exact .nothing (kind.names hv)
    | course kind named valid => exact .course (kind.names hv) named valid
    | both kind hleft hright _ _ ihl ihr =>
      have hkind := kind.names hv
      exact .both hkind hleft hright (ihl (not_nameless_operand hkind (by decide) (by decide) hleft hv))
        (ihr (not_nameless_operand hkind (by decide) (by decide) hright hv))
    | either kind hleft hright _ _ ihl ihr =>
      have hkind := kind.names hv
      exact .either hkind hleft hright (ihl (not_nameless_operand hkind (by decide) (by decide) hleft hv))
        (ihr (not_nameless_operand hkind (by decide) (by decide) hright hv))

/-- A value is read as a requirement just if it has its shape, with operators nested no deeper than allowed and null
    passing as the kind of nothing, and every other value is refused. Of the values without such a kind, just those are
    read that have the shape. -/
theorem ofJson_eq_ok_iff_depicts (v : Json) :
    (∀ t, ofJson v = .ok t ↔ Depicts PassesAsName v t ∧ t.depth ≤ 128) ∧
    (∀ t, Depicts Names v t ∧ t.depth ≤ 128 ↔ ofJson v = .ok t ∧ ¬Nameless v) ∧
    ((∃ e, ofJson v = .error e) ↔ ∀ t, Depicts PassesAsName v t → 128 < t.depth) := by
  have hread : ∀ t, ofJson v = .ok t ↔ Depicts PassesAsName v t ∧ t.depth ≤ 128 :=
    fun t => ofJsonWithin_eq_ok_iff_depicts
  refine ⟨hread, fun t => ?_, ?_⟩
  · rw [hread, depicts_names_iff]
    exact and_right_comm
  · have hrefused : (∃ e, ofJson v = .error e) ↔ ∀ t, ofJson v ≠ .ok t := by
      cases ofJson v <;> simp
    simp only [hrefused, ne_eq, hread, not_and, not_le]

/-- An object whose kind is null is read as nothing, although it has the shape of no requirement. -/
theorem ofJson_null_kind :
    ofJson (.obj [("type", .null)]) = .ok .nothing ∧ ¬∃ t, Depicts Names (.obj [("type", .null)]) t := by
  refine ⟨by decide +kernel, ?_⟩
  rintro ⟨t, h⟩
  exact (depicts_names_iff.mp h).2 (.here rfl)

end Curriculum.Requirement
