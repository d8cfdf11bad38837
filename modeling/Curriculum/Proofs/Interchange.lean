import Curriculum.OrderedMap
import Curriculum.Proofs.Canonical
import Curriculum.Requirement.Shape

/-! The JSON form of a requirement against its text. Both carry the same requirements: those whose operators
    are not nested too deep and whose courses have valid ids. The JSON form of such a requirement is read as the
    requirement. -/

namespace Curriculum

/-! ### Ids between blanks -/

theorem isWordChar_iff {c : Char} : isWordChar c = true ↔ (0x41 ≤ c.toNat ∧ c.toNat ≤ 0x5a) ∨
    (0x61 ≤ c.toNat ∧ c.toNat ≤ 0x7a) ∨ (0x30 ≤ c.toNat ∧ c.toNat ≤ 0x39) ∨ c = '_' ∨ c = '-' := by
  change (((decide (65 ≤ c.val ∧ c.val ≤ 90) || decide (97 ≤ c.val) && decide (c.val ≤ 122)) ||
    decide (48 ≤ c.val) && decide (c.val ≤ 57) || decide (c = '_') || decide (c = '-')) = true) ↔ _
  simp only [Bool.or_eq_true, Bool.and_eq_true, decide_eq_true_eq, UInt32.le_iff_toNat_le]
  change ((((65 ≤ c.toNat ∧ c.toNat ≤ 90) ∨ (97 ≤ c.toNat ∧ c.toNat ≤ 122)) ∨
    (48 ≤ c.toNat ∧ c.toNat ≤ 57)) ∨ c = '_') ∨ c = '-' ↔ _
  simp only [or_assoc]

/-- No blank has a code behind that of the space and before that of the next line. -/
theorem isBlank_of_between {c : Char} (h : 0x20 < c.toNat) (h' : c.toNat < 0x85) : Text.isBlank c = false := by
  simp only [Text.isBlank, Bool.or_eq_false_iff, Bool.and_eq_false_iff, decide_eq_false_iff_not]
  omega

theorem isBlank_of_isWordChar {c : Char} (h : isWordChar c = true) : Text.isBlank c = false := by
  rcases isWordChar_iff.mp h with ⟨h, h'⟩ | ⟨h, h'⟩ | ⟨h, h'⟩ | rfl | rfl
  · exact isBlank_of_between (by omega) (by omega)
  · exact isBlank_of_between (by omega) (by omega)
  · exact isBlank_of_between (by omega) (by omega)
  · rfl
  · rfl

namespace CourseId

theorem isWordChar_of_isValid {id : String} (h : isValid id = true) {c : Char} (hc : c ∈ id.toList) : isWordChar c = true := by
  simp only [isValid, Bool.and_eq_true] at h
  exact List.all_eq_true.mp h.1.2 c hc

theorem trim_of_isValid {id : String} (h : isValid id = true) : Text.trim id = id := by
  unfold Text.trim
  rw [Text.trimEnds_eq_self fun c hc => isBlank_of_isWordChar (isWordChar_of_isValid h hc), String.ofList_toList]

theorem normalize?_eq_self_iff {id : String} : normalize? id = some id ↔ isValid id = true :=
  normalize?_eq_some_iff.trans (and_iff_right_of_imp trim_of_isValid)

end CourseId

namespace Requirement

/-- The requirement can come from outside: its operators are nested no deeper than allowed, and its courses have
    valid ids. -/
structure Admissible (t : Requirement) : Prop where
  depth_le : t.depth ≤ 128
  valid : ∀ id ∈ t.courseIds, CourseId.isValid id = true

/-- The operators of the requirement are nested no deeper than there is room for, and its courses have valid ids. -/
def AdmissibleWithin (room : Nat) (t : Requirement) : Prop :=
  t.depth ≤ room ∧ ∀ id ∈ t.courseIds, CourseId.isValid id = true

theorem admissibleWithin_nothing (room : Nat) : AdmissibleWithin room .nothing :=
  ⟨Nat.zero_le room, fun _ hid => absurd hid SortedSet.not_mem_empty⟩

theorem admissibleWithin_course {room : Nat} {id : String} :
    AdmissibleWithin room (.course id) ↔ CourseId.isValid id = true :=
  ⟨fun h => h.2 id (SortedSet.mem_singleton.mpr rfl),
    fun h => ⟨Nat.zero_le room, fun _ hid => SortedSet.mem_singleton.mp hid ▸ h⟩⟩

theorem admissibleWithin_operator {room : Nat} {t l r : Requirement} (ht : t = .both l r ∨ t = .either l r) :
    AdmissibleWithin room t ↔ ∃ n, room = n + 1 ∧ AdmissibleWithin n l ∧ AdmissibleWithin n r := by
  have hdepth : t.depth = max l.depth r.depth + 1 := by rcases ht with rfl | rfl <;> rfl
  have hids : t.courseIds = l.courseIds ∪ r.courseIds := by rcases ht with rfl | rfl <;> rfl
  unfold AdmissibleWithin
  rw [hdepth, hids, SortedSet.forall_mem_union]
  constructor
  · rintro ⟨hd, hvl, hvr⟩
    exact ⟨room - 1, by omega, ⟨by omega, hvl⟩, by omega, hvr⟩
  · rintro ⟨n, rfl, ⟨hdl, hvl⟩, hdr, hvr⟩
    exact ⟨by omega, hvl, hvr⟩

/-! ### Reading the JSON form -/

theorem ofJsonWithin_obj (room : Nat) (fields : List (String × Json)) : ofJsonWithin room (.obj fields) =
    match kindOf fields, room with
    | "NONE", _ => .ok .nothing
    | "COURSE", _ => ofCourse fields
    | "AND", 0 | "OR", 0 => .error .tooDeep
    | "AND", room + 1 => ofOperands (ofJsonWithin room) .both fields
    | "OR", room + 1 => ofOperands (ofJsonWithin room) .either fields
    | kind, _ => .error (.unknownType kind) :=
  (ofJsonWithin.eq_def room (.obj fields)).trans rfl

theorem isObject_of_ofJsonWithin {room : Nat} {v : Json} {t : Requirement} (h : ofJsonWithin room v = .ok t) :
    ∃ fields, v = .obj fields := by
  rw [ofJsonWithin.eq_def] at h
  split at h
  · exact ⟨_, rfl⟩
  · cases h

theorem ofCourse_eq_ok {fields : List (String × Json)} {t : Requirement} (h : ofCourse fields = .ok t) :
    ∃ id, CourseId.isValid id = true ∧ t = .course id := by
  unfold ofCourse at h
  split at h
  · next id _ =>
    split at h
    · cases h
    · split at h
      · next hid => exact ⟨id, CourseId.normalize?_eq_self_iff.mp hid, (Except.ok.inj h).symm⟩
      · cases h
  · cases h

theorem ofOperands_eq_ok {read : Json → Except ShapeError Requirement} {op : Requirement → Requirement → Requirement}
    {fields : List (String × Json)} {t : Requirement} (h : ofOperands read op fields = .ok t) :
    ∃ left right l r, read left = .ok l ∧ read right = .ok r ∧ t = op l r := by
  obtain ⟨l, hl, h⟩ := bind_eq_ok.mp h
  obtain ⟨r, hr, h⟩ := bind_eq_ok.mp h
  exact ⟨_, _, l, r, hl, hr, (Except.ok.inj h).symm⟩

/-- What a value is read as: nothing, a course with a valid id, or two requirements, read with less room, under an
    operator. -/
theorem ofJsonWithin_cases {room : Nat} {v : Json} {t : Requirement} (h : ofJsonWithin room v = .ok t) :
    t = .nothing ∨ (∃ id, CourseId.isValid id = true ∧ t = .course id) ∨
      ∃ n left right l r, room = n + 1 ∧ ofJsonWithin n left = .ok l ∧ ofJsonWithin n right = .ok r ∧
        (t = .both l r ∨ t = .either l r) := by
  obtain ⟨fields, rfl⟩ := isObject_of_ofJsonWithin h
  rw [ofJsonWithin_obj] at h
  generalize kindOf fields = kind at h
  split at h
  · exact Or.inl (Except.ok.inj h).symm
  · exact Or.inr (Or.inl (ofCourse_eq_ok h))
  · cases h
  · cases h
  · obtain ⟨left, right, l, r, hl, hr, ht⟩ := ofOperands_eq_ok h
    exact Or.inr (Or.inr ⟨_, left, right, l, r, rfl, hl, hr, Or.inl ht⟩)
  · obtain ⟨left, right, l, r, hl, hr, ht⟩ := ofOperands_eq_ok h
    exact Or.inr (Or.inr ⟨_, left, right, l, r, rfl, hl, hr, Or.inr ht⟩)
  · cases h

theorem admissibleWithin_of_ofJsonWithin {room : Nat} {v : Json} {t : Requirement} (h : ofJsonWithin room v = .ok t) :
    AdmissibleWithin room t := by
  induction room using Nat.strongRecOn generalizing v t with
  | _ room ih =>
    rcases ofJsonWithin_cases h with rfl | ⟨id, hid, rfl⟩ | ⟨n, left, right, l, r, rfl, hl, hr, ht⟩
    · exact admissibleWithin_nothing room
    · exact admissibleWithin_course.mpr hid
    · exact (admissibleWithin_operator ht).mpr ⟨n, rfl, ih n (Nat.lt_succ_self n) hl, ih n (Nat.lt_succ_self n) hr⟩

/-! ### The JSON form, whatever the order of its fields -/

theorem kindOf_of_lookup {fields : List (String × Json)} {kind : String} (h : fields.lookup "type" = some (.str kind)) :
    kindOf fields = Text.upper kind := by
  unfold kindOf
  rw [h]
  rfl

section
variable {fields : List (String × Json)} {room : Nat}

theorem ofJsonWithin_none (h : fields.lookup "type" = some (.str "NONE")) :
    ofJsonWithin room (.obj fields) = .ok .nothing := by
  have hkind : kindOf fields = "NONE" := (kindOf_of_lookup h).trans (by decide +kernel)
  rw [ofJsonWithin_obj, hkind]
  rfl

theorem ofJsonWithin_course (h : fields.lookup "type" = some (.str "COURSE")) :
    ofJsonWithin room (.obj fields) = ofCourse fields := by
  have hkind : kindOf fields = "COURSE" := (kindOf_of_lookup h).trans (by decide +kernel)
  rw [ofJsonWithin_obj, hkind]
  rfl

theorem ofJsonWithin_both (h : fields.lookup "type" = some (.str "AND")) :
    ofJsonWithin (room + 1) (.obj fields) = ofOperands (ofJsonWithin room) .both fields := by
  have hkind : kindOf fields = "AND" := (kindOf_of_lookup h).trans (by decide +kernel)
  rw [ofJsonWithin_obj, hkind]
  rfl

theorem ofJsonWithin_either (h : fields.lookup "type" = some (.str "OR")) :
    ofJsonWithin (room + 1) (.obj fields) = ofOperands (ofJsonWithin room) .either fields := by
  have hkind : kindOf fields = "OR" := (kindOf_of_lookup h).trans (by decide +kernel)
  rw [ofJsonWithin_obj, hkind]
  rfl

theorem ofCourse_of_lookup {id : String} (h : fields.lookup "id" = some (.str id)) (hid : CourseId.isValid id = true) :
    ofCourse fields = .ok (.course id) := by
  have hne : id.isEmpty = false := by
    simp only [CourseId.isValid, Bool.and_eq_true, Bool.not_eq_true'] at hid
    exact hid.1.1
  simp only [ofCourse, h, hne, Bool.false_eq_true, if_false, CourseId.normalize?_eq_self_iff.mpr hid, if_true]

theorem ofOperands_of_lookup {read : Json → Except ShapeError Requirement}
    {op : Requirement → Requirement → Requirement} {left right : Json} {l r : Requirement}
    (hl : fields.lookup "left" = some left) (hr : fields.lookup "right" = some right)
    (hreadl : read left = .ok l) (hreadr : read right = .ok r) : ofOperands read op fields = .ok (op l r) := by
  unfold ofOperands
  rw [hl, hr, Option.getD_some, Option.getD_some, hreadl, ok_bind, hreadr]
  rfl

end

end Requirement

/-! ### Values that differ in the order of fields -/

namespace Json

/-- The two values are the same but for the order in which objects have their fields. -/
inductive Same : Json → Json → Prop
  | refl (v : Json) : Same v v
  | arr {items jtems : List Json} (hlength : items.length = jtems.length)
      (hitem : ∀ (k : Nat) v w, items[k]? = some v → jtems[k]? = some w → Same v w) : Same (.arr items) (.arr jtems)
  | obj {fields gields : List (String × Json)} (hkey : ∀ key, fields.lookup key = none ↔ gields.lookup key = none)
      (hfield : ∀ key v w, fields.lookup key = some v → gields.lookup key = some w → Same v w) :
      Same (.obj fields) (.obj gields)

namespace Same

theorem eq_str {v : Json} {s : String} (h : Same v (.str s)) : v = .str s := by
  cases h
  rfl

/-- Objects with the same fields in any order are the same. -/
theorem of_perm {fields gields : List (String × Json)} (h : fields.Perm gields) (hd : (fields.map Prod.fst).Nodup) :
    Same (.obj fields) (.obj gields) := by
  refine .obj (fun key => by rw [Entries.lookup_eq_of_perm h hd]) fun key v w hv hw => ?_
  rw [Entries.lookup_eq_of_perm h hd, hw] at hv
  rw [Option.some.inj hv]
  exact .refl v

/-- A value that is the same as an object has the fields of the object. -/
theorem exists_lookup {v : Json} {gields : List (String × Json)} (h : Same v (.obj gields)) :
    ∃ fields, v = .obj fields ∧ ∀ key w, gields.lookup key = some w → ∃ v, fields.lookup key = some v ∧ Same v w := by
  cases h with
  | refl => exact ⟨gields, rfl, fun _ w hw => ⟨w, hw, .refl w⟩⟩
  | obj hkey hfield =>
    refine ⟨_, rfl, fun key w hw => ?_⟩
    cases hv : List.lookup key _ with
    | none => rw [(hkey key).mp hv] at hw; cases hw
    | some v => exact ⟨v, rfl, hfield key v w hv hw⟩

end Same
end Json

namespace Requirement
open Json (Same)

/-- The two operands of a value that is the same as the JSON form under an operator are read as the operands. -/
theorem ofOperands_of_same {room : Nat} {word : String} {l r : Requirement} {v : Json}
    (hv : Same v (.obj [("type", .str word), ("left", l.toJson), ("right", r.toJson)]))
    (hl : ∀ left, Same left l.toJson → ofJsonWithin room left = .ok l)
    (hr : ∀ right, Same right r.toJson → ofJsonWithin room right = .ok r) :
    ∃ fields, v = .obj fields ∧ fields.lookup "type" = some (.str word) ∧
      ∀ op, ofOperands (ofJsonWithin room) op fields = .ok (op l r) := by
  obtain ⟨fields, rfl, hfields⟩ := hv.exists_lookup
  obtain ⟨_, htype, hs⟩ := hfields "type" _ rfl
  obtain ⟨left, hleft, hsl⟩ := hfields "left" _ rfl
  obtain ⟨right, hright, hsr⟩ := hfields "right" _ rfl
  exact ⟨fields, rfl, hs.eq_str ▸ htype, fun op => ofOperands_of_lookup hleft hright (hl left hsl) (hr right hsr)⟩

/-- The JSON form of a requirement is read as the requirement, where there is room for it. -/
theorem ofJsonWithin_of_same {room : Nat} {t : Requirement} (h : AdmissibleWithin room t) {v : Json}
    (hv : Same v t.toJson) : ofJsonWithin room v = .ok t := by
  induction t generalizing room v with
  | nothing =>
    obtain ⟨fields, rfl, hfields⟩ := hv.exists_lookup
    obtain ⟨_, htype, hs⟩ := hfields "type" _ rfl
    exact ofJsonWithin_none (hs.eq_str ▸ htype)
  | course id =>
    obtain ⟨fields, rfl, hfields⟩ := hv.exists_lookup
    obtain ⟨_, htype, hs⟩ := hfields "type" _ rfl
    obtain ⟨_, hid, hsid⟩ := hfields "id" _ rfl
    rw [ofJsonWithin_course (hs.eq_str ▸ htype)]
    exact ofCourse_of_lookup (hsid.eq_str ▸ hid) (admissibleWithin_course.mp h)
  | both l r ihl ihr =>
    obtain ⟨n, rfl, hl, hr⟩ := (admissibleWithin_operator (Or.inl rfl)).mp h
    obtain ⟨fields, rfl, htype, hoperands⟩ := ofOperands_of_same hv (fun _ => ihl hl) (fun _ => ihr hr)
    exact (ofJsonWithin_both htype).trans (hoperands both)
  | either l r ihl ihr =>
    obtain ⟨n, rfl, hl, hr⟩ := (admissibleWithin_operator (Or.inr rfl)).mp h
    obtain ⟨fields, rfl, htype, hoperands⟩ := ofOperands_of_same hv (fun _ => ihl hl) (fun _ => ihr hr)
    exact (ofJsonWithin_either htype).trans (hoperands either)

/-! ### What text and JSON carry -/

theorem exists_parse_eq_ok_iff {t : Requirement} : (∃ s, parse s = .ok t) ↔ t.Admissible := by
  constructor
  · rintro ⟨s, h⟩
    have hw := parse_eq_ok_iff.mp h
    exact ⟨hw.depth_le, fun _ hid => hw.isValid_of_mem hid⟩
  · intro h
    exact ⟨t.render, parse_render_of_valid h.depth_le h.valid⟩

theorem Admissible.ofJson_of_same {t : Requirement} (h : t.Admissible) {v : Json} (hv : Same v t.toJson) :
    ofJson v = .ok t :=
  ofJsonWithin_of_same ⟨h.depth_le, h.valid⟩ hv

theorem exists_ofJson_eq_ok_iff {t : Requirement} : (∃ v, ofJson v = .ok t) ↔ t.Admissible := by
  constructor
  · rintro ⟨v, h⟩
    obtain ⟨hdepth, hvalid⟩ := admissibleWithin_of_ofJsonWithin h
    exact ⟨hdepth, hvalid⟩
  · intro h
    exact ⟨t.toJson, h.ofJson_of_same (.refl _)⟩

end Requirement
end Curriculum
