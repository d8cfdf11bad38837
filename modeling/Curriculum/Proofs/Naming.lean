import Curriculum.Command.Run
import Curriculum.Proofs.Drawing
import Curriculum.Proofs.Interchange

/-! What a course id is, for those who enter ids and for the reader of requirements. The entry cuts blanks off and tests
    what is left; the reader takes words out of a text and looks each up among its keywords. Both know the same ids: the
    words that, as texts of requirements, ask for the course of that name. So the ids of a compiled graph can all be
    referred to, and whatever a requirement refers to passes the entry as it is. -/

namespace Curriculum

/-! ### Blanks around a text -/

/-- The second text is the first without the blanks around it. -/
structure Text.Strips (s r : String) : Prop where
  around : ∃ front back, s.toList = front ++ (r.toList ++ back) ∧ (∀ c ∈ front, isBlank c = true) ∧
    ∀ c ∈ back, isBlank c = true
  first : ∀ c, r.toList.head? = some c → isBlank c = false
  last : ∀ c, r.toList.getLast? = some c → isBlank c = false

theorem Text.trim_eq_iff {s r : String} : trim s = r ↔ Strips s r := by
  constructor
  · rintro rfl
    rw [trim]
    refine ⟨?_, ?_, ?_⟩ <;> rw [String.toList_ofList]
    · exact exists_trimEnds isBlank s.toList
    · exact fun _ => head?_trimEnds
    · exact fun _ => getLast?_trimEnds
  · rintro ⟨⟨front, back, hs, hfront, hback⟩, hfirst, hlast⟩
    rw [trim, hs, trimEnds_between hfront hback hfirst hlast, String.ofList_toList]

namespace CourseId

/-! ### The language of ids -/

/-- The characters of ids by their codes: capitals, small letters and digits of ASCII, the underscore and the hyphen. -/
def InAlphabet (c : Char) : Prop :=
  (0x41 ≤ c.toNat ∧ c.toNat ≤ 0x5a) ∨ (0x61 ≤ c.toNat ∧ c.toNat ≤ 0x7a) ∨ (0x30 ≤ c.toNat ∧ c.toNat ≤ 0x39) ∨
    c.toNat = 0x5f ∨ c.toNat = 0x2d

/-- The text is a course id: it is made of the characters of ids, of one at least, and its capitals, by the mapping of
    Unicode, are none of the reserved words. -/
structure Named (s : String) : Prop where
  nonempty : s ≠ ""
  drawn : ∀ c ∈ s.toList, InAlphabet c
  unreserved : Text.upper s ∉ ["AND", "OR", "NONE"]

theorem inAlphabet_iff {c : Char} : InAlphabet c ↔ isWordChar c = true := by
  have hunderscore : c.toNat = 0x5f ↔ c = '_' := ⟨fun h => Char.ext (UInt32.toNat_inj.mp h), fun h => h ▸ rfl⟩
  have hhyphen : c.toNat = 0x2d ↔ c = '-' := ⟨fun h => Char.ext (UInt32.toNat_inj.mp h), fun h => h ▸ rfl⟩
  rw [isWordChar_iff, InAlphabet, hunderscore, hhyphen]

theorem InAlphabet.lt {c : Char} (h : InAlphabet c) : c.toNat < 128 := by
  unfold InAlphabet at h
  omega

/-- For the characters of ids, capitals by the mapping of Unicode are capitals of ASCII. -/
theorem upper_eq_capitals_of_drawn {s : String} (h : ∀ c ∈ s.toList, InAlphabet c) : Text.upper s = capitals s := by
  have hsame := upper_eq_capitals fun c hc => (h c hc).lt
  rwa [String.ofList_toList] at hsame

theorem isNone_ofWord?_iff {s : String} : (Keyword.ofWord? s).isNone = true ↔ capitals s ∉ ["AND", "OR", "NONE"] := by
  unfold Keyword.ofWord?
  split <;> simp_all

theorem isValid_iff {s : String} : isValid s = true ↔ Named s := by
  simp only [isValid, Bool.and_eq_true, Bool.not_eq_true', List.all_eq_true, ← inAlphabet_iff, isNone_ofWord?_iff]
  constructor
  · rintro ⟨⟨hne, hdrawn⟩, hword⟩
    refine ⟨fun h => ?_, hdrawn, by rwa [upper_eq_capitals_of_drawn hdrawn]⟩
    rw [h] at hne
    cases hne
  · rintro ⟨hne, hdrawn, hword⟩
    rw [upper_eq_capitals_of_drawn hdrawn] at hword
    exact ⟨⟨Bool.eq_false_iff.mpr fun h => hne (String.isEmpty_iff.mp h), hdrawn⟩, hword⟩

/-! ### Ids as texts of requirements -/

/-- A text is the name of the course that it asks for just if it is a course id. -/
theorem parse_eq_course_iff {r : String} : Requirement.parse r = .ok (.course r) ↔ isValid r = true := by
  have hmem : ∀ id, id ∈ (Requirement.course r).courseIds ↔ id = r := fun id => SortedSet.mem_singleton
  constructor
  · intro h
    exact (Requirement.parse_eq_ok_iff.mp h).isValid_of_mem ((hmem r).mpr rfl)
  · intro h
    have hread := Requirement.parse_render_of_valid (r := .course r) (Nat.zero_le _) fun id hid => (hmem id).mp hid ▸ h
    exact hread

end CourseId

/-! ### Ids in graphs -/

namespace Graph

/-- The ids of a graph compiled from rows with trimmed ids are course ids. -/
theorem isValid_of_compile {cap : Option Int} {id : Json} {rows : List Row} {c : Compilation}
    (h : compile cap id rows = .ok c) (htrim : ∀ row ∈ rows, Text.trim row.courseId = row.courseId) {n : Node}
    (hn : n ∈ c.graph.nodes) : CourseId.isValid n.id = true := by
  obtain ⟨edges, -, hg, -⟩ := compile_eq_ok h
  rw [hg] at hn
  have hnode := Intake.hasNode_iff.mpr (List.mem_map_of_mem (f := Node.id) hn)
  rw [Intake.hasNode_ofRows] at hnode
  obtain ⟨row, hrow, hcomplete⟩ := List.any_eq_true.mp hnode
  simp only [Row.isComplete, Bool.and_eq_true, decide_eq_true_eq] at hcomplete
  obtain ⟨⟨⟨hid, -⟩, -⟩, heq⟩ := hcomplete
  obtain ⟨r, hr⟩ := Option.isSome_iff_exists.mp hid
  obtain ⟨hstripped, hvalid⟩ := CourseId.normalize?_eq_some_iff.mp hr
  rwa [← heq, ← htrim row hrow, hstripped]

theorem trim_courseId_of_mem_ofJson {items : List Json} {row : Row} (h : row ∈ Row.ofJson items) :
    Text.trim row.courseId = row.courseId := by
  obtain ⟨⟨id, name, credits, expression⟩, -, rfl⟩ := List.mem_map.mp h
  exact Text.trim_trim id

end Graph

theorem Command.trim_courseId_of_mem_rowsOf {t : Csv.Table} {row : Graph.Row} (h : row ∈ rowsOf t) :
    Text.trim row.courseId = row.courseId := by
  obtain ⟨cells, -, rfl⟩ := List.mem_map.mp h
  exact Text.trim_trim _

/-- Entering a text gives an id just if the id is the text without the blanks around it and reads as the requirement of
    the course of that name; the texts that read so are the names of one language. Hence the id of every node reads as
    the requirement of that node, whether the graph is compiled from posted rows or from a file, and every id in a
    requirement that was read from a text can be entered and stays as it is. -/
theorem CourseId.entry_and_reader_agree :
    (∀ s r, normalize? s = some r ↔ Text.Strips s r ∧ Requirement.parse r = .ok (.course r)) ∧
    (∀ r, Requirement.parse r = .ok (.course r) ↔ Named r) ∧
    (∀ cap id items c, Graph.compile cap id (Graph.Row.ofJson items) = .ok c →
      ∀ n ∈ c.graph.nodes, Requirement.parse n.id = .ok (.course n.id)) ∧
    (∀ o file c, Command.compileFile o file = .ok c →
      ∀ n ∈ c.graph.nodes, Requirement.parse n.id = .ok (.course n.id)) ∧
    ∀ s t, Requirement.parse s = .ok t → ∀ id ∈ t.courseIds, normalize? id = some id := by
  refine ⟨fun s r => ?_, fun r => parse_eq_course_iff.trans isValid_iff, fun cap id items c h n hn => ?_,
    fun o file c h n hn => ?_, fun s t h id hid => ?_⟩
  · rw [normalize?_eq_some_iff, Text.trim_eq_iff, parse_eq_course_iff]
  · exact parse_eq_course_iff.mpr (Graph.isValid_of_compile h (fun _ => Graph.trim_courseId_of_mem_ofJson) hn)
  · cases file with
    | none => cases h
    | some text =>
      obtain ⟨table, -, h⟩ := bind_eq_ok.mp h
      have hcompiled := mapError_eq_ok.mp h
      exact parse_eq_course_iff.mpr
        (Graph.isValid_of_compile hcompiled (fun _ => Command.trim_courseId_of_mem_rowsOf) hn)
  · exact normalize?_eq_self_iff.mpr ((Requirement.parse_eq_ok_iff.mp h).isValid_of_mem hid)

end Curriculum
