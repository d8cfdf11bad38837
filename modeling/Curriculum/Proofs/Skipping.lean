import Curriculum.Proofs.Bookkeeping

/-! Texts that are passed over unread. A text that states nothing is told from its characters alone: layout is cut
    off, and the rest is compared with the word NONE in capitals of all scripts. The tokens would have said the same,
    so whoever passes over such texts comes to the same answers, and to the same failures, as one who reads every
    text. -/

namespace Curriculum

/-! ### All courses of a map -/

section
variable {σ : Type} (done : String → Bool)

theorem isEligible_run (text : Option String) (s : σ) :
    (isEligible Reading.plain done text).run s = ((Requirement.parse? text).map fun r => r.holds done, s) := by
  cases text with
  | none => rfl
  | some text =>
    unfold isEligible
    dsimp only
    split
    · exact run_map_eq (Reading.plain text) (fun r => r.holds done) s
    · next hs =>
      rw [Requirement.parse?, Requirement.parse_of_not_isStated (Bool.eq_false_iff.mpr hs)]
      rfl

/-- One text after another is read, up to the first that cannot be. -/
theorem eligibilityOf_run (entries : List (String × Option String)) (s : σ) :
    (eligibilityOf Reading.plain done entries).run s =
      (entries.mapM fun entry => (Requirement.parse? entry.2).map fun r => (entry.1, r.holds done), s) := by
  induction entries with
  | nil => rfl
  | cons entry rest ih =>
    rw [eligibilityOf, run_bind_eq, isEligible_run, List.mapM_cons]
    cases Requirement.parse? entry.2 with
    | error e => rfl
    | ok r =>
      change (eligibilityOf Reading.plain done rest >>= fun others => pure ((entry.1, r.holds done) :: others)).run s = _
      rw [run_map_eq, ih]
      generalize List.mapM (m := Except SyntaxError) _ rest = others
      cases others <;> rfl

end

/-! ### Maps and books -/

/-- The book that some calls make of a new one. -/
def Book.after (expressions : Expressions) (size : Int) (calls : List Book.Call) : Book :=
  (Call.performAll calls (.ofExpressions expressions size)).2

/-- The eligibility of all courses is told in their order as if each text were read, and the first text that cannot be
    read is the one reported. A book, whatever has been asked of it before, tells the eligibility and the prerequisites
    of a course as if its text were read. -/
theorem skipped_as_read :
    (∀ (expressions : Expressions) (standing : Standing),
      (eligibility Reading.plain standing.has expressions).result = expressions.entries.mapM fun entry =>
        (Requirement.parse? entry.2).map fun r => (entry.1, r.holds standing.has)) ∧
    ∀ (expressions : Expressions) (size : Int) (calls : List Book.Call) (course : String),
      let b := Book.after expressions size calls
      (∀ standing : Standing, ((Book.eligible course standing).run b).1 =
        (Requirement.parse (b.expression course)).map fun r => r.holds standing.has) ∧
      ((Book.prerequisites course).run b).1 = (Requirement.parse (b.expression course)).map Requirement.courseIds := by
  refine ⟨fun expressions standing => ?_, fun expressions size calls course => ?_⟩
  · exact congrArg Prod.fst (eligibilityOf_run standing.has expressions.entries ())
  · obtain ⟨-, -, hmemory⟩ := Book.performAll_of_fits calls (b := .ofExpressions expressions size) (.ofSize size)
    exact ⟨fun standing => (Book.outcome_eligible hmemory course standing).result,
      (Book.outcome_prerequisites hmemory course).result⟩

/-- No-break spaces are no layout, so a text with one is read, and it cannot be. -/
example : (eligibility Reading.plain (fun _ => false) (.ofList [("A", some " nOnE\x0b"), ("B", none)])).result =
      .ok [("A", true), ("B", true)] ∧
    (eligibility Reading.plain (fun _ => false) (.ofList [("A", none), ("B", some "none\u00a0")])).result =
      .error (.strayCharacter '\u00a0' 4) := by
  decide +kernel

end Curriculum
