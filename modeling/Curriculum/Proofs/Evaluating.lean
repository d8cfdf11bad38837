import Curriculum.Proofs.Spellings

/-! Whether a requirement is met, as the service answers it. Of the completed courses only those count that the
    requirement refers to, for the verdict as for the text that shows how far it is met. So it makes no difference that
    a text of completed courses loses the others, and a list and a text of the same ids are answered alike. -/

namespace Curriculum

namespace Requirement

theorem progressIn_congr {r : Requirement} {done done' : String → Bool} (h : ∀ id ∈ r.courseIds, done id = done' id)
    (parent : Option Operator) : r.progressIn done parent = r.progressIn done' parent := by
  induction r generalizing parent with
  | nothing => rfl
  | course id => rw [progressIn, progressIn, h id (SortedSet.mem_singleton.mpr rfl)]
  | both l r ihl ihr | either l r ihl ihr =>
    obtain ⟨hleft, hright⟩ := SortedSet.forall_mem_union.mp h
    have hl := ihl hleft
    have hr := ihr hright
    simp only [progressIn, hl, hr]

/-- The text shows completed courses only where the requirement refers to them. -/
theorem progress_congr {r : Requirement} {done done' : String → Bool} (h : ∀ id ∈ r.courseIds, done id = done' id) :
    r.progress done = r.progress done' := by
  cases r with
  | nothing => rfl
  | course | both | either => exact progressIn_congr h none

end Requirement

namespace Service

/-- The answer about a requirement, from the courses that are completed. -/
def evaluation (t : Requirement) (done : String → Bool) : Json :=
  .obj [("satisfied", .bool (t.holds done)), ("check", .str (t.progress done))]

theorem evaluation_congr {t : Requirement} {done done' : String → Bool} (h : ∀ id ∈ t.courseIds, done id = done' id) :
    evaluation t done = evaluation t done' := by
  rw [evaluation, Requirement.holds_congr h, Requirement.progress_congr h, evaluation]

theorem answerAnew_evaluate (cap : Option Int) (body : Json) : answerAnew cap .evaluate (some body) =
    (expressionIn body).mapError .refused >>= fun text =>
      (Requirement.parse text).mapError (fun e => .refused (.unreadable e)) >>= fun t =>
        (standingIn (t.courseIds.toList.contains ·) body).mapError .refused >>= fun standing =>
          .ok (.plain (evaluation t standing.has)) := by
  unfold answerAnew Endpoint.answer evaluate requirementIn
  simp only [run_unit_bind, ofInput_run_unit, ofReading_run_unit, bind_assoc]
  rfl

/-! ### Two spellings -/

section
variable {cap : Option Int} {ids : List String} {listed typed : Json}

/-- Without statuses both spellings are answered as the list of ids itself. -/
theorem answerAnew_evaluate_of_completed {body v : Json} {text : String} {t : Requirement}
    (hexpression : expressionIn body = .ok text) (ht : Requirement.parse text = .ok t)
    (hstatus : body.field? "status" = none ∨ body.field? "status" = some .null)
    (hcompleted : body.field? "completed" = some v)
    (hv : ∃ kept, standingOfCompleted (t.courseIds.toList.contains ·) v = .ok (.completed kept) ∧
      ∀ id ∈ t.courseIds, id ∈ kept ↔ id ∈ ids) :
    answerAnew cap .evaluate (some body) = .ok (.plain (evaluation t (Standing.completed ids).has)) := by
  obtain ⟨kept, hkept, hmem⟩ := hv
  have hstanding : standingIn (t.courseIds.toList.contains ·) body = .ok (.completed kept) := by
    rw [standingIn]
    rcases hstatus with hstatus | hstatus <;> rw [hstatus] <;> simp only [completedIn, hcompleted, Option.getD_some, hkept]
  have hsame : evaluation t (Standing.completed kept).has = evaluation t (Standing.completed ids).has := by
    refine evaluation_congr fun id hid => ?_
    rw [Standing.has, Standing.has, Bool.eq_iff_iff, List.contains_iff_mem, List.contains_iff_mem]
    exact hmem id hid
  rw [answerAnew_evaluate, hexpression, mapError_eq_ok.mpr rfl, ok_bind, ht, mapError_eq_ok.mpr rfl, ok_bind, hstanding,
    mapError_eq_ok.mpr rfl, ok_bind, hsame]

variable (hids : ∀ id ∈ ids, CourseId.isValid id = true)
include hids

theorem standingOfCompleted_ofTexts_iff (t : Requirement) :
    ∃ kept, standingOfCompleted (t.courseIds.toList.contains ·) (.ofTexts ids) = .ok (.completed kept) ∧
      ∀ id ∈ t.courseIds, id ∈ kept ↔ id ∈ ids :=
  ⟨ids, standingOfCompleted_ofTexts hids _, fun _ _ => Iff.rfl⟩

/-- The text loses only ids that the requirement does not refer to. -/
theorem standingOfCompleted_joined_iff (t : Requirement) :
    ∃ kept, standingOfCompleted (t.courseIds.toList.contains ·) (.str (",".intercalate ids)) = .ok (.completed kept) ∧
      ∀ id ∈ t.courseIds, id ∈ kept ↔ id ∈ ids := by
  obtain ⟨kept, hkept, hmem⟩ := standingOfCompleted_joined hids (t.courseIds.toList.contains ·)
  refine ⟨kept, hkept, fun id hid => ?_⟩
  rw [hmem, List.contains_iff_mem]
  exact and_iff_left hid

theorem answerAnew_evaluate_eq (hsame : SameBut "completed" listed typed)
    (hlisted : listed.field? "completed" = some (.ofTexts ids))
    (htyped : typed.field? "completed" = some (.str (",".intercalate ids))) :
    answerAnew cap .evaluate (some listed) = answerAnew cap .evaluate (some typed) := by
  have hexpression : expressionIn listed = expressionIn typed := by
    rw [expressionIn, hsame "expression" (by decide), expressionIn]
  have hstatus : listed.field? "status" = typed.field? "status" := hsame "status" (by decide)
  by_cases hunstated : typed.field? "status" = none ∨ typed.field? "status" = some .null
  · cases he : expressionIn typed with
    | error refusal =>
      simp only [answerAnew_evaluate, hexpression, he]
      rfl
    | ok text =>
      cases ht : Requirement.parse text with
      | error e =>
        simp only [answerAnew_evaluate, hexpression, he, mapError_eq_ok.mpr rfl, ok_bind, ht]
        rfl
      | ok t =>
        rw [answerAnew_evaluate_of_completed (hexpression.trans he) ht (hstatus ▸ hunstated) hlisted
            (standingOfCompleted_ofTexts_iff hids t),
          answerAnew_evaluate_of_completed he ht hunstated htyped (standingOfCompleted_joined_iff hids t)]
  · -- Where there are statuses, nobody looks at the completed courses.
    have hstanding : ∀ inCatalog, standingIn inCatalog listed = standingIn inCatalog typed := by
      intro inCatalog
      rw [standingIn, hstatus, standingIn]
      split
      · next hnone => exact absurd (.inl hnone) hunstated
      · next hnull => exact absurd (.inr hnull) hunstated
      · rfl
    simp only [answerAnew_evaluate, hexpression, hstanding]

end

/-- A list and a text of the same completed courses are shown the same. To a requirement that is read, both are answered
    as by all courses of the list, also by those that the requirement does not refer to. -/
theorem evaluated_typed_or_listed (s : Service) (size : Int) {ids : List String}
    (hids : ∀ id ∈ ids, CourseId.normalize? id = some id) {list text : Request} {listed typed : Json}
    (hlist : list.Posts .evaluate listed) (htext : text.Posts .evaluate typed) (hsame : SameBut "completed" listed typed)
    (hlisted : listed.field? "completed" = some (.ofTexts ids))
    (htyped : typed.field? "completed" = some (.str (",".intercalate ids))) :
    s.RepliesAlike size list text ∧
    ∀ e t, expressionIn typed = .ok e → Requirement.parse e = .ok t →
      (typed.field? "status" = none ∨ typed.field? "status" = some .null) →
      s.Accepts size list (evaluation t (Standing.completed ids).has) ∧
      s.Accepts size text (evaluation t (Standing.completed ids).has) := by
  have hvalid : ∀ id ∈ ids, CourseId.isValid id = true := fun id hid => CourseId.normalize?_eq_self_iff.mp (hids id hid)
  have hanswer : ∀ cap, answerAnew cap .evaluate (some listed) = answerAnew cap .evaluate (some typed) :=
    fun cap => answerAnew_evaluate_eq hvalid hsame hlisted htyped
  refine ⟨repliesAlike_of_answerAnew hlist htext (hanswer s.cap), fun e t he ht hstatus => ?_⟩
  have htold : answerAnew s.cap .evaluate (some typed) = .ok (.plain (evaluation t (Standing.completed ids).has)) :=
    answerAnew_evaluate_of_completed he ht hstatus htyped (standingOfCompleted_joined_iff hvalid t)
  exact ⟨accepts_of_answerAnew hlist ((hanswer s.cap).trans htold), accepts_of_answerAnew htext htold⟩

/-- A course that the requirement does not refer to, once in a list and once in a text. -/
theorem evaluated_typed_or_listed_unused :
    Accepts ⟨none, .ofInt 750, false⟩ 1
      ⟨"POST", "/api/expression/evaluate", some "application/json",
        some "\x7b\"expression\": \"A and B\", \"completed\": [\"Z\", \"A\"]\x7d"⟩
      (.obj [("satisfied", .bool false), ("check", .str "A ✓ AND B ✗")]) ∧
    Accepts ⟨none, .ofInt 750, false⟩ 1
      ⟨"POST", "/api/expression/evaluate", some "application/json",
        some "\x7b\"expression\": \"A and B\", \"completed\": \"Z,A\"\x7d"⟩
      (.obj [("satisfied", .bool false), ("check", .str "A ✓ AND B ✗")]) := by
  have hids : ∀ id ∈ ["Z", "A"], CourseId.normalize? id = some id := by decide
  have hlist : Request.Posts
      ⟨"POST", "/api/expression/evaluate", some "application/json",
        some "\x7b\"expression\": \"A and B\", \"completed\": [\"Z\", \"A\"]\x7d"⟩
      .evaluate (.obj [("expression", .str "A and B"), ("completed", .ofTexts ["Z", "A"])]) := ⟨by decide +kernel, rfl⟩
  have htext : Request.Posts
      ⟨"POST", "/api/expression/evaluate", some "application/json",
        some "\x7b\"expression\": \"A and B\", \"completed\": \"Z,A\"\x7d"⟩
      .evaluate (.obj [("expression", .str "A and B"), ("completed", .str "Z,A")]) := ⟨by decide +kernel, rfl⟩
  have hsame : SameBut "completed" (.obj [("expression", .str "A and B"), ("completed", .ofTexts ["Z", "A"])])
      (.obj [("expression", .str "A and B"), ("completed", .str "Z,A")]) := by
    intro other hother
    simp [Json.field?, Entries.lookup_cons, hother]
  obtain ⟨-, haccepts⟩ := evaluated_typed_or_listed ⟨none, .ofInt 750, false⟩ 1 hids hlist htext hsame rfl rfl
  exact haccepts "A and B" (.both (.course "A") (.course "B")) rfl (by decide +kernel) (.inl rfl)

end Service
end Curriculum
