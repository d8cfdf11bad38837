import Curriculum.Proofs.Interchange
import Curriculum.Proofs.Remembering

/-! From text to JSON and back through the service. What it answers to a requirement text can be posted back to
    it: the tree is written as the canonical text, and the canonical text is read as the text itself was. -/

namespace Curriculum

namespace Service

/-- The request brings an object to an endpoint. -/
structure Request.Posts (r : Request) (e : Endpoint) (body : Json) : Prop where
  routed : r.routed = .endpoint e
  brought : r.object? = some body

/-- Whatever it has served before, the service accepts the request and answers with the body. -/
def Accepts (s : Service) (size : Int) (r : Request) (body : Json) : Prop :=
  ∀ m, s.Reached size m → ∀ elapsed, ∃ log, ((s.serve elapsed r).run m).1 = .ok ⟨200, some body, log⟩

/-- The answer to a text that is read as the requirement. -/
def parseAnswer (t : Requirement) : Json :=
  .obj [("ast", t.toJson), ("normalized", .str t.render), ("referenced", .ofTexts t.courseIds.toList)]

variable {s : Service} {size : Int} {r : Request} {body : Json}

/-! ### Accepted requests -/

theorem Refusal.status_ne_ok (refusal : Refusal) : refusal.status ≠ 200 := by
  unfold Refusal.status
  split <;> simp

/-- An endpoint that replies with success has an answer. -/
theorem exists_answer_of_replyOf {elapsed : Double} {e : Endpoint} {x : Except Failure Answer} {log : List String}
    (h : s.replyOf elapsed r e x = .ok ⟨200, some body, log⟩) : ∃ answer, x = .ok answer ∧ answer.body = body := by
  unfold replyOf reply at h
  split at h
  · next answer =>
    simp only [Except.ok.injEq, Reply.mk.injEq, Option.some.injEq, true_and] at h
    exact ⟨answer, rfl, h.1⟩
  · next refusal =>
    simp only [Except.ok.injEq, Reply.mk.injEq] at h
    exact absurd h.1 refusal.status_ne_ok
  · split at h
    · cases h
    · simp at h

theorem exists_answer_of_reached {m : Memory} {elapsed : Double} {e : Endpoint} {log : List String}
    (hm : s.Reached size m) (hr : r.routed = .endpoint e)
    (h : ((s.serve elapsed r).run m).1 = .ok ⟨200, some body, log⟩) :
    ∃ answer, answerAnew s.cap e r.object? = .ok answer ∧ answer.body = body := by
  rw [serve_of_reached hm, replyAnew_of_routed hr] at h
  exact exists_answer_of_replyOf h

theorem accepts_of_answerAnew {e : Endpoint} {posted : Json} {answer : Answer} (hr : r.Posts e posted)
    (h : answerAnew s.cap e (some posted) = .ok answer) : s.Accepts size r answer.body := by
  intro m hm elapsed
  rw [serve_of_reached hm, replyAnew_of_routed hr.routed, hr.brought, h]
  exact ⟨_, rfl⟩

/-! ### Reading and writing requirements -/

theorem run_unit_bind {ε α β : Type} (x : ExceptT ε (StateM Unit) α) (f : α → ExceptT ε (StateM Unit) β) :
    ((x >>= f).run ()).1 = (x.run ()).1 >>= fun a => ((f a).run ()).1 := by
  rw [run_bind_eq]
  obtain ⟨_ | _, _⟩ := x.run () <;> rfl

theorem ofInput_run_unit {α : Type} (x : Except Refusal α) :
    ((Handling.ofInput x : Handling Unit α).run ()).1 = x.mapError .refused := by
  cases x <;> rfl

theorem ofReading_run_unit {α : Type} (x : Reading Unit α) :
    ((Handling.ofReading x).run ()).1 = (x.run ()).1.mapError fun e => .refused (.unreadable e) := by
  rw [ofReading_run]
  obtain ⟨_ | _, _⟩ := x.run () <;> rfl

theorem answerAnew_parse (cap : Option Int) (body : Json) : answerAnew cap .parse (some body) =
    (expressionIn body).mapError .refused >>= fun text =>
      (Requirement.parse text).mapError (fun e => .refused (.unreadable e)) >>= fun t => .ok (.plain (parseAnswer t)) := by
  unfold answerAnew Endpoint.answer Service.parse requirementIn
  simp only [run_unit_bind, ofInput_run_unit, ofReading_run_unit, bind_assoc]
  rfl

theorem answerAnew_stringify (cap : Option Int) (body : Json) : answerAnew cap .stringify (some body) =
    (treeIn body).mapError .refused >>= fun t => .ok (.plain (.obj [("expression", .str t.render)])) := by
  unfold answerAnew Endpoint.answer Service.stringify
  rw [run_unit_bind, ofInput_run_unit]
  rfl

/-- A text that was accepted has been read, and the answer tells what it was read as. -/
theorem exists_parse_of_reached {m : Memory} {elapsed : Double} {log : List String} (hm : s.Reached size m)
    (hr : r.routed = .endpoint .parse) (h : ((s.serve elapsed r).run m).1 = .ok ⟨200, some body, log⟩) :
    ∃ text t, Requirement.parse text = .ok t ∧ body = parseAnswer t := by
  obtain ⟨answer, hanswer, rfl⟩ := exists_answer_of_reached hm hr h
  cases hbody : r.object? with
  | none =>
    rw [hbody] at hanswer
    cases hanswer
  | some posted =>
    rw [hbody, answerAnew_parse] at hanswer
    obtain ⟨text, -, hanswer⟩ := bind_eq_ok.mp hanswer
    obtain ⟨t, ht, hanswer⟩ := bind_eq_ok.mp hanswer
    refine ⟨text, t, mapError_eq_ok.mp ht, ?_⟩
    rw [← Except.ok.inj hanswer]
    rfl

theorem accepts_parse {t : Requirement} {text : String} (hr : r.Posts .parse body)
    (hbody : body.field? "expression" = some (.str text)) (ht : Requirement.parse text = .ok t) :
    s.Accepts size r (parseAnswer t) := by
  have htext : expressionIn body = .ok text := by
    unfold expressionIn
    rw [hbody]
  have hanswer : answerAnew s.cap .parse (some body) = .ok (.plain (parseAnswer t)) := by
    rw [answerAnew_parse, mapError_eq_ok.mpr htext, ok_bind, mapError_eq_ok.mpr ht, ok_bind]
  exact accepts_of_answerAnew hr hanswer

theorem accepts_stringify {t : Requirement} (ht : t.Admissible) {v : Json} (hr : r.Posts .stringify body)
    (hbody : body.field? "ast" = some v) (hv : Json.Same v t.toJson) :
    s.Accepts size r (.obj [("expression", .str t.render)]) := by
  have hof := ht.ofJson_of_same hv
  obtain ⟨fields, rfl⟩ := Requirement.isObject_of_ofJsonWithin hof
  have htree : treeIn body = .ok t := by
    unfold treeIn
    rw [hbody]
    exact mapError_eq_ok.mpr hof
  have hanswer : answerAnew s.cap .stringify (some body) = .ok (.plain (.obj [("expression", .str t.render)])) := by
    rw [answerAnew_stringify, mapError_eq_ok.mpr htree, ok_bind]
  exact accepts_of_answerAnew hr hanswer

/-- Text and JSON carry the same requirements, and the JSON form of a requirement is read as the requirement. So
    what the service has answered to a text, whatever it served before, can be posted back to it at any time: it
    writes the tree, its fields in any order, as the normalized text, and it answers to the normalized text as it
    has to the text itself. -/
theorem text_and_json_interchange :
    (∀ t : Requirement, (∃ text, Requirement.parse text = .ok t) ↔ t.Admissible) ∧
    (∀ t : Requirement, (∃ v, Requirement.ofJson v = .ok t) ↔ t.Admissible) ∧
    (∀ t : Requirement, t.Admissible → Requirement.ofJson t.toJson = .ok t) ∧
    ∀ (s : Service) (size : Int) (m : Memory) (elapsed : Double) (r : Request) (log : List String)
      (ast normalized referenced : Json),
      s.Reached size m → r.routed = .endpoint .parse →
      ((s.serve elapsed r).run m).1 =
        .ok ⟨200, some (.obj [("ast", ast), ("normalized", normalized), ("referenced", referenced)]), log⟩ →
      (∀ r' body v, r'.Posts .stringify body → body.field? "ast" = some v → Json.Same v ast →
        s.Accepts size r' (.obj [("expression", normalized)])) ∧
      ∀ r' body, r'.Posts .parse body → body.field? "expression" = some normalized →
        s.Accepts size r' (.obj [("ast", ast), ("normalized", normalized), ("referenced", referenced)]) := by
  refine ⟨fun t => Requirement.exists_parse_eq_ok_iff, fun t => Requirement.exists_ofJson_eq_ok_iff,
    fun t ht => ht.ofJson_of_same (.refl _), ?_⟩
  intro s size m elapsed r log ast normalized referenced hm hr h
  obtain ⟨text, t, ht, hanswer⟩ := exists_parse_of_reached hm hr h
  simp only [parseAnswer, Json.obj.injEq, List.cons.injEq, Prod.mk.injEq, true_and, and_true] at hanswer
  obtain ⟨rfl, rfl, rfl⟩ := hanswer
  refine ⟨fun r' body v hr' hbody hv => ?_, fun r' body hr' hbody => ?_⟩
  · exact accepts_stringify (Requirement.exists_parse_eq_ok_iff.mp ⟨text, ht⟩) hr' hbody hv
  · exact accepts_parse hr' hbody (Requirement.parse_render ht)

/-- What a fresh service answers to `A`, posted back to it: the tree with its fields in another order, and the
    normalized text. -/
theorem text_and_json_interchange_reordered :
    Accepts ⟨none, .ofInt 750, false⟩ 1
      ⟨"POST", "/api/expression/stringify", some "application/json",
        some "\x7b\"ast\": \x7b\"id\": \"A\", \"type\": \"COURSE\"\x7d\x7d"⟩
      (.obj [("expression", .str "A")]) ∧
    Accepts ⟨none, .ofInt 750, false⟩ 1
      ⟨"POST", "/api/expression/parse", some "application/json", some "\x7b\"expression\": \"A\"\x7d"⟩
      (.obj [("ast", (Requirement.course "A").toJson), ("normalized", .str "A"), ("referenced", .ofTexts ["A"])]) := by
  have hposts : Request.Posts
      ⟨"POST", "/api/expression/parse", some "application/json", some "\x7b\"expression\": \"A\"\x7d"⟩ .parse
      (.obj [("expression", .str "A")]) := ⟨by decide +kernel, rfl⟩
  have hread : Requirement.parse "A" = .ok (.course "A") :=
    Requirement.parse_render_of_valid (r := .course "A") (by decide) (by decide)
  obtain ⟨log, hreply⟩ := accepts_parse hposts rfl hread _ .start .zero
  obtain ⟨hwritten, hreadback⟩ := text_and_json_interchange.2.2.2 ⟨none, .ofInt 750, false⟩ 1 _ .zero _ log _ _ _
    .start hposts.routed hreply
  refine ⟨hwritten _ (.obj [("ast", .obj [("id", .str "A"), ("type", .str "COURSE")])]) _
    ⟨by decide +kernel, rfl⟩ rfl ?_, hreadback _ _ hposts rfl⟩
  exact .of_perm (.swap ..) (by decide)

end Service
end Curriculum
