import Curriculum.Proofs.RoundTrip

/-! Which requests are answered. Where values are compared with texts, an array or an object among them stops the
    service. Every other body gets an answer or a refusal that tells its kind, whatever the service has remembered.

    Stack and memory are taken as unlimited, here and wherever the service is spoken of. On a machine a chain of
    several hundred courses, a body nested about a thousand deep or an expansion without a cap can use them up, and
    then the service breaks down whatever the endpoint makes of the body. -/

namespace Curriculum

/-! ### Comparing values -/

section
variable {ε α β : Type}

theorem isOk_bind {x : Except ε α} {f : α → Except ε β} {b : Bool} (h : ∀ a, (f a).isOk = b) :
    (x >>= f).isOk = (x.isOk && b) := by
  cases x with
  | error e => rfl
  | ok a => exact h a

theorem isOk_bind_pure (x : Except ε α) (f : α → β) : (x >>= fun a => pure (f a)).isOk = x.isOk := by
  cases x <;> rfl

theorem isOk_eq_false_iff {x : Except ε α} : x.isOk = false ↔ ∃ e, x = .error e := by
  cases x with
  | error e => exact ⟨fun _ => ⟨e, rfl⟩, fun _ => rfl⟩
  | ok a => exact ⟨nofun, nofun⟩

end

theorem isOk_isAmong (texts : List String) (v : Json) : (isAmong texts v).isOk = !v.isCompound := by
  cases v <;> rfl

theorem isOk_textsAmong (items : List Json) : (textsAmong items).isOk = items.all (!·.isCompound) := by
  induction items with
  | nil => rfl
  | cons v items ih =>
    cases v with
    | str s =>
      rw [textsAmong, isOk_bind_pure, ih]
      rfl
    | arr | obj => rfl
    | null | bool | int | float => simpa [textsAmong, Json.isCompound] using ih

/-! ### Comparing the references of a graph -/

namespace Graph

/-- The value of the field can be compared with texts. -/
def isComparableAt (field : String) (v : Json) : Bool := !((v.field? field).getD .null).isCompound

/-- All references of a graph can be compared with texts: the types of its nodes, as far as they have an id, the ends
    of its edges and the courses of its rules. -/
def isComparable (v : Json) : Bool :=
  ((itemsOf .nodes v).all fun node => (nodeId? node).isNone || isComparableAt "nodeType" node) &&
    (((itemsOf .edges v).all fun edge => isComparableAt "source" edge && isComparableAt "target" edge) &&
      (itemsOf .rules v).all (isComparableAt "courseId"))

theorem isOk_fieldIsAmong (texts : List String) (field : String) (v : Json) :
    (fieldIsAmong texts field v).isOk = isComparableAt field v := isOk_isAmong _ _

theorem isOk_nodeFaults (ids : List String) (i : Nat) (id : String) (v : Json) :
    (nodeFaults ids i id v).isOk = isComparableAt "nodeType" v := by
  rw [nodeFaults, isOk_bind_pure, isOk_isAmong, isComparableAt]
  cases v.field? "nodeType" <;> rfl

theorem isOk_auditNodes (ids : List String) (i : Nat) (items : List Json) : (auditNodes ids i items).isOk =
    items.all fun node => (nodeId? node).isNone || isComparableAt "nodeType" node := by
  induction items generalizing ids i with
  | nil => rfl
  | cons v items ih =>
    rw [List.all_cons]
    cases v with
    | obj fields =>
      unfold auditNodes
      cases nodeId? (.obj fields) with
      | none =>
        simp only [isOk_bind_pure, ih]
        rfl
      | some id =>
        simp only
        rw [isOk_bind, isOk_nodeFaults]
        · rfl
        · intro here
          rw [isOk_bind_pure, ih]
    | _ =>
      unfold auditNodes
      rw [isOk_bind_pure, ih]
      rfl

theorem isOk_edgeFaults (ids : List String) (i : Nat) (v : Json) :
    (edgeFaults ids i v).isOk = (isComparableAt "source" v && isComparableAt "target" v) := by
  cases v with
  | obj fields =>
    rw [edgeFaults, isOk_bind, isOk_fieldIsAmong]
    intro source
    rw [isOk_bind_pure, isOk_fieldIsAmong]
  | _ => rfl

theorem isOk_ruleFaults (ids : List String) (i : Nat) (v : Json) : (ruleFaults ids i v).isOk = isComparableAt "courseId" v := by
  cases v with
  | obj fields => rw [ruleFaults, isOk_bind_pure, isOk_fieldIsAmong]
  | _ => rfl

theorem isOk_auditItems {faults : Nat → Json → Except Incomparable (List Fault)} {p : Json → Bool}
    (h : ∀ i v, (faults i v).isOk = p v) (i : Nat) (items : List Json) : (auditItems faults i items).isOk = items.all p := by
  induction items generalizing i with
  | nil => rfl
  | cons v items ih =>
    rw [auditItems, isOk_bind, h, List.all_cons]
    intro here
    rw [isOk_bind_pure, ih]

/-- A graph is audited to the end just if its references can be compared. -/
theorem isOk_audit (v : Json) : (audit v).isOk = isComparable v := by
  cases v with
  | obj fields =>
    unfold audit isComparable
    rw [isOk_bind, isOk_auditNodes]
    rintro ⟨ids, nodes⟩
    rw [isOk_bind, isOk_auditItems (isOk_edgeFaults ids)]
    intro edges
    rw [isOk_bind_pure, isOk_auditItems (isOk_ruleFaults ids)]
  | _ => rfl

end Graph

namespace Service

/-! ### Computations that compare nothing -/

/-- Whatever is remembered, the computation does not fail for want of a comparison. -/
def Smooth {σ α : Type} (x : Handling σ α) : Prop := ∀ m cause, (x.run m).1 ≠ .error (.incomparable cause)

namespace Smooth
variable {σ α β : Type}

theorem pure (a : α) : Smooth (Pure.pure a : Handling σ α) := nofun

theorem throw (refusal : Refusal) : Smooth (MonadExcept.throw (.refused refusal) : Handling σ α) := nofun

theorem bind {x : Handling σ α} {f : α → Handling σ β} (hx : Smooth x) (hf : ∀ a, Smooth (f a)) : Smooth (x >>= f) := by
  intro m cause
  have hxm := hx m cause
  rw [run_bind_eq]
  generalize x.run m = p at hxm
  obtain ⟨e | a, m⟩ := p
  · exact fun h => hxm (congrArg Except.error (Except.error.inj h))
  · exact hf a m cause

theorem ofInput (x : Except Refusal α) : Smooth (Handling.ofInput x : Handling σ α) := by
  cases x with
  | error refusal => exact .throw refusal
  | ok a => exact .pure a

theorem ofExpansion (x : Except ClauseLimit α) : Smooth (Handling.ofExpansion x : Handling σ α) := by
  cases x with
  | error limit => exact .throw (.tooManyClauses limit)
  | ok a => exact .pure a

theorem ofReading (x : Reading σ α) : Smooth (Handling.ofReading x) := by
  intro m cause
  rw [ofReading_run]
  obtain ⟨_ | a, m⟩ := x.run m
  · exact nofun
  · exact nofun

theorem requirementIn (read : String → Reading σ Requirement) (body : Json) : Smooth (requirementIn read body) :=
  (ofInput _).bind fun _ => .ofReading _

/-- Two endpoints compare values with texts, and no other does. -/
theorem answer (read : String → Reading σ Requirement) (cap : Option Int) {e : Endpoint} (body : Option Json)
    (h : e ≠ .validateExpression) (h' : e ≠ .validateGraph) : Smooth (e.answer read cap body) := by
  cases body with
  | none =>
    cases e
    case health => exact .pure _
    all_goals exact .throw _
  | some body =>
    cases e with
    | health => exact .pure _
    | parse => exact (requirementIn read body).bind fun _ => .pure _
    | stringify => exact (ofInput _).bind fun _ => .pure _
    | evaluate => exact (requirementIn read body).bind fun _ => (ofInput _).bind fun _ => .pure _
    | grouping => exact (requirementIn read body).bind fun _ => (ofExpansion _).bind fun _ => .pure _
    | validateExpression => exact absurd rfl h
    | compile => exact (ofInput _).bind fun _ => (ofExpansion _).bind fun _ => .pure _
    | validateGraph => exact absurd rfl h'
    | eligibility =>
      exact (ofInput _).bind fun _ => (ofInput _).bind fun _ => (ofReading _).bind fun _ => .pure _
    | unlocks =>
      exact (ofInput _).bind fun _ => (ofInput _).bind fun _ => (ofInput _).bind fun _ => (ofReading _).bind fun _ => .pure _

end Smooth

/-! ### Bodies that stop the service -/

/-- The body makes the endpoint compare an array or an object with texts: among the known ids of a requirement that
    can be read, or as a reference of a graph. -/
def Endpoint.Stumbles (e : Endpoint) (body : Json) : Prop :=
  match e with
  | .validateExpression => ∃ text r known, expressionIn body = .ok text ∧ Requirement.parse text = .ok r ∧
      knownIn body = .ok known ∧ ∃ v ∈ known, v.isCompound = true
  | .validateGraph => Graph.isComparable ((body.field? "graph").getD .null) = false
  | _ => False

theorem ofComparison_run_unit {α : Type} (x : Except Incomparable α) :
    ((Handling.ofComparison x : Handling Unit α).run ()).1 = x.mapError .incomparable := by
  cases x <;> rfl

theorem answerAnew_validateExpression (cap : Option Int) (body : Json) : answerAnew cap .validateExpression (some body) =
    (expressionIn body).mapError .refused >>= fun text => (knownIn body).mapError .refused >>= fun known =>
      (Requirement.parse text).mapError (fun e => .refused (.unreadable e)) >>= fun r =>
        (textsAmong known).mapError .incomparable >>= fun ids =>
          .ok (.plain (.obj [("unknown", .ofTexts (r.unknownIds ids.contains).toList)])) := by
  unfold answerAnew Endpoint.answer validateExpression
  simp only [run_unit_bind, ofInput_run_unit, ofReading_run_unit, ofComparison_run_unit]
  rfl

theorem answerAnew_validateGraph (cap : Option Int) (body : Json) : answerAnew cap .validateGraph (some body) =
    (Graph.audit ((body.field? "graph").getD .null)).mapError .incomparable >>= fun faults =>
      .ok (.plain (Graph.auditReport faults)) := by
  unfold answerAnew Endpoint.answer validateGraph
  simp only [run_unit_bind, ofComparison_run_unit]
  rfl

theorem validateExpression_stumbles_iff {cap : Option Int} {body : Json} :
    (∃ cause, answerAnew cap .validateExpression (some body) = .error (.incomparable cause)) ↔
      Endpoint.Stumbles .validateExpression body := by
  have hknown : ∀ known, (∃ cause, textsAmong known = .error cause) ↔ ∃ v ∈ known, v.isCompound = true := by
    intro known
    rw [← isOk_eq_false_iff, isOk_textsAmong, List.all_eq_false]
    simp
  simp only [answerAnew_validateExpression, bind_eq_error, mapError_eq_error, mapError_eq_ok, reduceCtorEq, and_false,
    exists_false, false_or, or_false, Failure.incomparable.injEq, exists_eq_right, Endpoint.Stumbles, ← hknown]
  constructor
  · rintro ⟨cause, text, htext, known, hin, r, hr, hcause⟩
    exact ⟨text, r, known, htext, hr, hin, cause, hcause⟩
  · rintro ⟨text, r, known, htext, hr, hin, cause, hcause⟩
    exact ⟨cause, text, htext, known, hin, r, hr, hcause⟩

theorem validateGraph_stumbles_iff {cap : Option Int} {body : Json} :
    (∃ cause, answerAnew cap .validateGraph (some body) = .error (.incomparable cause)) ↔
      Endpoint.Stumbles .validateGraph body := by
  simp only [answerAnew_validateGraph, bind_eq_error, mapError_eq_error, reduceCtorEq, and_false, exists_false, or_false,
    Failure.incomparable.injEq, exists_eq_right, Endpoint.Stumbles, ← Graph.isOk_audit, isOk_eq_false_iff]

/-- A comparison fails just where the body makes the endpoint stumble. -/
theorem exists_incomparable_iff (cap : Option Int) (e : Endpoint) (body : Option Json) :
    (∃ cause, answerAnew cap e body = .error (.incomparable cause)) ↔ ∃ b, body = some b ∧ e.Stumbles b := by
  have hsmooth : e ≠ .validateExpression → e ≠ .validateGraph →
      ¬∃ cause, answerAnew cap e body = .error (.incomparable cause) := by
    rintro h h' ⟨cause, hcause⟩
    exact Smooth.answer Reading.plain cap body h h' () cause hcause
  cases body with
  | none =>
    refine ⟨fun ⟨cause, hcause⟩ => ?_, nofun⟩
    cases e <;> cases hcause
  | some body =>
    simp only [Option.some.injEq, exists_eq_left']
    cases e with
    | validateExpression => exact validateExpression_stumbles_iff
    | validateGraph => exact validateGraph_stumbles_iff
    | _ => exact iff_of_false (hsmooth nofun nofun) id

/-! ### Replies -/

/-- The kinds of refusal: the status and the code of each. -/
def Refusal.kinds : List (Nat × String) := [(400, "INVALID_INPUT"), (400, "PARSE_ERROR"), (422, "GROUPING_LIMIT")]

theorem Refusal.mem_kinds (refusal : Refusal) : (refusal.status, refusal.code) ∈ kinds := by
  cases refusal <;> simp [status, code, kinds]

/-- The reply has an answer, or it is an error that tells of which kind it is. -/
inductive Reply.Informs : Reply → Prop
  | answer (body : Json) (log : List String) : Informs ⟨200, some body, log⟩
  | refusal (status : Nat) (code message : String) (details : List (String × Json)) (log : List String)
      (h : (status, code) ∈ Refusal.kinds) :
      Informs ⟨status, some (.obj [("error", .obj ([("error_code", .str code), ("message", .str message)] ++ details))]), log⟩

variable {s : Service} {size : Int} {elapsed : Double} {r : Request} {e : Endpoint}

theorem exists_informs_of_replyOf (s : Service) (elapsed : Double) (r : Request) (e : Endpoint)
    {x : Except Failure Answer} (h : ¬∃ cause, x = .error (.incomparable cause)) :
    ∃ reply, s.replyOf elapsed r e x = .ok reply ∧ reply.Informs := by
  cases x with
  | ok answer => exact ⟨_, rfl, .answer answer.body _⟩
  | error failure =>
    cases failure with
    | refused refusal => exact ⟨_, rfl, .refusal _ _ _ refusal.details _ refusal.mem_kinds⟩
    | incomparable cause => exact absurd ⟨cause, rfl⟩ h

theorem replyOf_incomparable (hs : s.testing = false) (cause : Incomparable) :
    s.replyOf elapsed r e (.error (.incomparable cause)) = .ok (s.reply elapsed r e.name 500 none none) := by
  rw [replyOf, hs]
  rfl

/-- Outside testing, a request to an endpoint is answered or refused with a reason, whatever it brings and whatever
    was served before, unless it makes the endpoint compare what cannot be compared; then the service breaks down.
    Stack and memory are taken as unlimited: that a machine runs out of them is no case of this theorem. -/
theorem informs_unless_stumbles (hs : s.testing = false) (hr : r.routed = .endpoint e) {m : Memory}
    (hm : s.Reached size m) (elapsed : Double) : ∃ reply, ((s.serve elapsed r).run m).1 = .ok reply ∧
      ((¬∃ body, r.object? = some body ∧ e.Stumbles body) → reply.Informs) ∧
      ((∃ body, r.object? = some body ∧ e.Stumbles body) → reply.status = 500 ∧ reply.body = none) := by
  rw [serve_of_reached hm, replyAnew_of_routed hr, ← exists_incomparable_iff s.cap]
  by_cases h : ∃ cause, answerAnew s.cap e r.object? = .error (.incomparable cause)
  · obtain ⟨cause, hcause⟩ := h
    rw [hcause, replyOf_incomparable hs]
    exact ⟨_, rfl, fun hne => absurd ⟨cause, rfl⟩ hne, fun _ => ⟨rfl, rfl⟩⟩
  · obtain ⟨reply, hreply, hinforms⟩ := exists_informs_of_replyOf s elapsed r e h
    exact ⟨reply, hreply, fun _ => hinforms, fun hstumbles => absurd hstumbles h⟩

/-- Known ids that are no texts, but neither arrays nor objects. -/
theorem informs_unless_stumbles_number :
    ∃ reply, ((serve ⟨none, .ofInt 750, false⟩ .zero
      ⟨"POST", "/api/expression/validate", some "application/json",
        some "\x7b\"expression\": \"A\", \"known_ids\": [5, null]\x7d"⟩).run (.ofSize 1)).1 = .ok reply ∧ reply.Informs := by
  have hposts : Request.Posts ⟨"POST", "/api/expression/validate", some "application/json",
      some "\x7b\"expression\": \"A\", \"known_ids\": [5, null]\x7d"⟩ .validateExpression
      (.obj [("expression", .str "A"), ("known_ids", .arr [.int 5, .null])]) := ⟨by decide +kernel, rfl⟩
  have hstart : Reached ⟨none, .ofInt 750, false⟩ 1 (.ofSize 1) := .start
  obtain ⟨reply, hreply, hinforms, -⟩ := informs_unless_stumbles rfl hposts.routed hstart .zero
  refine ⟨reply, hreply, hinforms ?_⟩
  rw [hposts.brought]
  rintro ⟨body, hbody, text, r, known, -, -, hknown, v, hv, hcompound⟩
  obtain rfl := Option.some.inj hbody
  obtain rfl : [.int 5, .null] = known := Except.ok.inj hknown
  simp only [List.mem_cons, List.not_mem_nil, or_false] at hv
  rcases hv with rfl | rfl <;> cases hcompound

/-- The type of a node is an array. -/
theorem breaks_down_at_node_type :
    ∃ log, ((serve ⟨none, .ofInt 750, false⟩ .zero
      ⟨"POST", "/api/graph/validate", some "application/json", some
        "\x7b\"graph\": \x7b\"id\": \"g\", \"nodes\": [\x7b\"id\": \"A\", \"nodeType\": []\x7d], \"edges\": []\x7d\x7d"⟩).run
        (.ofSize 1)).1 = .ok ⟨500, none, log⟩ := by
  have hposts : Request.Posts
      ⟨"POST", "/api/graph/validate", some "application/json", some
        "\x7b\"graph\": \x7b\"id\": \"g\", \"nodes\": [\x7b\"id\": \"A\", \"nodeType\": []\x7d], \"edges\": []\x7d\x7d"⟩
      .validateGraph (.obj [("graph", .obj [("id", .str "g"),
        ("nodes", .arr [.obj [("id", .str "A"), ("nodeType", .arr [])]]), ("edges", .arr [])])]) :=
    ⟨by decide +kernel, rfl⟩
  have hstumbles : Endpoint.Stumbles .validateGraph (.obj [("graph", .obj [("id", .str "g"),
      ("nodes", .arr [.obj [("id", .str "A"), ("nodeType", .arr [])]]), ("edges", .arr [])])]) := by
    rw [Endpoint.Stumbles]
    decide +kernel
  obtain ⟨cause, hcause⟩ := validateGraph_stumbles_iff.mpr hstumbles
  rw [serve_of_reached .start, replyAnew_of_routed hposts.routed, hposts.brought, hcause, replyOf_incomparable rfl]
  exact ⟨_, rfl⟩

end Service
end Curriculum
