import Curriculum.Service.Server

/-! What the service remembers changes none of its answers. Everything remembered is what its text is read as,
    so a reader with such a memory goes in step with one that reads every text anew, and so does whatever is
    computed with the two. -/

namespace Curriculum

/-! ### Computations in step -/

section
variable {σ τ ε α β : Type} {R : σ → τ → Prop}

/-- Two computations go in step: from related memories they come to one result and to related memories. -/
def InStep (R : σ → τ → Prop) (x : ExceptT ε (StateM σ) α) (y : ExceptT ε (StateM τ) α) : Prop :=
  ∀ m n, R m n → (x.run m).1 = (y.run n).1 ∧ R (x.run m).2 (y.run n).2

theorem run_bind_eq (x : ExceptT ε (StateM σ) α) (f : α → ExceptT ε (StateM σ) β) (m : σ) : (x >>= f).run m =
    match x.run m with
    | (.ok a, m) => (f a).run m
    | (.error e, m) => (.error e, m) := by
  change ExceptT.bindCont f (x.run m).1 (x.run m).2 = _
  obtain ⟨_ | _, _⟩ := x.run m <;> rfl

theorem run_map_eq (x : ExceptT ε (StateM σ) α) (f : α → β) (m : σ) :
    (x >>= fun a => pure (f a)).run m = ((x.run m).1.map f, (x.run m).2) := by
  rw [run_bind_eq]
  obtain ⟨_ | _, _⟩ := x.run m <;> rfl

namespace InStep

theorem runs {x : ExceptT ε (StateM σ) α} {y : ExceptT ε (StateM τ) α} (h : InStep R x y) {m : σ} {n : τ} (hmn : R m n) :
    ∃ a m' n', x.run m = (a, m') ∧ y.run n = (a, n') ∧ R m' n' := by
  obtain ⟨hresult, hmemory⟩ := h m n hmn
  exact ⟨(y.run n).1, (x.run m).2, (y.run n).2, Prod.ext hresult rfl, rfl, hmemory⟩

theorem mk_pure (a : Except ε α) : InStep R (ExceptT.mk (Pure.pure a)) (ExceptT.mk (Pure.pure a)) :=
  fun _ _ h => ⟨rfl, h⟩

theorem pure (a : α) : @InStep σ τ ε α R (Pure.pure a) (Pure.pure a) := mk_pure (.ok a)

theorem throw (e : ε) : @InStep σ τ ε α R (MonadExcept.throw e) (MonadExcept.throw e) := mk_pure (.error e)

theorem bind {x : ExceptT ε (StateM σ) α} {y : ExceptT ε (StateM τ) α} {f : α → ExceptT ε (StateM σ) β}
    {g : α → ExceptT ε (StateM τ) β} (hxy : InStep R x y) (hfg : ∀ a, InStep R (f a) (g a)) :
    InStep R (x >>= f) (y >>= g) := by
  intro m n h
  obtain ⟨a, m', n', hx, hy, hmemory⟩ := hxy.runs h
  rw [run_bind_eq, run_bind_eq, hx, hy]
  cases a with
  | error e => exact ⟨rfl, hmemory⟩
  | ok a => exact hfg a m' n' hmemory

end InStep
end

/-! ### A sound memory -/

namespace Memory

/-- Everything remembered is what its text is read as. -/
def Sound (m : Memory) : Prop := ∀ e ∈ m.entries, Requirement.parse? e.1.2 = .ok e.2

theorem sound_ofSize (size : Int) : Sound (.ofSize size) := fun _ he => absurd he List.not_mem_nil

section
variable {m : Memory} {key : String × Option String} {r : Requirement}

theorem Sound.others (h : m.Sound) {e : (String × Option String) × Requirement} (he : e ∈ Recent.others key m.entries) :
    Requirement.parse? e.1.2 = .ok e.2 :=
  h e (List.mem_filter.mp he).1

theorem Sound.put (h : m.Sound) (hr : Requirement.parse? key.2 = .ok r) {e : (String × Option String) × Requirement}
    (he : e ∈ Recent.others key m.entries ++ [(key, r)]) : Requirement.parse? e.1.2 = .ok e.2 := by
  rcases List.mem_append.mp he with he | he
  · exact h.others he
  · rw [List.mem_singleton.mp he]
    exact hr

theorem Sound.set (h : m.Sound) (hr : Requirement.parse? key.2 = .ok r) : Sound (m.set key r) :=
  fun _ he => h.put hr (List.mem_of_mem_drop he)

theorem Sound.get (h : m.Sound) (key : String × Option String) :
    Sound (m.get key).2 ∧ ∀ r, (m.get key).1 = some r → Requirement.parse? key.2 = .ok r := by
  unfold Recent.get
  split
  · next value hfind =>
    have hkey := List.find?_some hfind
    have hmem := h _ (List.mem_of_find?_eq_some hfind)
    simp only [decide_eq_true_eq] at hkey
    simp only [hkey] at hmem
    refine ⟨fun e he => h.put hmem he, fun r hr => ?_⟩
    rw [← Option.some.inj hr]
    exact hmem
  · exact ⟨h, fun _ hr => by cases hr⟩

theorem read_run (course : String) (text : Option String) (m : Memory) : (read course text).run m =
    match m.get (course, text) with
    | (some r, memory) => (.ok r, memory)
    | (none, memory) =>
      match Requirement.parse? text with
      | .ok r => (.ok r, memory.set (course, text) r)
      | .error e => (.error e, memory) := rfl

/-- A reader with a sound memory reads what is written, and its memory stays sound. -/
theorem Sound.read (h : m.Sound) (course : String) (text : Option String) :
    ((read course text).run m).1 = Requirement.parse? text ∧ Sound ((read course text).run m).2 := by
  obtain ⟨hsound, hvalue⟩ := h.get (course, text)
  rw [read_run]
  generalize m.get (course, text) = p at hsound hvalue
  obtain ⟨_ | r, m⟩ := p
  · cases ht : Requirement.parse? text with
    | error e => exact ⟨rfl, hsound⟩
    | ok r => exact ⟨rfl, hsound.set ht⟩
  · exact ⟨(hvalue r rfl).symm, hsound⟩

end
end Memory

/-! ### Readings in step -/

section
variable {σ τ : Type} {R : σ → τ → Prop} {read : String → Reading σ Requirement}
  {read' : String → Reading τ Requirement}

/-- The two readers read every text alike. -/
def ReadersInStep (R : σ → τ → Prop) (read : String → Reading σ Requirement) (read' : String → Reading τ Requirement) :
    Prop :=
  ∀ text, InStep R (read text) (read' text)

namespace ReadersInStep
variable (h : ReadersInStep R read read')
include h

theorem isEligible (done : String → Bool) (text : Option String) :
    InStep R (isEligible read done text) (isEligible read' done text) := by
  unfold Curriculum.isEligible
  split
  · split
    · exact (h _).bind fun r => .pure _
    · exact .pure true
  · exact .pure true

theorem eligibilityOf (done : String → Bool) (entries : List (String × Option String)) :
    InStep R (eligibilityOf read done entries) (eligibilityOf read' done entries) := by
  induction entries with
  | nil => exact .pure []
  | cons entry rest ih => exact (h.isEligible done entry.2).bind fun _ => ih.bind fun _ => .pure _

theorem readAll (expressions : Expressions) (ids : List String) :
    InStep R (readAll read expressions ids) (readAll read' expressions ids) := by
  induction ids with
  | nil => exact .pure []
  | cons id rest ih => exact (h _).bind fun _ => ih.bind fun _ => .pure _

theorem dependents (expressions : Expressions) : InStep R (dependents read expressions) (dependents read' expressions) :=
  (h.readAll expressions _).bind fun _ => .pure _

theorem newlyEligibleAmong (id : String) (expressions : Expressions) (done : String → Bool) (among : List String) :
    InStep R (newlyEligibleAmong read id expressions done among) (newlyEligibleAmong read' id expressions done among) := by
  induction among with
  | nil => exact .pure []
  | cons dependent rest ih =>
    unfold Curriculum.newlyEligibleAmong
    split
    · exact ih
    · exact (h _).bind fun _ => ih.bind fun _ => .pure _

end ReadersInStep
end

/-! ### Answers in step -/

namespace Service

section
variable {σ τ α : Type} {R : σ → τ → Prop}

theorem ofInput_inStep (x : Except Refusal α) : InStep R (Handling.ofInput x) (Handling.ofInput x) := by
  cases x with
  | error refusal => exact .throw _
  | ok a => exact .pure a

theorem ofComparison_inStep (x : Except Incomparable α) :
    InStep R (Handling.ofComparison x) (Handling.ofComparison x) := by
  cases x with
  | error cause => exact .throw _
  | ok a => exact .pure a

theorem ofExpansion_inStep (x : Except ClauseLimit α) : InStep R (Handling.ofExpansion x) (Handling.ofExpansion x) := by
  cases x with
  | error limit => exact .throw _
  | ok a => exact .pure a

theorem ofReading_run (x : Reading σ α) (m : σ) : (Handling.ofReading x).run m =
    match x.run m with
    | (.ok a, memory) => (.ok a, memory)
    | (.error error, memory) => (.error (.refused (.unreadable error)), memory) := rfl

theorem ofReading_inStep {x : Reading σ α} {y : Reading τ α} (h : InStep R x y) :
    InStep R (Handling.ofReading x) (Handling.ofReading y) := by
  intro m n hmn
  obtain ⟨a, m', n', hx, hy, hmemory⟩ := h.runs hmn
  rw [ofReading_run, ofReading_run, hx, hy]
  cases a with
  | error e => exact ⟨rfl, hmemory⟩
  | ok a => exact ⟨rfl, hmemory⟩

end

section
variable {σ τ : Type} {R : σ → τ → Prop} {read : String → Reading σ Requirement}
  {read' : String → Reading τ Requirement} (h : ReadersInStep R read read')
include h

theorem requirementIn_inStep (body : Json) : InStep R (requirementIn read body) (requirementIn read' body) :=
  (ofInput_inStep _).bind fun _ => ofReading_inStep (h _)

theorem unlocks_inStep (body : Json) : InStep R (unlocks read body) (unlocks read' body) := by
  refine (ofInput_inStep _).bind fun expressions => (ofInput_inStep _).bind fun id => (ofInput_inStep _).bind fun standing => ?_
  refine (ofReading_inStep ?_).bind fun _ => .pure _
  exact (h.dependents expressions).bind fun m => (h.newlyEligibleAmong id expressions standing.has _).bind fun _ => .pure _

/-- Every endpoint answers alike with two readers that go in step. -/
theorem answer_inStep (cap : Option Int) (e : Endpoint) (body : Option Json) :
    InStep R (e.answer read cap body) (e.answer read' cap body) := by
  cases body with
  | none =>
    cases e
    case health => exact .pure _
    all_goals exact .throw _
  | some body =>
    cases e with
    | health => exact .pure _
    | parse => exact (requirementIn_inStep h body).bind fun _ => .pure _
    | stringify => exact (ofInput_inStep _).bind fun _ => .pure _
    | evaluate => exact (requirementIn_inStep h body).bind fun _ => (ofInput_inStep _).bind fun _ => .pure _
    | grouping => exact (requirementIn_inStep h body).bind fun _ => (ofExpansion_inStep _).bind fun _ => .pure _
    | validateExpression =>
      exact (ofInput_inStep _).bind fun _ => (ofInput_inStep _).bind fun _ => (ofReading_inStep (h _)).bind fun _ =>
        (ofComparison_inStep _).bind fun _ => .pure _
    | compile => exact (ofInput_inStep _).bind fun _ => (ofExpansion_inStep _).bind fun _ => .pure _
    | validateGraph => exact (ofComparison_inStep _).bind fun _ => .pure _
    | eligibility =>
      exact (ofInput_inStep _).bind fun expressions => (ofInput_inStep _).bind fun standing =>
        (ofReading_inStep (h.eligibilityOf standing.has expressions.entries)).bind fun _ => .pure _
    | unlocks => exact unlocks_inStep h body

end

/-! ### Serving -/

theorem reader_inStep (s : Service) :
    ReadersInStep (fun m (_ : Unit) => Memory.Sound m) s.reader Reading.plain := by
  intro text m _ h
  unfold reader
  split
  · exact ⟨rfl, h⟩
  · exact h.read "" (some text)

/-- The answer of an endpoint where nothing is remembered. -/
def answerAnew (cap : Option Int) (e : Endpoint) (body : Option Json) : Except Failure Answer :=
  ((e.answer Reading.plain cap body).run ()).1

/-- The reply to a request where nothing is remembered. -/
def replyAnew (s : Service) (elapsed : Double) (r : Request) : Except Incomparable Reply :=
  match r.routed with
  | .endpoint e => s.replyOf elapsed r e (answerAnew s.cap e r.object?)
  | .headOnly e => .ok (s.reply elapsed r e.name 200 none none)
  | .missing name status => .ok (s.reply elapsed r name status none none)

theorem replyAnew_of_routed {s : Service} {r : Request} {e : Endpoint} {elapsed : Double} (h : r.routed = .endpoint e) :
    s.replyAnew elapsed r = s.replyOf elapsed r e (answerAnew s.cap e r.object?) := by
  unfold replyAnew
  rw [h]

/-- A service with a sound memory replies as one that remembers nothing, and its memory stays sound. -/
theorem serve_of_sound (s : Service) {m : Memory} (h : m.Sound) (elapsed : Double) (r : Request) :
    ((s.serve elapsed r).run m).1 = s.replyAnew elapsed r ∧ Memory.Sound ((s.serve elapsed r).run m).2 := by
  unfold serve replyAnew
  cases r.routed with
  | endpoint e =>
    obtain ⟨hresult, hsound⟩ := answer_inStep s.reader_inStep s.cap e r.object? m () h
    exact ⟨congrArg (s.replyOf elapsed r e) hresult, hsound⟩
  | headOnly e => exact ⟨rfl, h⟩
  | missing name status => exact ⟨rfl, h⟩

/-- The memories that a service can come to have, from the empty one for so many requirements. -/
inductive Reached (s : Service) (size : Int) : Memory → Prop
  | start : Reached s size (.ofSize size)
  | served {m : Memory} (h : Reached s size m) (elapsed : Double) (r : Request) :
      Reached s size ((s.serve elapsed r).run m).2

theorem Reached.sound {s : Service} {size : Int} {m : Memory} (h : s.Reached size m) : m.Sound := by
  induction h with
  | start => exact Memory.sound_ofSize size
  | served _ elapsed r ih => exact (s.serve_of_sound ih elapsed r).2

theorem serve_of_reached {s : Service} {size : Int} {m : Memory} (h : s.Reached size m) (elapsed : Double) (r : Request) :
    ((s.serve elapsed r).run m).1 = s.replyAnew elapsed r :=
  (s.serve_of_sound h.sound elapsed r).1

end Service
end Curriculum
