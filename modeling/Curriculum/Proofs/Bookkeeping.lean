import Mathlib.Control.Monad.Basic
import Curriculum.Book
import Curriculum.Proofs.Readable
import Curriculum.Proofs.Remembering

/-! A book answers as its texts do. Whatever has been read, edited and forgotten before, each call of a book has
    the answer that it has where every text is read anew and no text is passed over unread. What the book
    remembers is sound and stays within the size it was made for, and a call that fails leaves no trace. -/

namespace Curriculum

/-! ### Memories of a size -/

/-- Everything remembered is what its text is read as, and there is room for as many entries as given. -/
structure Memory.Fits (n : Nat) (m : Memory) : Prop where
  sound : m.Sound
  capacity : m.capacity = n
  size : m.size ≤ n

namespace Memory.Fits
variable {n : Nat} {m : Memory}

theorem ofSize (size : Int) : Fits (max 1 size.toNat) (.ofSize size) := ⟨sound_ofSize size, rfl, Nat.zero_le _⟩

theorem erase (h : Fits n m) (key : String × Option String) : Fits n (m.erase key) :=
  ⟨fun _ he => h.sound.others he, h.capacity, Nat.le_trans (Recent.size_erase_le ..) h.size⟩

theorem clear (h : Fits n m) : Fits n m.clear := ⟨fun _ he => absurd he List.not_mem_nil, h.capacity, Nat.zero_le _⟩

theorem read (h : Fits n m) (course : String) (text : Option String) : Fits n ((Memory.read course text).run m).2 := by
  have hsound := (h.sound.read course text).2
  have hsize := Recent.size_get_le m (course, text)
  have hcapacity := Recent.capacity_get m (course, text)
  rw [read_run] at hsound ⊢
  generalize m.get (course, text) = p at hsound hsize hcapacity
  obtain ⟨value, m'⟩ := p
  have hm' : m'.size ≤ n := Nat.le_trans hsize h.size
  cases value with
  | some r => exact ⟨hsound, hcapacity.trans h.capacity, hm'⟩
  | none =>
    cases ht : Requirement.parse? text with
    | error e =>
      rw [ht] at hsound
      exact ⟨hsound, hcapacity.trans h.capacity, hm'⟩
    | ok r =>
      rw [ht] at hsound
      refine ⟨hsound, hcapacity.trans h.capacity, ?_⟩
      rw [← h.capacity, ← hcapacity]
      exact Recent.size_set_le ..

end Memory.Fits

/-- A reader that fails has looked for the text in vain, and it remembers what it did before. -/
theorem Memory.eq_of_read_error {m : Memory} {course : String} {text : Option String} {e : SyntaxError}
    (h : ((read course text).run m).1 = .error e) : ((read course text).run m).2 = m := by
  have hget : (m.get (course, text)).1 = none → (m.get (course, text)).2 = m := Recent.get_eq_of_none
  rw [read_run] at h ⊢
  generalize m.get (course, text) = p at h hget
  obtain ⟨_ | r, m'⟩ := p
  · cases ht : Requirement.parse? text with
    | error e' => exact hget rfl
    | ok r =>
      rw [ht] at h
      cases h
  · cases h

/-! ### Calls -/

/-- The text of a course; where it is empty or missing, nothing is required. -/
def Expressions.expression (m : Expressions) (course : String) : String :=
  if (m.textOf course).isEmpty then "NONE" else m.textOf course

namespace Book

/-- What a book can be asked for, and how it can be changed. -/
inductive Call
  | expression (course : String)
  | setExpression (course : String) (text : Option String)
  | read (course : String) (text : Option String)
  | requirement (course : String)
  | prerequisites (course : String)
  | eligible (course : String) (standing : Standing)
  | invalidate (course : String)
  | clear

/-- What a call answers; a change answers nothing. -/
inductive Answer
  | done
  | text (text : String)
  | requirement (r : Requirement)
  | courses (ids : IdSet)
  | verdict (eligible : Bool)
  deriving DecidableEq

namespace Call

def perform : Call → Reading Book Answer
  | .expression course => return .text ((← get).expression course)
  | .setExpression course text => do
    modify fun b => b.setExpression course text
    return .done
  | .read course text => return .requirement (← Book.read course text)
  | .requirement course => return .requirement (← Book.requirement course)
  | .prerequisites course => return .courses (← Book.prerequisites course)
  | .eligible course standing => return .verdict (← Book.eligible course standing)
  | .invalidate course => do
    modify fun b => b.invalidate course
    return .done
  | .clear => do
    modify Book.clear
    return .done

/-- The answer from the texts alone: each text that a call asks about is read, also one that states nothing. -/
def answer (m : Expressions) : Call → Except SyntaxError Answer
  | .expression course => .ok (.text (m.expression course))
  | .read _ text => (Requirement.parse? text).map .requirement
  | .requirement course => (Requirement.parse (m.expression course)).map .requirement
  | .prerequisites course => (Requirement.parse (m.expression course)).map fun r => .courses r.courseIds
  | .eligible course standing => (Requirement.parse (m.expression course)).map fun r => .verdict (r.holds standing.has)
  | .setExpression .. | .invalidate _ | .clear => .ok .done

/-- The texts after a call. -/
def edit (m : Expressions) : Call → Expressions
  | .setExpression course text => m.insert course text
  | _ => m

/-- The answers to some calls, one after another, and the book afterwards. A call that fails does not keep the
    next ones from being made. -/
def performAll : List Call → Book → List (Except SyntaxError Answer) × Book
  | [], b => ([], b)
  | call :: calls, b =>
    let (first, b) := call.perform.run b
    let (others, b) := performAll calls b
    (first :: others, b)

/-- The answers to some calls from the texts alone. -/
def answerAll : List Call → Expressions → List (Except SyntaxError Answer)
  | [], _ => []
  | call :: calls, m => call.answer m :: answerAll calls (call.edit m)

end Call

/-! ### One call -/

/-- The computation has the given result, and the book has the given texts afterwards and a memory that fits. If
    the computation fails, the book is the same as before. -/
structure Outcome {α : Type} (n : Nat) (b : Book) (x : Reading Book α) (a : Except SyntaxError α) (m : Expressions) :
    Prop where
  result : (x.run b).1 = a
  texts : (x.run b).2.expressions = m
  memory : (x.run b).2.memory.Fits n
  failed : ∀ e, a = .error e → (x.run b).2 = b

section
variable {α β : Type} {n : Nat} {b : Book}

theorem run_get_bind (f : Book → Reading Book α) (b : Book) : (get >>= f).run b = (f b).run b := rfl

namespace Outcome
variable {x y : Reading Book α} {a : Except SyntaxError α} {m : Expressions}

theorem congr (hrun : x.run b = y.run b) (h : Outcome n b y a m) : Outcome n b x a m := by
  obtain ⟨hresult, htexts, hmemory, hfailed⟩ := h
  rw [← hrun] at hresult htexts hmemory hfailed
  exact ⟨hresult, htexts, hmemory, hfailed⟩

theorem map (h : Outcome n b x a m) (f : α → β) : Outcome n b (x >>= fun v => pure (f v)) (a.map f) m := by
  have hrun := run_map_eq x f b
  refine ⟨?_, ?_, ?_, fun e he => ?_⟩
  · rw [hrun, h.result]
  · rw [hrun]
    exact h.texts
  · rw [hrun]
    exact h.memory
  · rw [hrun]
    cases a with
    | error e' => exact h.failed e' rfl
    | ok v => cases he

/-- A computation that cannot fail turns the book into another one. -/
theorem ofOk {v : α} {b' : Book} (hrun : x.run b = (.ok v, b')) (htexts : b'.expressions = m)
    (hmemory : b'.memory.Fits n) : Outcome n b x (.ok v) m := by
  refine ⟨?_, ?_, ?_, nofun⟩
  · rw [hrun]
  · rw [hrun]
    exact htexts
  · rw [hrun]
    exact hmemory

end Outcome

variable (h : b.memory.Fits n)
include h

theorem outcome_read (course : String) (text : Option String) :
    Outcome n b (read course text) (Requirement.parse? text) b.expressions := by
  have hresult : ((Memory.read course text).run b.memory).1 = Requirement.parse? text := (h.sound.read course text).1
  refine ⟨hresult, rfl, h.read course text, fun e he => ?_⟩
  have hmemory := Memory.eq_of_read_error (hresult.trans he)
  exact congrArg (fun memory => ({ b with memory := memory } : Book)) hmemory

theorem outcome_requirement (course : String) :
    Outcome n b (requirement course) (Requirement.parse (b.expressions.expression course)) b.expressions := by
  have hread := outcome_read h course (some (b.expression course))
  have hrun : (requirement course).run b = (read course (some (b.expression course))).run b := rfl
  exact hread.congr hrun

/-- A text that is passed over unread would have asked for nothing. -/
theorem outcome_unless_unstated (course : String) (f : Requirement → α) {x : Reading Book α}
    (hx : x.run b = if Requirement.isStated (b.expression course) then
      (requirement course >>= fun r => pure (f r)).run b else (.ok (f .nothing), b)) :
    Outcome n b x ((Requirement.parse (b.expressions.expression course)).map f) b.expressions := by
  cases hs : Requirement.isStated (b.expression course) with
  | true =>
    rw [hs, if_pos rfl] at hx
    exact ((outcome_requirement h course).map f).congr hx
  | false =>
    rw [hs, if_neg Bool.false_ne_true] at hx
    have hparse : Requirement.parse (b.expressions.expression course) = .ok .nothing :=
      Requirement.parse_of_not_isStated hs
    rw [hparse]
    exact .ofOk hx rfl h

theorem outcome_prerequisites (course : String) : Outcome n b (prerequisites course)
    ((Requirement.parse (b.expressions.expression course)).map Requirement.courseIds) b.expressions := by
  refine outcome_unless_unstated h course Requirement.courseIds ?_
  rw [prerequisites, run_get_bind]
  split
  · rfl
  · rfl

theorem outcome_eligible (course : String) (standing : Standing) : Outcome n b (eligible course standing)
    ((Requirement.parse (b.expressions.expression course)).map fun r => r.holds standing.has) b.expressions := by
  refine outcome_unless_unstated h course (fun r => r.holds standing.has) ?_
  rw [eligible, run_get_bind]
  split
  · rfl
  · rfl

/-- A book whose memory fits answers a call from its texts. -/
theorem outcome_perform (call : Call) : Outcome n b call.perform (call.answer b.expressions) (call.edit b.expressions) := by
  cases call with
  | expression course => exact .ofOk rfl rfl h
  | setExpression course text => exact .ofOk rfl rfl (h.erase (course, some (b.expression course)))
  | read course text => exact (outcome_read h course text).map Answer.requirement
  | requirement course => exact (outcome_requirement h course).map Answer.requirement
  | prerequisites course =>
    have hcourses := (outcome_prerequisites h course).map Answer.courses
    rw [map_map] at hcourses
    exact hcourses
  | eligible course standing =>
    have hverdict := (outcome_eligible h course standing).map Answer.verdict
    rw [map_map] at hverdict
    exact hverdict
  | invalidate course => exact .ofOk rfl rfl (h.erase (course, some (b.expression course)))
  | clear => exact .ofOk rfl rfl h.clear

end

/-! ### Calls one after another -/

theorem performAll_of_fits {n : Nat} : ∀ (calls : List Call) {b : Book}, b.memory.Fits n →
    (Call.performAll calls b).1 = Call.answerAll calls b.expressions ∧
    (Call.performAll calls b).2.expressions = calls.foldl Call.edit b.expressions ∧
    (Call.performAll calls b).2.memory.Fits n
  | [], b, h => ⟨rfl, rfl, h⟩
  | call :: calls, b, h => by
    -- The next call finds a memory that fits, whether this one has failed or not.
    obtain ⟨hresult, htexts, hmemory, -⟩ := outcome_perform h call
    obtain ⟨hresults, htexts', hmemory'⟩ := performAll_of_fits calls hmemory
    rw [htexts] at hresults htexts'
    have hfirst : (Call.performAll (call :: calls) b).1 =
        (call.perform.run b).1 :: (Call.performAll calls (call.perform.run b).2).1 := rfl
    refine ⟨?_, htexts', hmemory'⟩
    rw [hfirst, hresult, hresults, Call.answerAll]

/-- Whatever calls a new book gets, each is answered from the texts of that time, as if every text were read
    anew. Afterwards the book has the texts with all edits, it remembers nothing but what the texts say, and no
    more than its size allows, and a further call that fails leaves it as it is. -/
theorem calls_answered_anew (expressions : Expressions) (size : Int) (calls : List Call) :
    ∃ b, Call.performAll calls (.ofExpressions expressions size) = (Call.answerAll calls expressions, b) ∧
      b.expressions = calls.foldl Call.edit expressions ∧
      (∀ e ∈ b.memory.entries, Requirement.parse? e.1.2 = .ok e.2) ∧
      (b.memory.size : Int) ≤ max 1 size ∧
      ∀ (call : Call) (e : SyntaxError), (call.perform.run b).1 = .error e → (call.perform.run b).2 = b := by
  have hnew : (Book.ofExpressions expressions size).memory.Fits (max 1 size.toNat) := .ofSize size
  obtain ⟨hresults, htexts, hmemory⟩ := performAll_of_fits calls hnew
  refine ⟨(Call.performAll calls (.ofExpressions expressions size)).2, Prod.ext hresults rfl, htexts, hmemory.sound, ?_,
    fun call e he => ?_⟩
  · have hsize := hmemory.size
    omega
  · have houtcome := outcome_perform hmemory call
    exact houtcome.failed e (houtcome.result.symm.trans he)

/-- In a book with room for one text, a text that cannot be read does not push out one that can. -/
theorem calls_answered_anew_malformed :
    ∃ b, Call.performAll [.read "Y" (some "B"), .requirement "X"] (.ofExpressions (.ofList [("X", some "A AND")]) 0) =
        ([.ok (.requirement (.course "B")), .error (.unexpected none 5)], b) ∧ b.memory.keys = [("Y", some "B")] ∧
      ((Call.requirement "X").perform.run b).1 = .error (.unexpected none 5) ∧
      ((Call.requirement "X").perform.run b).2 = b := by
  obtain ⟨b, hall, -, -, -, hfailed⟩ := calls_answered_anew (.ofList [("X", some "A AND")]) 0
    [.read "Y" (some "B"), .requirement "X"]
  obtain rfl : (Call.performAll [.read "Y" (some "B"), .requirement "X"]
      (.ofExpressions (.ofList [("X", some "A AND")]) 0)).2 = b := congrArg Prod.snd hall
  have hanswers : (Call.performAll [.read "Y" (some "B"), .requirement "X"]
      (.ofExpressions (.ofList [("X", some "A AND")]) 0)).1 =
      [.ok (.requirement (.course "B")), .error (.unexpected none 5)] := by
    decide +kernel
  have herror : ((Call.requirement "X").perform.run (Call.performAll [.read "Y" (some "B"), .requirement "X"]
      (.ofExpressions (.ofList [("X", some "A AND")]) 0)).2).1 = .error (.unexpected none 5) := by
    decide +kernel
  exact ⟨_, Prod.ext hanswers rfl, by decide +kernel, herror, hfailed _ _ herror⟩

end Book
end Curriculum
