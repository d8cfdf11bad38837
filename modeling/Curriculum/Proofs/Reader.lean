import Curriculum.Proofs.Except
import Curriculum.Proofs.Grammar

/-! What the reader of requirements has read, as a fact about its state: the symbols so far are the open
    parentheses and waiting operators of the state, each operator behind the phrase that is its left
    operand, and then the phrase that the reader holds. A step keeps this, so a reader that ends well has
    read a sentence of the grammar. -/

namespace Curriculum.Requirement

/-! ### Readers and the symbols behind them -/

/-- The symbols lead to the waiting operators of the level, inside the open parentheses of the outer
    ones. -/
inductive Waits : List Symbol → Level → Outer → Prop
  | start : Waits [] .fresh []
  | opening {w : List Symbol} {level : Level} {outer : Outer} (position : Nat) :
    Waits w level outer → Waits (w ++ [.opening]) .fresh ((position, level) :: outer)
  | or {w v : List Symbol} {p : Pending} {outer : Outer} :
    Waits w .fresh outer → Derives .either v p.left → Waits (w ++ v ++ [.or]) ⟨some p, none⟩ outer
  | and {w v : List Symbol} {either : Option Pending} {p : Pending} {outer : Outer} :
    Waits w ⟨either, none⟩ outer → Derives .both v p.left → Waits (w ++ v ++ [.and]) ⟨either, some p⟩ outer

/-- The symbols lead to the reader, which has just taken the last of them. -/
inductive Reads : List Symbol → Reader → Prop
  | wanting {w : List Symbol} {level : Level} {outer : Outer} : Waits w level outer → Reads w (.wanting level outer)
  | holding {w v : List Symbol} {r : Requirement} {level : Level} {outer : Outer} :
    Waits w level outer → Derives .operand v r → Reads (w ++ v) (.holding r level outer)

/-- The symbols lead to the reader, which no AND keeps waiting. -/
inductive Settles : List Symbol → Reader → Prop
  | wanting {w : List Symbol} {level : Level} {outer : Outer} : Waits w level outer → Settles w (.wanting level outer)
  | holding {w v : List Symbol} {r : Requirement} {either : Option Pending} {outer : Outer} :
    Waits w ⟨either, none⟩ outer → Derives .both v r → Settles (w ++ v) (.holding r ⟨either, none⟩ outer)

/-! ### Steps -/

theorem join_some_eq_ok {op : Requirement → Requirement → Requirement} {r t : Requirement} {p : Pending}
    (h : join op r (some p) = .ok t) : t = op p.left r := by
  unfold join at h
  dsimp only at h
  split at h
  · cases h
  · exact (Except.ok.inj h).symm

theorem Reads.settle {w : List Symbol} {r t : Reader} (h : Reads w r) (hs : r.settle = .ok t) : Settles w t := by
  cases h with
  | @wanting _ level outer hw =>
    cases outer with
    | nil =>
      cases hs
      exact .wanting hw
    | cons o outer =>
      obtain ⟨position, interrupted⟩ := o
      unfold Reader.settle at hs
      dsimp only at hs
      split at hs
      · cases hs
      · cases hs
        exact .wanting hw
  | @holding w v operand level outer hw hv =>
    obtain ⟨x, hx, ht⟩ := bind_eq_ok.mp hs
    cases ht
    obtain ⟨either, both⟩ := level
    cases both with
    | none =>
      cases hx
      exact .holding hw (.ofOperand hv)
    | some p =>
      -- The waiting AND stands behind its left operand and gets the held one as its right.
      obtain rfl := join_some_eq_ok hx
      cases hw with
      | @and w u _ _ _ hw hu =>
        have := Settles.holding hw (hu.and hv)
        simpa using this

/-- The waiting OR takes the held AND as its right operand. -/
theorem joined_either {w v : List Symbol} {r t : Requirement} {either : Option Pending} {outer : Outer}
    (hw : Waits w ⟨either, none⟩ outer) (hv : Derives .both v r) (hj : join .either r either = .ok t) :
    ∃ w' v', Waits w' .fresh outer ∧ Derives .either v' t ∧ w ++ v = w' ++ v' := by
  cases either with
  | none =>
    cases hj
    exact ⟨w, v, hw, .ofBoth hv, rfl⟩
  | some p =>
    obtain rfl := join_some_eq_ok hj
    cases hw with
    | @or w u _ _ hw hu => exact ⟨w, _, hw, hu.or hv, by simp⟩

theorem Settles.shift {w : List Symbol} {r t : Reader} {s : Symbol} {position : Nat} (h : Settles w r)
    (hs : r.shift s position = .ok t) : Reads (w ++ [s]) t := by
  cases h with
  | @wanting w level outer hw =>
    cases s with
    | nothing =>
      cases hs
      exact .holding hw .nothing
    | id name =>
      cases hs
      exact .holding hw (.course name)
    | opening =>
      cases hs
      exact .wanting (.opening position hw)
    | and | or | closing => cases hs
  | @holding w v operand either outer hw hv =>
    cases s with
    | and =>
      cases hs
      exact .wanting (.and hw hv)
    | or =>
      obtain ⟨x, hx, ht⟩ := bind_eq_ok.mp hs
      cases ht
      obtain ⟨w', v', hw', hv', heq⟩ := joined_either hw hv hx
      rw [heq]
      exact .wanting (.or hw' hv')
    | closing =>
      obtain ⟨x, hx, ht⟩ := bind_eq_ok.mp hs
      obtain ⟨w', v', hw', hv', heq⟩ := joined_either hw hv hx
      cases hw' with
      | start => cases ht
      | @opening w level outer position hw' =>
        cases ht
        have := Reads.holding hw' hv'.enclosed
        rw [heq]
        simpa using this
    | nothing | id | opening =>
      obtain ⟨x, hx, ht⟩ := bind_eq_ok.mp hs
      cases ht

theorem Settles.finish {w : List Symbol} {r : Reader} {t : Requirement} {position : Nat} (h : Settles w r)
    (hf : r.finish position = .ok t) : Derives .either w t := by
  cases h with
  | wanting => cases hf
  | @holding w v operand either outer hw hv =>
    obtain ⟨x, hx, ht⟩ := bind_eq_ok.mp hf
    obtain ⟨w', v', hw', hv', heq⟩ := joined_either hw hv hx
    cases hw' with
    | start =>
      cases ht
      rw [heq]
      exact hv'
    | opening => cases ht

/-! ### Runs -/

/-- A run that ends well has read a sentence, and the text is over. -/
theorem Reads.run {ending : Ending} {t : Requirement} : ∀ {ts : List Token} {w : List Symbol} {r : Reader},
    Reads w r → r.run ending ts = .ok t →
      Derives .either (w ++ ts.map Token.symbol) t ∧ ∃ position, ending = .finish position
  | [], w, r, h, hr => by
    cases ending with
    | stray c position => cases hr
    | finish position =>
      obtain ⟨x, hx, ht⟩ := bind_eq_ok.mp hr
      rw [List.map_nil, List.append_nil]
      exact ⟨(h.settle hx).finish ht, position, rfl⟩
  | tok :: ts, w, r, h, hr => by
    obtain ⟨x, hx, hr⟩ := bind_eq_ok.mp hr
    obtain ⟨y, hy, hr⟩ := bind_eq_ok.mp hr
    obtain ⟨hd, he⟩ := Reads.run ((h.settle hx).shift hy) hr
    rw [List.append_assoc] at hd
    exact ⟨hd, he⟩

theorem derives_of_run {ending : Ending} {ts : List Token} {t : Requirement} (h : Reader.start.run ending ts = .ok t) :
    Derives .either (ts.map Token.symbol) t ∧ ∃ position, ending = .finish position :=
  Reads.run (.wanting .start) h

end Curriculum.Requirement
