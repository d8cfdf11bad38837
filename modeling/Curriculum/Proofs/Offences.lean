import Curriculum.Proofs.Sentences

/-! Where a text that is no requirement is refused. The tokens of a text and what ends them are its items. An
    item offends if the symbols before it go on to some sentence of the grammar, but not with this item next.
    Unless a limit of depth is reported, a refusal is about the first item that offends. -/

namespace Curriculum.Requirement

/-! ### Beginnings of sentences -/

/-- The symbols begin a sentence of the grammar, whatever its depth. -/
def Begins (w : List Symbol) : Prop := ∃ v t, Derives .either (w ++ v) t

theorem Begins.of_append {w v : List Symbol} (h : Begins (w ++ v)) : Begins w := by
  obtain ⟨u, t, ht⟩ := h
  exact ⟨v ++ u, t, by rwa [← List.append_assoc]⟩

/-- The loosest phrase that may come next at a level: right of an AND only an operand, right of an OR no other
    OR. -/
def Level.wanted (level : Level) : Phrase :=
  match level.both, level.either with
  | some _, _ => .operand
  | none, some _ => .both
  | none, none => .either

theorem Level.binding_wanted_le (level : Level) : level.wanted.binding ≤ Phrase.operand.binding := by
  obtain ⟨_ | _, _ | _⟩ := level <;> simp [Level.wanted, Phrase.binding]

theorem Level.binding_wanted_le_both (either : Option Pending) :
    (Level.mk either none).wanted.binding ≤ Phrase.both.binding := by
  cases either <;> simp [Level.wanted, Phrase.binding]

/-- A phrase that is wanted can be completed to a sentence, by closing what is open. -/
theorem Waits.begins {w : List Symbol} {level : Level} {outer : Outer} (h : Waits w level outer) {v : List Symbol}
    {t : Requirement} (hv : Derives level.wanted v t) : Begins (w ++ v) := by
  -- The pending operators and open parentheses are taken up from the inside out, each in the phrase around it.
  induction h generalizing v t with
  | start => exact ⟨[], t, by rwa [List.nil_append, List.append_nil]⟩
  | @opening w level outer position _ ih =>
    have henclosed : Derives level.wanted (.opening :: (v ++ [.closing])) t :=
      (Derives.enclosed hv).loosen level.binding_wanted_le
    have hsplit : w ++ .opening :: (v ++ [.closing]) = w ++ [.opening] ++ v ++ [.closing] := by simp
    exact (hsplit ▸ ih henclosed).of_append
  | @or w u p outer _ hu ih =>
    have hsplit : w ++ (u ++ .or :: v) = w ++ u ++ [.or] ++ v := by simp
    exact hsplit ▸ ih (hu.or hv)
  | @and w u either p outer _ hu ih =>
    have hjoined : Derives (Level.mk either none).wanted (u ++ .and :: v) (.both p.left t) :=
      (hu.and hv).loosen (Level.binding_wanted_le_both either)
    have hsplit : w ++ (u ++ .and :: v) = w ++ u ++ [.and] ++ v := by simp
    exact hsplit ▸ ih hjoined

theorem Reads.begins {w : List Symbol} {r : Reader} (h : Reads w r) : Begins w := by
  cases h with
  | @wanting _ level outer hw => exact (hw.begins (Derives.nothing.loosen level.binding_wanted_le)).of_append
  | @holding w v operand level outer hw hv => exact hw.begins (hv.loosen level.binding_wanted_le)

theorem Reads.feed {w : List Symbol} {r t : Reader} (h : Reads w r) {ts : List Token} (hf : r.feed ts = .ok t) :
    Reads (w ++ ts.map Token.symbol) t := by
  induction ts generalizing w r with
  | nil =>
    cases hf
    simpa using h
  | cons tok ts ih =>
    obtain ⟨x, hx, hf⟩ := bind_eq_ok.mp hf
    obtain ⟨y, hy, hf⟩ := bind_eq_ok.mp hf
    have := ih ((h.settle hx).shift hy) hf
    simpa using this

theorem begins_of_feed {ts : List Token} {r : Reader} (h : Reader.start.feed ts = .ok r) : Begins (ts.map Token.symbol) :=
  (Reads.feed (.wanting .start) h).begins

/-! ### Refusals by the reader -/

theorem join_error {op : Requirement → Requirement → Requirement} {r : Requirement} {pending : Option Pending}
    {e : SyntaxError} (h : join op r pending = .error e) : ∃ position, e = .tooDeep position := by
  cases pending with
  | none => cases h
  | some p =>
    unfold join at h
    dsimp only at h
    split at h
    · exact ⟨p.position, (Except.error.inj h).symm⟩
    · cases h

namespace Reader

/-- Before it looks at the next token, the reader refuses for depth only. -/
theorem settle_error {r : Reader} {e : SyntaxError} (h : r.settle = .error e) : ∃ position, e = .tooDeep position := by
  cases r with
  | wanting level outer =>
    cases outer with
    | nil => cases h
    | cons o outer =>
      unfold settle at h
      dsimp only at h
      split at h
      · exact ⟨o.1, (Except.error.inj h).symm⟩
      · cases h
  | holding operand level outer =>
    rcases bind_eq_error.mp h with h | ⟨x, -, h⟩
    · exact join_error h
    · cases h

theorem shift_error {r : Reader} {s : Symbol} {position : Nat} {e : SyntaxError} (h : r.shift s position = .error e) :
    (∃ place, e = .tooDeep place) ∨ e = .unexpected (some s) position := by
  cases r with
  | wanting level outer =>
    cases s with
    | nothing | id | opening => cases h
    | and | or | closing => exact .inr (Except.error.inj h).symm
  | holding operand level outer =>
    cases s with
    | and => cases h
    | or =>
      rcases bind_eq_error.mp h with h | ⟨x, -, h⟩
      · exact .inl (join_error h)
      · cases h
    | closing =>
      rcases bind_eq_error.mp h with h | ⟨x, -, h⟩
      · exact .inl (join_error h)
      · cases outer with
        | nil => exact .inr (Except.error.inj h).symm
        | cons => cases h
    | nothing | id | opening =>
      rcases bind_eq_error.mp h with h | ⟨x, -, h⟩
      · exact .inl (join_error h)
      · exact .inr (Except.error.inj h).symm

theorem finish_error {r : Reader} {position : Nat} {e : SyntaxError} (h : r.finish position = .error e) :
    (∃ place, e = .tooDeep place) ∨ e = .unexpected none position := by
  cases r with
  | wanting level outer => exact .inr (Except.error.inj h).symm
  | holding operand level outer =>
    rcases bind_eq_error.mp h with h | ⟨x, -, h⟩
    · exact .inl (join_error h)
    · split at h
      · cases h
      · exact .inr (Except.error.inj h).symm

/-- What fails for no limit after the reader has settled fails for what comes then. -/
theorem settle_bind_error {α : Type} {r : Reader} {f : Reader → Except SyntaxError α} {e e' : SyntaxError}
    (h : (r.settle >>= f) = .error e) (hd : ∀ position, e ≠ .tooDeep position)
    (hf : ∀ y, f y = .error e → (∃ place, e = .tooDeep place) ∨ e = e') : e = e' := by
  have hlimit : ¬∃ place, e = .tooDeep place := fun ⟨place, he⟩ => hd place he
  rcases bind_eq_error.mp h with hs | ⟨y, -, hs⟩
  · exact absurd (settle_error hs) hlimit
  · exact (hf y hs).resolve_left hlimit

/-- A run that fails for no limit stops at some token, which is refused, or where the tokens end. -/
theorem run_error {ending : Ending} {r : Reader} {ts : List Token} {e : SyntaxError} (h : r.run ending ts = .error e)
    (hd : ∀ position, e ≠ .tooDeep position) :
    ∃ front x, r.feed front = .ok x ∧
      ((∃ t back, ts = front ++ t :: back ∧ (x.settle >>= fun y => y.shift t.symbol t.start) = .error e) ∨
        (ts = front ∧ x.run ending [] = .error e)) := by
  induction ts generalizing r with
  | nil => exact ⟨[], r, rfl, .inr ⟨rfl, h⟩⟩
  | cons t ts ih =>
    rcases bind_eq_error.mp h with h | ⟨x, hx, h⟩
    · obtain ⟨position, rfl⟩ := settle_error h
      exact absurd rfl (hd position)
    rcases bind_eq_error.mp h with h | ⟨y, hy, h⟩
    · exact ⟨[], r, rfl, .inl ⟨t, ts, rfl, by rw [hx, ok_bind, h]⟩⟩
    · obtain ⟨front, z, hz, hstop⟩ := ih h
      refine ⟨t :: front, z, by rw [feed, hx, ok_bind, hy, ok_bind, hz], hstop.imp ?_ ?_⟩
      · rintro ⟨u, back, rfl, hu⟩
        exact ⟨u, back, rfl, hu⟩
      · rintro ⟨rfl, hend⟩
        exact ⟨rfl, hend⟩

theorem run_append (ending : Ending) (r : Reader) (ts us : List Token) :
    r.run ending (ts ++ us) = r.feed ts >>= fun r => r.run ending us := by
  rw [run_eq_feed, feed_append, bind_assoc]
  simp only [← run_eq_feed]

/-- On the tokens of a sentence nothing is unexpected. -/
theorem run_ne_unexpected {ts : List Token} {t : Requirement} (h : Derives .either (ts.map Token.symbol) t)
    {found : Option Symbol} {place position : Nat} :
    Reader.start.run (.finish position) ts ≠ .error (.unexpected found place) := by
  intro hr
  have hbounded := run_bounded h position
  by_cases hfits : Fits 0 ts t
  · rw [hbounded.value hfits] at hr
    cases hr
  · obtain ⟨limit, hlimit, -⟩ := hbounded.limit hfits
    rw [hlimit] at hr
    cases hr

/-- A token that is unexpected begins no sentence with the tokens before it. -/
theorem not_begins_of_unexpected {front : List Token} {x : Reader} (hx : Reader.start.feed front = .ok x) {s : Symbol}
    {found : Option Symbol} {place position : Nat}
    (h : (x.settle >>= fun y => y.shift s position) = .error (.unexpected found place)) :
    ¬Begins (front.map Token.symbol ++ [s]) := by
  rintro ⟨v, t, ht⟩
  -- Some tokens with the symbols of the sentence; where the later ones stand does not matter.
  let rest : List Token := v.map fun symbol => ⟨symbol, "", 0⟩
  have hsymbols : (front ++ ⟨s, "", position⟩ :: rest).map Token.symbol = front.map Token.symbol ++ [s] ++ v := by
    simp [rest, Function.comp_def]
  have hrun : Reader.start.run (.finish 0) (front ++ ⟨s, "", position⟩ :: rest) = .error (.unexpected found place) := by
    rw [run_append, hx, ok_bind, run, ← bind_assoc, h, error_bind]
  exact run_ne_unexpected (hsymbols ▸ ht) hrun

end Reader

/-! ### Items -/

/-- What stands next in a text: a token, or what ends the tokens. -/
inductive Item
  | token (t : Token)
  | ending (e : Ending)

namespace Item

def position : Item → Nat
  | .token t => t.start
  | .ending e => e.position

def refusal : Item → String
  | .token t => "Unexpected token " ++ t.symbol.kindName
  | .ending (.finish _) => "Unexpected token EOF"
  | .ending (.stray c _) => "Unexpected character \"" ++ c.toString ++ "\""

/-- The item may come after the symbols: a token if it begins a sentence with them, the end of the text if they
    are a sentence. A stray character may come after nothing. -/
def MayFollow (w : List Symbol) : Item → Prop
  | .token t => Begins (w ++ [t.symbol])
  | .ending (.finish _) => ∃ t, Derives .either w t
  | .ending (.stray ..) => False

/-- In the text the item stands next after the tokens at its beginning. -/
def StandsAfter (s : String) (front : List Token) : Item → Prop
  | .token t => ∃ back ending, Lexes 0 s.toList (front ++ t :: back) ending
  | .ending e => Lexes 0 s.toList front e

/-- The item is the first in the text that offends: the tokens before it begin a sentence, and none of them
    offends, but the item may not come after them. -/
structure FirstOffence (s : String) (front : List Token) (item : Item) : Prop where
  stands : item.StandsAfter s front
  begins : Begins (front.map Token.symbol)
  offends : ¬item.MayFollow (front.map Token.symbol)
  first : ∀ w t v, front = w ++ t :: v → (Item.token t).MayFollow (w.map Token.symbol)

variable {s : String} {front : List Token} {item : Item}

theorem mayFollow_of_begins (h : Begins (front.map Token.symbol)) (w : List Token) (t : Token) (v : List Token)
    (hf : front = w ++ t :: v) : (Item.token t).MayFollow (w.map Token.symbol) := by
  have hsplit : front.map Token.symbol = w.map Token.symbol ++ [t.symbol] ++ v.map Token.symbol := by simp [hf]
  exact (hsplit ▸ h).of_append

/-- No item stands behind the place where the tokens of its text end. -/
theorem StandsAfter.position_le (h : item.StandsAfter s front) {ts : List Token} {e : Ending}
    (he : Lexes 0 s.toList ts e) : item.position ≤ e.position := by
  have hscan := he.scan_eq
  cases item with
  | token t =>
    obtain ⟨back, ending, hl⟩ := h
    rw [hl.scan_eq] at hscan
    cases hscan
    exact Nat.le_of_lt (he.start_lt_position (List.mem_append_right _ (List.mem_cons_self ..)))
  | ending e' =>
    rw [Lexes.scan_eq h] at hscan
    cases hscan
    exact Nat.le_refl _

end Item

/-! ### Refusals -/

/-- A text that is refused for no limit is refused at the first item that offends. -/
theorem exists_firstOffence {s : String} {e : SyntaxError} (h : parse s = .error e)
    (hd : ∀ position, e ≠ .tooDeep position) :
    ∃ front item, Item.FirstOffence s front item ∧ e.position = item.position ∧ e.message = item.refusal := by
  have hlex := Lexes.of_scan s
  have hrun : Reader.start.run (Scan.ofText s).ending (Scan.ofText s).tokens = .error e := by
    unfold parse at h
    split at h
    · cases h
    · exact h
  generalize (Scan.ofText s).tokens = ts at hlex hrun
  generalize (Scan.ofText s).ending = ending at hlex hrun
  obtain ⟨front, x, hx, ⟨t, back, rfl, ht⟩ | ⟨rfl, hend⟩⟩ := Reader.run_error hrun hd
  · have hbegins := begins_of_feed hx
    obtain rfl : e = .unexpected (some t.symbol) t.start := Reader.settle_bind_error ht hd fun _ => Reader.shift_error
    refine ⟨front, .token t, ⟨⟨back, ending, hlex⟩, hbegins, ?_, Item.mayFollow_of_begins hbegins⟩, rfl, rfl⟩
    exact Reader.not_begins_of_unexpected hx ht
  · have hbegins := begins_of_feed hx
    cases ending with
    | stray c position =>
      cases hend
      exact ⟨ts, .ending (.stray c position), ⟨hlex, hbegins, id, Item.mayFollow_of_begins hbegins⟩, rfl, rfl⟩
    | finish position =>
      obtain rfl : e = .unexpected none position := Reader.settle_bind_error hend hd fun _ => Reader.finish_error
      refine ⟨ts, .ending (.finish position), ⟨hlex, hbegins, ?_, Item.mayFollow_of_begins hbegins⟩, rfl, rfl⟩
      rintro ⟨t, ht⟩
      exact Reader.run_ne_unexpected ht hrun

/-- A text that is refused, but not for its depth, is refused at the first item that offends, with a message that
    names the item: a stray character, which stands at its place in the text, a token, or the end of the text. So
    if the text has a stray character as well, the refusal is not behind it. -/
theorem parse_refuses_first_offence {s : String} {e : SyntaxError} (h : parse s = .error e)
    (hd : e.message ≠ "Expression nested too deeply") :
    ∃ front item, Item.FirstOffence s front item ∧ e.position = item.position ∧ e.message = item.refusal ∧
      (∀ c position, item = .ending (.stray c position) → s.toList[position]? = some c) ∧
      (∀ position, item = .ending (.finish position) → position = s.length) ∧
      ∀ ts c position, Lexes 0 s.toList ts (.stray c position) → e.position ≤ position := by
  have hlimit : ∀ position, e ≠ .tooDeep position := by
    rintro position rfl
    exact hd rfl
  obtain ⟨front, item, hfirst, hposition, hmessage⟩ := exists_firstOffence h hlimit
  refine ⟨front, item, hfirst, hposition, hmessage, ?_, ?_, fun ts c position hl => ?_⟩
  · rintro c position rfl
    exact Lexes.getElem?_of_stray hfirst.stands
  · rintro position rfl
    have := Lexes.position_of_finish hfirst.stands
    rwa [Nat.zero_add, String.length_toList] at this
  · rw [hposition]
    exact hfirst.stands.position_le hl

/-- The second word is refused before the stray character behind it is looked at. -/
theorem parse_refuses_first_offence_word :
    parse "(a or b c +" = .error (.unexpected (some (.id "c")) 8) ∧
      (SyntaxError.unexpected (some (.id "c")) 8).message ≠ "Expression nested too deeply" ∧
      ∃ front item, Item.FirstOffence "(a or b c +" front item ∧ 8 = item.position ∧
        "Unexpected token ID" = item.refusal := by
  have hscan : Scan.ofText "(a or b c +" =
      ⟨[⟨.opening, "(", 0⟩, ⟨.id "a", "a", 1⟩, ⟨.or, "or", 3⟩, ⟨.id "b", "b", 6⟩, ⟨.id "c", "c", 8⟩], .stray '+' 10⟩ := by
    decide +kernel
  have hparse : parse "(a or b c +" = .error (.unexpected (some (.id "c")) 8) := by
    rw [parse, hscan]
    rfl
  have hmessage : (SyntaxError.unexpected (some (.id "c")) 8).message ≠ "Expression nested too deeply" := by decide
  obtain ⟨front, item, hfirst, hposition, hrefusal, -⟩ := parse_refuses_first_offence hparse hmessage
  exact ⟨hparse, hmessage, front, item, hfirst, hposition, hrefusal⟩

end Curriculum.Requirement
