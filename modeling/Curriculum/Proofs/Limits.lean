import Curriculum.Proofs.Except
import Curriculum.Proofs.Grammar

/-! What the reader of requirements does with the tokens of a phrase, whatever it has read before. If the
    phrase keeps both limits, the reader ends up holding its requirement; otherwise it stops and reports
    a limit, at a parenthesis or an operator of the phrase. -/

namespace Curriculum.Requirement

/-! ### Limits -/

/-- One of the tokens stands at the place and nests what follows it: it is an opening parenthesis or an
    operator. -/
def NestsAt (ts : List Token) (position : Nat) : Prop :=
  ∃ t ∈ ts, t.start = position ∧ (t.symbol = .opening ∨ t.symbol = .and ∨ t.symbol = .or)

theorem NestsAt.mono {ts us : List Token} {position : Nat} (h : NestsAt ts position) (hs : ts ⊆ us) :
    NestsAt us position := by
  obtain ⟨t, ht, hp⟩ := h
  exact ⟨t, hs ht, hp⟩

/-- The requirement and the tokens that write it keep the limits, as many parentheses as given being open
    before them. -/
def Fits (before : Nat) (ts : List Token) (r : Requirement) : Prop :=
  r.depth ≤ maxDepth ∧ NestedWithin before (ts.map Token.symbol)

/-- The work on some tokens has the value if the limits are kept; otherwise it reports a limit at one of
    the tokens. -/
structure Bounded {α : Type} (fits : Prop) (ts : List Token) (x : Except SyntaxError α) (a : α) : Prop where
  value : fits → x = .ok a
  limit : ¬fits → ∃ position, x = .error (.tooDeep position) ∧ NestsAt ts position

namespace Bounded
variable {α β : Type} {f g : Prop} {ts us : List Token} {x : Except SyntaxError α} {a : α}

theorem of_fits (hf : f) (h : x = .ok a) : Bounded f ts x a :=
  ⟨fun _ => h, fun hn => absurd hf hn⟩

theorem congr (h : Bounded f ts x a) (hfg : f ↔ g) (hs : ts ⊆ us) : Bounded g us x a where
  value hg := h.value (hfg.mpr hg)
  limit hg := by
    obtain ⟨position, hx, hp⟩ := h.limit fun hf => hg (hfg.mp hf)
    exact ⟨position, hx, hp.mono hs⟩

/-- Work that goes on from other work keeps the limits if both parts do. -/
theorem bind {k : α → Except SyntaxError β} {b : β} (h : Bounded f ts x a) (hk : Bounded g us (k a) b) :
    Bounded (f ∧ g) (ts ++ us) (x >>= k) b where
  value hfg := by rw [h.value hfg.1, ok_bind, hk.value hfg.2]
  limit hfg := by
    by_cases hf : f
    · obtain ⟨position, hx, hp⟩ := hk.limit fun hg => hfg ⟨hf, hg⟩
      exact ⟨position, by rw [h.value hf, ok_bind, hx], hp.mono (List.subset_append_right ts us)⟩
    · obtain ⟨position, hx, hp⟩ := h.limit hf
      exact ⟨position, by rw [hx, error_bind], hp.mono (List.subset_append_left ts us)⟩

theorem then_ok {k : α → Except SyntaxError β} {b : β} (h : Bounded f ts x a) (hk : k a = .ok b) :
    Bounded f ts (x >>= k) b := by
  have hend : Bounded True [] (k a) b := of_fits trivial hk
  exact (h.bind hend).congr (and_iff_left trivial) (by simp)

end Bounded

theorem join_bounded {op : Requirement → Requirement → Requirement} {l r : Requirement} {t : Token}
    (ht : t.symbol = .and ∨ t.symbol = .or) :
    Bounded ((op l r).depth ≤ maxDepth) [t] (join op r (some ⟨l, t.start⟩)) (op l r) where
  value h := by
    unfold join
    exact if_neg (Nat.not_lt.mpr h)
  limit h := by
    refine ⟨t.start, ?_, t, List.mem_singleton_self t, rfl, Or.inr ht⟩
    unfold join
    exact if_pos (Nat.not_le.mp h)

/-! ### Several tokens -/

namespace Reader

/-- The reader after the tokens, the last of them not settled yet. -/
def feed (r : Reader) : List Token → Except SyntaxError Reader
  | [] => .ok r
  | t :: ts => r.settle >>= fun r => r.shift t.symbol t.start >>= fun r => r.feed ts

theorem feed_append (r : Reader) (ts us : List Token) : r.feed (ts ++ us) = r.feed ts >>= fun r => r.feed us := by
  induction ts generalizing r with
  | nil => rfl
  | cons t ts ih => simp only [List.cons_append, feed, ih, bind_assoc]

theorem run_eq_feed (ending : Ending) (r : Reader) (ts : List Token) :
    r.run ending ts = r.feed ts >>= fun r => r.run ending [] := by
  induction ts generalizing r with
  | nil => rfl
  | cons t ts ih =>
    rw [run, feed]
    simp only [bind_assoc, ih]

/-- The reader whose waiting OR has got the held phrase as its right operand. -/
def reduce : Reader → Except SyntaxError Reader
  | .wanting level outer => .ok (.wanting level outer)
  | .holding operand level outer =>
    join .either operand level.either >>= fun operand => .ok (.holding operand { level with either := none } outer)

/-- An OR and a closing parenthesis end the right operand of a waiting OR. -/
theorem shift_eq_reduce (r : Reader) {s : Symbol} (hs : s = .or ∨ s = .closing) (position : Nat) :
    r.shift s position = r.reduce >>= fun r => r.shift s position := by
  cases r with
  | wanting level outer => rfl
  | holding operand level outer =>
    rw [reduce, bind_assoc]
    rcases hs with rfl | rfl <;> rfl

theorem feed_cons_eq_reduce {t : Token} (ht : t.symbol = .or ∨ t.symbol = .closing) (r : Reader) (ts : List Token) :
    r.feed (t :: ts) =
      r.settle >>= fun r => r.reduce >>= fun r => r.shift t.symbol t.start >>= fun r => r.feed ts := by
  rw [feed]
  refine congrArg (r.settle >>= ·) (funext fun r => ?_)
  rw [shift_eq_reduce r ht, bind_assoc]

theorem finish_eq_reduce (r : Reader) (position : Nat) :
    r.finish position = r.reduce >>= fun r => r.finish position := by
  cases r with
  | wanting level outer => rfl
  | holding operand level outer =>
    rw [reduce, bind_assoc]
    rfl

theorem settle_wanting {level : Level} {outer : Outer} (h : outer.length ≤ maxDepth) :
    (Reader.wanting level outer).settle = .ok (.wanting level outer) := by
  cases outer with
  | nil => rfl
  | cons o outer => exact if_neg (Nat.not_lt.mpr h)

theorem settle_wanting_tooDeep {level interrupted : Level} {outer : Outer} {position : Nat}
    (h : ¬outer.length + 1 ≤ maxDepth) :
    (Reader.wanting level ((position, interrupted) :: outer)).settle = .error (.tooDeep position) :=
  if_pos (Nat.not_le.mp h)

end Reader

/-! ### Phrases -/

/-- The reader takes the tokens of a phrase of the requirement: it holds the requirement once the operators
    inside the phrase have got their operands. -/
def Takes (ts : List Token) (r : Requirement) : Phrase → Prop
  | .operand => ∀ level (outer : Outer), outer.length ≤ maxDepth →
    Bounded (Fits outer.length ts r) ts ((Reader.wanting level outer).feed ts) (.holding r level outer)
  | .both => ∀ either (outer : Outer), outer.length ≤ maxDepth →
    Bounded (Fits outer.length ts r) ts ((Reader.wanting ⟨either, none⟩ outer).feed ts >>= Reader.settle)
      (.holding r ⟨either, none⟩ outer)
  | .either => ∀ outer : Outer, outer.length ≤ maxDepth →
    Bounded (Fits outer.length ts r) ts
      ((Reader.wanting .fresh outer).feed ts >>= Reader.settle >>= Reader.reduce) (.holding r .fresh outer)

namespace Takes
variable {ts us : List Token} {l r : Requirement} {t : Token}

theorem leaf (hs : t.symbol ≠ .opening ∧ t.symbol ≠ .closing) (hd : r.depth = 0)
    (h : ∀ level outer, (Reader.wanting level outer).shift t.symbol t.start = .ok (.holding r level outer)) :
    Takes [t] r .operand := by
  intro level outer hlen
  refine .of_fits ⟨by omega, ?_⟩ ?_
  · rw [List.map_singleton, NestedWithin.cons_iff hs.1 hs.2]
    exact NestedWithin.nil hlen
  · rw [Reader.feed, Reader.settle_wanting hlen, ok_bind, h]
    rfl

theorem enclosed {c : Token} (ho : t.symbol = .opening) (hc : c.symbol = .closing)
    (hw : Derives .either (ts.map Token.symbol) r) (h : Takes ts r .either) :
    Takes (t :: (ts ++ [c])) r .operand := by
  intro level outer hlen
  have hfits : Fits outer.length (t :: (ts ++ [c])) r ↔ Fits (outer.length + 1) ts r := by
    simp only [Fits, List.map_cons, List.map_append, List.map_nil, ho, hc, NestedWithin.enclosed_iff hw.count_eq]
  have hopen : (Reader.wanting level outer).feed (t :: (ts ++ [c])) =
      (Reader.wanting .fresh ((t.start, level) :: outer)).feed (ts ++ [c]) := by
    rw [Reader.feed, Reader.settle_wanting hlen, ok_bind, ho]
    rfl
  rw [hopen]
  by_cases hroom : outer.length + 1 ≤ maxDepth
  · have hclose : (Reader.holding r .fresh ((t.start, level) :: outer)).shift c.symbol c.start =
        .ok (.holding r level outer) := by
      rw [hc]
      rfl
    have hall := (h ((t.start, level) :: outer) hroom).then_ok
      (k := fun x => x.shift c.symbol c.start) hclose
    rw [Reader.feed_append]
    simp only [Reader.feed_cons_eq_reduce (Or.inr hc)]
    simp only [Reader.feed, bind_ok]
    simp only [bind_assoc] at hall
    refine hall.congr hfits.symm ?_
    exact List.Subset.trans (List.subset_append_left ts [c]) (List.subset_cons_self ..)
  · -- The parenthesis is one too many, which shows at the token behind it.
    refine ⟨fun hf => absurd (hfits.mp hf).2.le hroom, fun _ => ⟨t.start, ?_, t, List.mem_cons_self .., rfl, Or.inl ho⟩⟩
    cases hts : ts ++ [c] with
    | nil => simp at hts
    | cons u rest => rw [Reader.feed, Reader.settle_wanting_tooDeep hroom, error_bind]

theorem ofOperand (h : Takes ts r .operand) : Takes ts r .both :=
  fun _ outer hlen => (h _ outer hlen).then_ok rfl

theorem ofBoth (h : Takes ts r .both) : Takes ts r .either :=
  fun outer hlen => (h none outer hlen).then_ok rfl

/-- An operator keeps the limits if its operands do and it is not too deep itself. -/
theorem fits_joined {p : Phrase} {op : Requirement → Requirement → Requirement}
    (hop : (op l r).depth = max l.depth r.depth + 1) (ho : t.symbol ≠ .opening) (hc : t.symbol ≠ .closing)
    (hl : Derives p (ts.map Token.symbol) l) {n : Nat} :
    Fits n ts l ∧ Fits n us r ∧ (op l r).depth ≤ maxDepth ↔ Fits n (ts ++ t :: us) (op l r) := by
  simp only [Fits, List.map_append, List.map_cons, NestedWithin.joined_iff ho hc hl.count_eq, hop]
  constructor
  · rintro ⟨⟨-, hv⟩, ⟨-, hw⟩, hd⟩
    exact ⟨hd, hv, hw⟩
  · rintro ⟨hd, hv, hw⟩
    exact ⟨⟨by omega, hv⟩, ⟨by omega, hw⟩, hd⟩

theorem and (ht : t.symbol = .and) (hl : Derives .both (ts.map Token.symbol) l) (h : Takes ts l .both)
    (h' : Takes us r .operand) : Takes (ts ++ t :: us) (.both l r) .both := by
  intro either outer hlen
  have hjoin : Bounded ((both l r).depth ≤ maxDepth) [t]
      (Reader.settle (.holding r ⟨either, some ⟨l, t.start⟩⟩ outer)) (.holding (both l r) ⟨either, none⟩ outer) :=
    (join_bounded (Or.inl ht)).then_ok rfl
  -- The AND waits while its right operand is read, and gets it when the reader settles.
  have hright := (h' ⟨either, some ⟨l, t.start⟩⟩ outer hlen).bind hjoin
  have hall := (h either outer hlen).bind
    (k := fun x => x.shift .and t.start >>= fun x => x.feed us >>= Reader.settle) hright
  rw [Reader.feed_append]
  simp only [Reader.feed, ht, bind_assoc] at hall ⊢
  exact hall.congr (fits_joined rfl (by simp [ht]) (by simp [ht]) hl) (by simp)

theorem or (ht : t.symbol = .or) (hl : Derives .either (ts.map Token.symbol) l) (h : Takes ts l .either)
    (h' : Takes us r .both) : Takes (ts ++ t :: us) (.either l r) .either := by
  intro outer hlen
  have hjoin : Bounded ((either l r).depth ≤ maxDepth) [t]
      (Reader.reduce (.holding r ⟨some ⟨l, t.start⟩, none⟩ outer)) (.holding (either l r) .fresh outer) :=
    (join_bounded (Or.inr ht)).then_ok rfl
  -- The OR waits while its right operand is read, and gets it at the end of the phrase.
  have hright := (h' (some ⟨l, t.start⟩) outer hlen).bind hjoin
  have hall := (h outer hlen).bind
    (k := fun x => x.shift .or t.start >>= fun x => x.feed us >>= Reader.settle >>= Reader.reduce) hright
  rw [Reader.feed_append]
  simp only [Reader.feed_cons_eq_reduce (Or.inl ht), ht, bind_assoc] at hall ⊢
  exact hall.congr (fits_joined rfl (by simp [ht]) (by simp [ht]) hl) (by simp)

end Takes

theorem takes_of_derives {p : Phrase} {w : List Symbol} {r : Requirement} (h : Derives p w r) :
    ∀ ts : List Token, ts.map Token.symbol = w → Takes ts r p := by
  -- The tokens are cut as the derivation cuts their symbols.
  induction h with
  | nothing =>
    intro ts hts
    obtain ⟨t, rfl, ht⟩ := List.map_eq_singleton_iff.mp hts
    exact .leaf (by simp [ht]) rfl fun _ _ => by rw [ht]; rfl
  | course id =>
    intro ts hts
    obtain ⟨t, rfl, ht⟩ := List.map_eq_singleton_iff.mp hts
    exact .leaf (by simp [ht]) rfl fun _ _ => by rw [ht]; rfl
  | enclosed hw ih =>
    intro ts hts
    obtain ⟨t, ts, rfl, ht, hts⟩ := List.map_eq_cons_iff.mp hts
    obtain ⟨us, cs, rfl, hus, hcs⟩ := List.map_eq_append_iff.mp hts
    obtain ⟨c, rfl, hc⟩ := List.map_eq_singleton_iff.mp hcs
    exact .enclosed ht hc (hus ▸ hw) (ih us hus)
  | ofOperand _ ih => exact fun ts hts => (ih ts hts).ofOperand
  | ofBoth _ ih => exact fun ts hts => (ih ts hts).ofBoth
  | and hl _ ihl ihr =>
    intro ts hts
    obtain ⟨us, vs, rfl, hus, hvs⟩ := List.map_eq_append_iff.mp hts
    obtain ⟨t, vs, rfl, ht, hvs⟩ := List.map_eq_cons_iff.mp hvs
    exact .and ht (hus ▸ hl) (ihl us hus) (ihr vs hvs)
  | or hl _ ihl ihr =>
    intro ts hts
    obtain ⟨us, vs, rfl, hus, hvs⟩ := List.map_eq_append_iff.mp hts
    obtain ⟨t, vs, rfl, ht, hvs⟩ := List.map_eq_cons_iff.mp hvs
    exact .or ht (hus ▸ hl) (ihl us hus) (ihr vs hvs)

/-- On the tokens of a sentence the reader finds its requirement or reports a limit. -/
theorem run_bounded {ts : List Token} {t : Requirement} (h : Derives .either (ts.map Token.symbol) t)
    (position : Nat) : Bounded (Fits 0 ts t) ts (Reader.start.run (.finish position) ts) t := by
  have hall := (takes_of_derives h ts rfl [] (Nat.zero_le _)).then_ok (k := fun x => x.finish position) rfl
  rw [Reader.run_eq_feed]
  simp only [bind_assoc, ← Reader.finish_eq_reduce] at hall
  exact hall

end Curriculum.Requirement
