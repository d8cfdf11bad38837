import Curriculum.Proofs.Sentences
import Mathlib.Data.List.Forall2

/-! Texts with the same tokens in another style. The layout between the tokens may differ, and so may the case of the
    keywords, so that the tokens stand at other places. The reader carries the places of tokens about and never looks at
    them: two readers that agree in all but the places go on to agree, and the places in what they end with are those of
    the same token in either text. -/

namespace Curriculum

/-! ### Tokens alike -/

/-- The tokens are of the same kind, and as ids they are written the same. -/
structure Token.Alike (t u : Token) : Prop where
  kind : t.symbol.kindName = u.symbol.kindName
  lexeme : t.symbol.kindName = "ID" → t.lexeme = u.lexeme

/-- An id is the word that is written. -/
theorem Lexes.lexeme_of_mem {p : Nat} {cs : List Char} {ts : List Token} {e : Ending} (h : Lexes p cs ts e) {t : Token}
    (ht : t ∈ ts) {id : String} (hid : t.symbol = .id id) : id = t.lexeme := by
  induction h with
  | finish | stray => cases ht
  | layout _ _ ih => exact ih ht
  | mark hm _ ih =>
    rcases List.mem_cons.mp ht with rfl | ht
    · rcases ofMark?_eq_some hm with ⟨-, rfl⟩ | ⟨-, rfl⟩ <;> cases hid
    · exact ih ht
  | word _ _ _ _ ih =>
    rcases List.mem_cons.mp ht with rfl | ht
    · dsimp only [Symbol.ofWord] at hid
      split at hid <;> cases hid
      rfl
    · exact ih ht

/-- Tokens alike, each out of some text, have the same symbol. -/
theorem Token.Alike.symbol_eq {t u : Token} (h : t.Alike u) (ht : ∀ id, t.symbol = .id id → id = t.lexeme)
    (hu : ∀ id, u.symbol = .id id → id = u.lexeme) : t.symbol = u.symbol := by
  obtain ⟨hkind, hlexeme⟩ := h
  cases hs : t.symbol with
  | id name =>
    cases hs' : u.symbol with
    | id name' =>
      rw [ht name hs, hu name' hs', hlexeme (by rw [hs]; rfl)]
    | _ => simp [hs, hs', Symbol.kindName] at hkind
  | _ =>
    cases hs' : u.symbol <;> simp [hs, hs', Symbol.kindName] at hkind
    rfl

/-- Where the tokens end without a stray character and there are none, all is layout. -/
theorem Lexes.isLayout_of_nil {p q : Nat} {cs : List Char} (h : Lexes p cs [] (.finish q)) {c : Char} (hc : c ∈ cs) :
    Text.isLayout c = true := by
  generalize hts : ([] : List Token) = ts at h
  generalize he : Ending.finish q = e at h
  induction h with
  | finish => cases hc
  | stray => cases he
  | layout hl _ ih =>
    rcases List.mem_cons.mp hc with rfl | hc
    · exact hl
    · exact ih hc hts he
  | mark | word => cases hts

namespace Requirement

/-! ### Agreement up to places -/

section
variable {R : Nat → Nat → Prop}

/-- The waiting operators have the same left operand and stand at related places. -/
structure Pending.Alike (R : Nat → Nat → Prop) (p q : Pending) : Prop where
  left : p.left = q.left
  position : R p.position q.position

structure Level.Alike (R : Nat → Nat → Prop) (l m : Level) : Prop where
  either : Option.Rel (Pending.Alike R) l.either m.either
  both : Option.Rel (Pending.Alike R) l.both m.both

/-- The levels are interrupted at related places and alike, one by one. -/
abbrev Outer.Alike (R : Nat → Nat → Prop) : Outer → Outer → Prop :=
  List.Forall₂ fun o u => R o.1 u.1 ∧ Level.Alike R o.2 u.2

/-- The readers are the same but for the places that they remember, which are related. -/
inductive Reader.Alike (R : Nat → Nat → Prop) : Reader → Reader → Prop
  | wanting {l m : Level} {o u : Outer} : Level.Alike R l m → Outer.Alike R o u → Alike R (.wanting l o) (.wanting m u)
  | holding (operand : Requirement) {l m : Level} {o u : Outer} :
    Level.Alike R l m → Outer.Alike R o u → Alike R (.holding operand l o) (.holding operand m u)

/-- Either both computations succeed, with related results, or both fail, with the same message at related places. -/
inductive Agree {α : Type} (R : Nat → Nat → Prop) (S : α → α → Prop) :
    Except SyntaxError α → Except SyntaxError α → Prop
  | ok {a b : α} : S a b → Agree R S (.ok a) (.ok b)
  | error {e f : SyntaxError} : e.message = f.message → R e.position f.position → Agree R S (.error e) (.error f)

theorem Agree.bind {α β : Type} {S : α → α → Prop} {T : β → β → Prop} {x y : Except SyntaxError α}
    {f g : α → Except SyntaxError β} (h : Agree R S x y) (hfg : ∀ a b, S a b → Agree R T (f a) (g b)) :
    Agree R T (x >>= f) (y >>= g) := by
  cases h with
  | ok h => exact hfg _ _ h
  | error hm hp => exact .error hm hp

theorem Level.Alike.fresh : Level.Alike R .fresh .fresh := ⟨.none, .none⟩

/-! ### Steps -/

theorem join_alike (op : Requirement → Requirement → Requirement) (operand : Requirement) {p q : Option Pending}
    (h : Option.Rel (Pending.Alike R) p q) : Agree R Eq (join op operand p) (join op operand q) := by
  cases h with
  | none => exact .ok rfl
  | @some p q h =>
    unfold join
    dsimp only
    rw [h.left]
    split
    · exact .error rfl h.position
    · exact .ok rfl

namespace Reader
variable {r t : Reader} {p q : Nat}

theorem Alike.settle (h : Alike R r t) : Agree R (Alike R) r.settle t.settle := by
  cases h with
  | wanting hl ho =>
    cases ho with
    | nil => exact .ok (.wanting hl .nil)
    | cons hfirst ho =>
      unfold Reader.settle
      dsimp only
      rw [ho.length_eq]
      split
      · exact .error rfl hfirst.1
      · exact .ok (.wanting hl (.cons hfirst ho))
  | holding operand hl ho =>
    refine (join_alike .both operand hl.both).bind ?_
    rintro x _ rfl
    exact .ok (.holding x ⟨hl.either, .none⟩ ho)

/-- A symbol is taken or refused wherever it stands. -/
theorem Alike.shift (h : Alike R r t) (s : Symbol) (hp : R p q) : Agree R (Alike R) (r.shift s p) (t.shift s q) := by
  cases h with
  | wanting hl ho =>
    cases s with
    | nothing => exact .ok (.holding _ hl ho)
    | id name => exact .ok (.holding _ hl ho)
    | opening => exact .ok (.wanting .fresh (.cons ⟨hp, hl⟩ ho))
    | and | or | closing => exact .error rfl hp
  | holding operand hl ho =>
    have hjoin := join_alike .either operand hl.either
    cases s with
    | and => exact .ok (.wanting ⟨hl.either, .some ⟨rfl, hp⟩⟩ ho)
    | or =>
      refine hjoin.bind ?_
      rintro x _ rfl
      exact .ok (.wanting ⟨.some ⟨rfl, hp⟩, .none⟩ ho)
    | closing =>
      refine hjoin.bind ?_
      rintro x _ rfl
      cases ho with
      | nil => exact .error rfl hp
      | cons hfirst ho => exact .ok (.holding x hfirst.2 ho)
    | nothing | id | opening =>
      refine hjoin.bind ?_
      rintro x _ rfl
      exact .error rfl hp

theorem Alike.finish (h : Alike R r t) (hp : R p q) : Agree R Eq (r.finish p) (t.finish q) := by
  cases h with
  | wanting => exact .error rfl hp
  | holding operand hl ho =>
    refine (join_alike .either operand hl.either).bind ?_
    rintro x _ rfl
    cases ho with
    | nil => exact .ok rfl
    | cons => exact .error rfl hp

/-! ### Runs -/

/-- Readers that are alike, given the same symbols at related places, end alike. -/
theorem Alike.run (hp : R p q) {ts us : List Token}
    (hts : List.Forall₂ (fun a b => a.symbol = b.symbol ∧ R a.start b.start) ts us) (h : Alike R r t) :
    Agree R Eq (r.run (.finish p) ts) (t.run (.finish q) us) := by
  induction hts generalizing r t with
  | nil => exact h.settle.bind fun _ _ h => h.finish hp
  | @cons a b ts us hab _ ih =>
    obtain ⟨hsymbol, hstart⟩ := hab
    refine h.settle.bind fun _ _ h => Agree.bind ?_ fun _ _ h => ih h
    rw [hsymbol]
    exact h.shift b.symbol hstart

end Reader
end

/-! ### Texts -/

/-- The places of the tokens of a text, and of its end last. -/
def places (s : String) : List Nat := (Scan.ofText s).tokens.map Token.start ++ [s.length]

theorem getElem?_places {s : String} {k : Nat} (hk : k < (Scan.ofText s).tokens.length) :
    (places s)[k]? = some (Scan.ofText s).tokens[k].start := by
  rw [places, List.getElem?_append_left (by rwa [List.length_map]), List.getElem?_map, List.getElem?_eq_getElem hk,
    Option.map_some]

theorem getElem?_places_length (s : String) : (places s)[(Scan.ofText s).tokens.length]? = some s.length := by
  rw [places, ← List.length_map Token.start, List.getElem?_concat_length]

/-- The places are those of the same token in either text, the end being the last. -/
def SamePlace (s s' : String) (p q : Nat) : Prop := ∃ k : Nat, (places s)[k]? = some p ∧ (places s')[k]? = some q

/-- Neither text has a stray character, and their tokens are alike, one by one. -/
structure Restyles (s s' : String) : Prop where
  lexed : ∃ p, (Scan.ofText s).ending = .finish p
  lexed' : ∃ p, (Scan.ofText s').ending = .finish p
  tokens : List.Forall₂ Token.Alike (Scan.ofText s).tokens (Scan.ofText s').tokens

theorem ending_eq_length {s : String} (h : ∃ p, (Scan.ofText s).ending = .finish p) :
    (Scan.ofText s).ending = .finish s.length := by
  obtain ⟨p, hp⟩ := h
  have hlex := Lexes.of_scan s
  rw [hp] at hlex
  have hlength := hlex.position_of_finish
  rw [Nat.zero_add, String.length_toList] at hlength
  rw [hp, hlength]

/-- Without stray characters, a text is blank just if it has no tokens. -/
theorem isBlankText_eq_isEmpty {s : String} (h : ∃ p, (Scan.ofText s).ending = .finish p) :
    isBlankText s = (Scan.ofText s).tokens.isEmpty := by
  obtain ⟨p, hp⟩ := h
  have hlex := Lexes.of_scan s
  rw [Bool.eq_iff_iff, isBlankText, List.all_eq_true, List.isEmpty_iff]
  constructor
  · exact hlex.eq_nil_of_layout
  · intro hnil c hc
    rw [hp, hnil] at hlex
    exact hlex.isLayout_of_nil hc

namespace Restyles
variable {s s' : String}

theorem isBlankText_eq (h : Restyles s s') : isBlankText s = isBlankText s' := by
  rw [isBlankText_eq_isEmpty h.lexed, isBlankText_eq_isEmpty h.lexed', Bool.eq_iff_iff, List.isEmpty_iff_length_eq_zero,
    List.isEmpty_iff_length_eq_zero, h.tokens.length_eq]

theorem samePlace_length (h : Restyles s s') : SamePlace s s' s.length s'.length :=
  ⟨(Scan.ofText s).tokens.length, getElem?_places_length s, h.tokens.length_eq ▸ getElem?_places_length s'⟩

/-- The tokens have the same symbols at the same places. -/
theorem symbols_and_places (h : Restyles s s') :
    List.Forall₂ (fun a b => a.symbol = b.symbol ∧ SamePlace s s' a.start b.start) (Scan.ofText s).tokens
      (Scan.ofText s').tokens := by
  refine List.forall₂_iff_get.mpr ⟨h.tokens.length_eq, fun k hk hk' => ⟨?_, k, ?_, ?_⟩⟩
  · have halike := (List.forall₂_iff_get.mp h.tokens).2 k hk hk'
    exact halike.symbol_eq (fun _ => (Lexes.of_scan s).lexeme_of_mem (List.get_mem _ _))
      fun _ => (Lexes.of_scan s').lexeme_of_mem (List.get_mem _ _)
  · exact getElem?_places hk
  · exact getElem?_places hk'

end Restyles

/-- Layout and the case of keywords do not matter. Two texts without stray characters whose tokens are alike either
    write the same requirement or are both refused, with the same message and at the start of the same token. -/
theorem parse_of_restyles {s s' : String} (h : Restyles s s') :
    (∃ r, parse s = .ok r ∧ parse s' = .ok r) ∨
    ∃ e e', parse s = .error e ∧ parse s' = .error e' ∧ e.message = e'.message ∧
      SamePlace s s' e.position e'.position := by
  unfold parse
  rw [← h.isBlankText_eq]
  cases isBlankText s with
  | true => exact .inl ⟨.nothing, rfl, rfl⟩
  | false =>
    have hrun := Reader.Alike.run h.samePlace_length h.symbols_and_places (.wanting .fresh .nil)
    rw [← ending_eq_length h.lexed, ← ending_eq_length h.lexed'] at hrun
    dsimp only [ofScan, Reader.start]
    generalize Reader.run (Scan.ofText s).ending _ _ = x at hrun
    generalize Reader.run (Scan.ofText s').ending _ _ = y at hrun
    cases hrun with
    | ok heq => exact .inl ⟨_, rfl, heq ▸ rfl⟩
    | error hmessage hplace => exact .inr ⟨_, _, rfl, rfl, hmessage, hplace⟩

/-- The parenthesis is refused in both styles. -/
theorem parse_of_restyles_operand_missing : Restyles "A AND )" "A\n  and\t)" ∧
    ∃ e e', parse "A AND )" = .error e ∧ parse "A\n  and\t)" = .error e' ∧ e.message = e'.message ∧
      SamePlace "A AND )" "A\n  and\t)" e.position e'.position := by
  have hscan : Scan.ofText "A AND )" = ⟨[⟨.id "A", "A", 0⟩, ⟨.and, "AND", 2⟩, ⟨.closing, ")", 6⟩], .finish 7⟩ := by
    decide +kernel
  have hscan' : Scan.ofText "A\n  and\t)" = ⟨[⟨.id "A", "A", 0⟩, ⟨.and, "and", 4⟩, ⟨.closing, ")", 8⟩], .finish 9⟩ := by
    decide +kernel
  have h : Restyles "A AND )" "A\n  and\t)" := by
    refine ⟨⟨7, by rw [hscan]⟩, ⟨9, by rw [hscan']⟩, ?_⟩
    rw [hscan, hscan']
    exact .cons ⟨rfl, fun _ => rfl⟩ (.cons ⟨rfl, nofun⟩ (.cons ⟨rfl, nofun⟩ .nil))
  refine ⟨h, (parse_of_restyles h).resolve_left ?_⟩
  rintro ⟨r, hr, -⟩
  rw [parse, hscan] at hr
  cases hr

end Requirement
end Curriculum
