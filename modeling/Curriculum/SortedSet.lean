/-! Finite sets as strictly increasing lists. A set has one such list, so two sets with the same members
    are equal, and a set is shown as it is kept. -/

namespace Curriculum

universe u v

/-- The order is strict and linear. -/
class StrictOrder (α : Type u) [LT α] : Prop where
  lt_irrefl (a : α) : ¬a < a
  lt_trans {a b c : α} : a < b → b < c → a < c
  eq_of_not_lt {a b : α} : ¬a < b → ¬b < a → a = b

/-- Texts are ordered by their characters' code points. -/
instance : StrictOrder String where
  lt_irrefl := String.lt_irrefl
  lt_trans := String.lt_trans
  eq_of_not_lt h h' := String.le_antisymm h' h

/-! ### Lists -/

section
variable {α : Type u} [LT α] [DecidableLT α]

/-- The increasing list with one more member. -/
def insertSorted (a : α) : List α → List α
  | [] => [a]
  | b :: rest => if a < b then a :: b :: rest else if b < a then b :: insertSorted a rest else b :: rest

variable [StrictOrder α]

theorem mem_insertSorted {a x : α} : ∀ {l : List α}, x ∈ insertSorted a l ↔ x = a ∨ x ∈ l
  | [] => by simp [insertSorted]
  | b :: rest => by
    unfold insertSorted
    split
    · simp
    · next h =>
      split
      · simp only [List.mem_cons, mem_insertSorted]
        exact ⟨fun | .inl e => .inr (.inl e) | .inr (.inl e) => .inl e | .inr (.inr e) => .inr (.inr e),
          fun | .inl e => .inr (.inl e) | .inr (.inl e) => .inl e | .inr (.inr e) => .inr (.inr e)⟩
      · next h' =>
        have e : a = b := StrictOrder.eq_of_not_lt h h'
        simp [e]

theorem pairwise_insertSorted {a : α} : ∀ {l : List α}, l.Pairwise (· < ·) → (insertSorted a l).Pairwise (· < ·)
  | [], _ => by simp [insertSorted]
  | b :: rest, hl => by
    obtain ⟨hb, hrest⟩ := List.pairwise_cons.mp hl
    unfold insertSorted
    split
    · next h =>
      refine List.pairwise_cons.mpr ⟨fun x hx => ?_, hl⟩
      rcases List.mem_cons.mp hx with rfl | hx
      · exact h
      · exact StrictOrder.lt_trans h (hb x hx)
    · split
      · next h' =>
        refine List.pairwise_cons.mpr ⟨fun x hx => ?_, pairwise_insertSorted hrest⟩
        rcases mem_insertSorted.mp hx with rfl | hx
        · exact h'
        · exact hb x hx
      · exact hl

omit [DecidableLT α] in
/-- A strictly increasing list is determined by its members. -/
theorem eq_of_pairwise_lt : ∀ {l k : List α}, l.Pairwise (· < ·) → k.Pairwise (· < ·) →
    (∀ x, x ∈ l ↔ x ∈ k) → l = k
  | [], [], _, _, _ => rfl
  | [], b :: k, _, _, h => absurd ((h b).mpr (List.mem_cons_self ..)) (List.not_mem_nil)
  | a :: l, [], _, _, h => absurd ((h a).mp (List.mem_cons_self ..)) (List.not_mem_nil)
  | a :: l, b :: k, hl, hk, h => by
    obtain ⟨ha, hl'⟩ := List.pairwise_cons.mp hl
    obtain ⟨hb, hk'⟩ := List.pairwise_cons.mp hk
    have hab : a = b := by
      rcases List.mem_cons.mp ((h a).mp (List.mem_cons_self ..)) with e | hak
      · exact e
      rcases List.mem_cons.mp ((h b).mpr (List.mem_cons_self ..)) with e | hbl
      · exact e.symm
      exact absurd (StrictOrder.lt_trans (ha b hbl) (hb a hak)) (StrictOrder.lt_irrefl a)
    subst hab
    refine congrArg (a :: ·) (eq_of_pairwise_lt hl' hk' fun x => ⟨fun hx => ?_, fun hx => ?_⟩)
    · rcases List.mem_cons.mp ((h x).mp (List.mem_cons_of_mem _ hx)) with rfl | hx'
      · exact absurd (ha x hx) (StrictOrder.lt_irrefl x)
      · exact hx'
    · rcases List.mem_cons.mp ((h x).mpr (List.mem_cons_of_mem _ hx)) with rfl | hx'
      · exact absurd (hb x hx) (StrictOrder.lt_irrefl x)
      · exact hx'

end

/-! ### Sets -/

/-- A finite set, kept as its members in increasing order. -/
structure SortedSet (α : Type u) [LT α] where
  toList : List α
  increasing : toList.Pairwise (· < ·)

namespace SortedSet

variable {α : Type u} [LT α]

instance [DecidableEq α] : DecidableEq (SortedSet α) := fun s t =>
  decidable_of_iff (s.toList = t.toList)
    ⟨fun h => by cases s; cases t; simp at h; subst h; rfl, fun h => h ▸ rfl⟩

instance : Membership α (SortedSet α) := ⟨fun s a => a ∈ s.toList⟩

instance [DecidableEq α] (a : α) (s : SortedSet α) : Decidable (a ∈ s) :=
  inferInstanceAs (Decidable (a ∈ s.toList))

instance : EmptyCollection (SortedSet α) := ⟨⟨[], .nil⟩⟩

instance : Inhabited (SortedSet α) := ⟨∅⟩

def isEmpty (s : SortedSet α) : Bool := s.toList.isEmpty

def singleton (a : α) : SortedSet α := ⟨[a], List.pairwise_singleton _ a⟩

def filter (p : α → Bool) (s : SortedSet α) : SortedSet α :=
  ⟨s.toList.filter p, s.increasing.filter p⟩

def inter [DecidableEq α] (s t : SortedSet α) : SortedSet α := s.filter (· ∈ t)

def diff [DecidableEq α] (s t : SortedSet α) : SortedSet α := s.filter (· ∉ t)

section
variable [DecidableLT α] [StrictOrder α]

def insert (s : SortedSet α) (a : α) : SortedSet α :=
  ⟨insertSorted a s.toList, pairwise_insertSorted s.increasing⟩

def ofList (l : List α) : SortedSet α := l.foldr (fun a s => s.insert a) ∅

def union (s t : SortedSet α) : SortedSet α := s.toList.foldr (fun a t => t.insert a) t

end

instance [DecidableLT α] [StrictOrder α] : Union (SortedSet α) := ⟨union⟩
instance [DecidableEq α] : Inter (SortedSet α) := ⟨inter⟩
instance [DecidableEq α] : SDiff (SortedSet α) := ⟨diff⟩

/-! ### Members -/

@[simp] theorem mem_toList {s : SortedSet α} {a : α} : a ∈ s.toList ↔ a ∈ s := Iff.rfl

@[simp] theorem not_mem_empty {a : α} : a ∉ (∅ : SortedSet α) := List.not_mem_nil

@[simp] theorem mem_singleton {a x : α} : x ∈ singleton a ↔ x = a := List.mem_singleton

@[simp] theorem mem_filter {p : α → Bool} {s : SortedSet α} {x : α} : x ∈ s.filter p ↔ x ∈ s ∧ p x = true :=
  List.mem_filter

@[simp] theorem mem_inter [DecidableEq α] {s t : SortedSet α} {x : α} : x ∈ s ∩ t ↔ x ∈ s ∧ x ∈ t := by
  simp [Inter.inter, inter]

@[simp] theorem mem_sdiff [DecidableEq α] {s t : SortedSet α} {x : α} : x ∈ s \ t ↔ x ∈ s ∧ x ∉ t := by
  simp [SDiff.sdiff, diff]

@[simp] theorem mem_insert [DecidableLT α] [StrictOrder α] {s : SortedSet α} {a x : α} :
    x ∈ s.insert a ↔ x = a ∨ x ∈ s :=
  mem_insertSorted

@[simp] theorem mem_ofList [DecidableLT α] [StrictOrder α] {l : List α} {x : α} : x ∈ ofList l ↔ x ∈ l := by
  induction l with
  | nil => exact ⟨fun h => absurd h not_mem_empty, fun h => absurd h List.not_mem_nil⟩
  | cons a l ih =>
    have : ofList (a :: l) = (ofList l).insert a := rfl
    rw [this, mem_insert, ih, List.mem_cons]

@[simp] theorem mem_union [DecidableLT α] [StrictOrder α] {s t : SortedSet α} {x : α} :
    x ∈ s ∪ t ↔ x ∈ s ∨ x ∈ t := by
  show x ∈ s.toList.foldr (fun a t => t.insert a) t ↔ x ∈ s.toList ∨ x ∈ t
  induction s.toList with
  | nil => simp
  | cons a l ih => rw [List.foldr_cons, mem_insert, ih, List.mem_cons, or_assoc]

theorem forall_mem_union [DecidableLT α] [StrictOrder α] {s t : SortedSet α} {p : α → Prop} :
    (∀ x ∈ s ∪ t, p x) ↔ (∀ x ∈ s, p x) ∧ ∀ x ∈ t, p x := by
  simp only [mem_union, or_imp, forall_and]

theorem ext [StrictOrder α] {s t : SortedSet α} (h : ∀ x, x ∈ s ↔ x ∈ t) : s = t := by
  obtain ⟨l, hl⟩ := s
  obtain ⟨k, hk⟩ := t
  obtain rfl : l = k := eq_of_pairwise_lt hl hk h
  rfl

theorem nodup [StrictOrder α] (s : SortedSet α) : s.toList.Nodup :=
  s.increasing.imp fun {a b} (h : a < b) (heq : a = b) => StrictOrder.lt_irrefl b (heq ▸ h)

section
variable [DecidableLT α] [StrictOrder α]

theorem union_comm (s t : SortedSet α) : s ∪ t = t ∪ s :=
  ext fun _ => by simp only [mem_union, or_comm]

theorem union_assoc (s t u : SortedSet α) : s ∪ t ∪ u = s ∪ (t ∪ u) :=
  ext fun _ => by simp only [mem_union, or_assoc]

@[simp] theorem union_self (s : SortedSet α) : s ∪ s = s :=
  ext fun _ => by simp only [mem_union, or_self]

@[simp] theorem union_empty (s : SortedSet α) : s ∪ ∅ = s :=
  ext fun _ => by simp only [mem_union, not_mem_empty, or_false]

theorem union_eq_left {s t : SortedSet α} (h : ∀ x ∈ t, x ∈ s) : s ∪ t = s :=
  ext fun x => by
    rw [mem_union]
    exact ⟨fun hx => hx.elim id (h x), Or.inl⟩

/-- What has been added to a set is left when the set is taken away. -/
theorem union_sdiff_cancel_left [DecidableEq α] {s t : SortedSet α} (h : ∀ x ∈ t, x ∉ s) : (s ∪ t) \ s = t :=
  ext fun x => by
    rw [mem_sdiff, mem_union]
    exact ⟨fun ⟨hx, hs⟩ => hx.resolve_left hs, fun hx => ⟨Or.inr hx, h x hx⟩⟩

end

theorem isEmpty_iff {s : SortedSet α} : s.isEmpty = true ↔ s = ∅ := by
  obtain ⟨l, hl⟩ := s
  cases l with
  | nil => exact ⟨fun _ => rfl, fun _ => rfl⟩
  | cons a l =>
    refine ⟨fun h => ?_, fun h => ?_⟩
    · cases h
    · cases h

theorem isEmpty_iff_forall {s : SortedSet α} : s.isEmpty = true ↔ ∀ a, a ∉ s := by
  rw [isEmpty, List.isEmpty_iff, List.eq_nil_iff_forall_not_mem]
  rfl

/-! ### Order -/

/-- Sets are compared member by member, and a set is below the sets that continue it. -/
instance : LT (SortedSet α) := ⟨fun s t => s.toList < t.toList⟩

instance [DecidableEq α] [DecidableLT α] : DecidableLT (SortedSet α) := fun s t =>
  inferInstanceAs (Decidable (s.toList < t.toList))

end SortedSet

abbrev IdSet := SortedSet String

instance : StrictOrder IdSet where
  lt_irrefl s := List.lt_irrefl s.toList
  lt_trans h h' := List.lt_trans h h'
  eq_of_not_lt {s t} h h' := by
    have e : s.toList = t.toList := List.le_antisymm (List.not_lt.mp h') (List.not_lt.mp h)
    obtain ⟨l, hl⟩ := s
    obtain ⟨k, hk⟩ := t
    cases e
    rfl

end Curriculum
