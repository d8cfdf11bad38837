/-! A map of bounded size. It keeps its entries in the order in which they were last used; where an entry
    too many comes in, the one that has been unused for longest goes. -/

namespace Curriculum

universe u v

/-- A map with at most `capacity` entries, the least recently used one first. -/
structure Recent (κ : Type u) (α : Type v) where
  capacity : Nat
  entries : List (κ × α)

namespace Recent

variable {κ : Type u} {α : Type v}

/-- The map without entries, for as many as the given size says, but always for one. -/
def ofSize (size : Int) : Recent κ α := ⟨max 1 size.toNat, []⟩

/-- The keys, the least recently used one first. -/
def keys (m : Recent κ α) : List κ := m.entries.map Prod.fst

def size (m : Recent κ α) : Nat := m.entries.length

def clear (m : Recent κ α) : Recent κ α := { m with entries := [] }

variable [DecidableEq κ]

def others (key : κ) (entries : List (κ × α)) : List (κ × α) :=
  entries.filter fun e => e.1 ≠ key

/-- The value at a key, which counts as a use of the key. -/
def get (m : Recent κ α) (key : κ) : Option α × Recent κ α :=
  match m.entries.find? fun e => e.1 = key with
  | some (_, value) => (some value, { m with entries := others key m.entries ++ [(key, value)] })
  | none => (none, m)

/-- The map with a key bound to a value, within the capacity. -/
def set (m : Recent κ α) (key : κ) (value : α) : Recent κ α :=
  let entries := others key m.entries ++ [(key, value)]
  { m with entries := entries.drop (entries.length - m.capacity) }

def erase (m : Recent κ α) (key : κ) : Recent κ α :=
  { m with entries := others key m.entries }

/-! ### Size -/

theorem length_others_lt {key : κ} {entries : List (κ × α)} {e : κ × α} (he : e ∈ entries) (hkey : e.1 = key) :
    (others key entries).length < entries.length := by
  refine List.length_filter_lt_length_iff_exists.mpr ⟨e, he, ?_⟩
  simp [hkey]

theorem size_get_le (m : Recent κ α) (key : κ) : (m.get key).2.size ≤ m.size := by
  unfold get
  split
  · next value hfind =>
    have hlt := length_others_lt (List.mem_of_find?_eq_some hfind) (by simpa using List.find?_some hfind)
    simp only [size, List.length_append, List.length_singleton]
    omega
  · exact Nat.le_refl _

theorem get_eq_of_none {m : Recent κ α} {key : κ} (h : (m.get key).1 = none) : (m.get key).2 = m := by
  unfold get at h ⊢
  split at h
  · cases h
  · rfl

theorem size_set_le (m : Recent κ α) (key : κ) (value : α) : (m.set key value).size ≤ m.capacity := by
  simp only [set, size, List.length_drop]
  omega

theorem size_erase_le (m : Recent κ α) (key : κ) : (m.erase key).size ≤ m.size :=
  List.length_filter_le ..

theorem capacity_get (m : Recent κ α) (key : κ) : (m.get key).2.capacity = m.capacity := by
  unfold get
  split <;> rfl

end Recent
end Curriculum
