/-! Maps from texts that remember the order in which their keys came. A key that comes again keeps its
    first place and takes the last value. -/

namespace Curriculum

universe u v

/-! ### Lists of pairs -/

namespace Entries

/-- The pairs with one more: where the key is there already, its value is replaced. -/
def put {α : Type u} (key : String) (value : α) : List (String × α) → List (String × α)
  | [] => [(key, value)]
  | (k, v) :: rest => if k = key then (key, value) :: rest else (k, v) :: put key value rest

theorem keys_put {α : Type u} (key : String) (value : α) (entries : List (String × α)) :
    (put key value entries).map Prod.fst =
      if key ∈ entries.map Prod.fst then entries.map Prod.fst else entries.map Prod.fst ++ [key] := by
  induction entries with
  | nil => simp [put]
  | cons e rest ih =>
    obtain ⟨k, v⟩ := e
    by_cases h : k = key
    · simp [put, h]
    · have h' : ¬ key = k := fun e => h e.symm
      simp only [put, h, if_false, List.map_cons, ih, List.mem_cons, h', false_or]
      split <;> simp

theorem nodup_put {α : Type u} {entries : List (String × α)} (h : (entries.map Prod.fst).Nodup) (key : String)
    (value : α) : ((put key value entries).map Prod.fst).Nodup := by
  rw [keys_put]
  split
  · exact h
  · next hk =>
    refine List.nodup_append.mpr ⟨h, by simp, ?_⟩
    rintro a ha b hb rfl
    simp only [List.mem_singleton] at hb
    exact hk (hb ▸ ha)

theorem lookup_cons {α : Type u} (key other : String) (value : α) (entries : List (String × α)) :
    ((key, value) :: entries).lookup other = if other = key then some value else entries.lookup other := by
  by_cases h : other = key
  · simp [h]
  · rw [List.lookup_cons, beq_eq_false_iff_ne.mpr h, if_neg h]

/-- Where no key comes twice, the order of the pairs does not matter. -/
theorem lookup_eq_of_perm {α : Type u} {entries others : List (String × α)} (h : entries.Perm others)
    (hd : (entries.map Prod.fst).Nodup) (key : String) : entries.lookup key = others.lookup key := by
  induction h with
  | nil => rfl
  | cons e _ ih =>
    obtain ⟨k, v⟩ := e
    rw [lookup_cons, lookup_cons, ih (List.nodup_cons.mp hd).2]
  | swap e f rest =>
    obtain ⟨k, v⟩ := e
    obtain ⟨l, w⟩ := f
    have hne : l ≠ k := fun heq => (List.nodup_cons.mp hd).1 (heq ▸ List.mem_cons_self ..)
    by_cases hkey : key = l
    · subst hkey
      simp [lookup_cons, hne]
    · simp [lookup_cons, hkey]
  | trans h _ ih ih' => exact (ih hd).trans (ih' ((h.map _).nodup_iff.mp hd))

theorem lookup_put {α : Type u} (key other : String) (value : α) (entries : List (String × α)) :
    (put key value entries).lookup other = if other = key then some value else entries.lookup other := by
  induction entries with
  | nil => simp [put, lookup_cons]
  | cons e rest ih =>
    obtain ⟨k, v⟩ := e
    by_cases h : k = key
    · subst h
      by_cases h' : other = k <;> simp [put, lookup_cons, h']
    · by_cases h' : other = k
      · subst h'
        simp [put, h]
      · simp [put, lookup_cons, h, h', ih]

theorem lookup_eq_some_iff {α : Type u} {entries : List (String × α)} (hd : (entries.map Prod.fst).Nodup) {key : String}
    {value : α} : entries.lookup key = some value ↔ (key, value) ∈ entries := by
  induction entries with
  | nil => simp
  | cons e rest ih =>
    obtain ⟨k, v⟩ := e
    obtain ⟨hk, hrest⟩ := List.nodup_cons.mp hd
    rw [lookup_cons, List.mem_cons, Prod.mk.injEq]
    by_cases h : key = k
    · subst h
      have hnot : (key, value) ∉ rest := fun hmem => hk (List.mem_map.mpr ⟨_, hmem, rfl⟩)
      simp [hnot, eq_comm]
    · simp [h, ih hrest]

end Entries

/-! ### Maps -/

/-- A map in the order of its keys' first insertion. -/
structure OrderedMap (α : Type u) where
  entries : List (String × α)
  nodup_keys : (entries.map Prod.fst).Nodup

namespace OrderedMap

variable {α : Type u} {β : Type v}

def empty : OrderedMap α := ⟨[], by simp⟩

instance : EmptyCollection (OrderedMap α) := ⟨empty⟩

def insert (m : OrderedMap α) (key : String) (value : α) : OrderedMap α :=
  ⟨Entries.put key value m.entries, Entries.nodup_put m.nodup_keys key value⟩

/-- The map of a list of pairs, the earlier ones inserted first. -/
def ofList (pairs : List (String × α)) : OrderedMap α :=
  pairs.foldl (fun m (key, value) => m.insert key value) empty

def keys (m : OrderedMap α) : List String := m.entries.map Prod.fst

def values (m : OrderedMap α) : List α := m.entries.map Prod.snd

def get? (m : OrderedMap α) (key : String) : Option α := m.entries.lookup key

def contains (m : OrderedMap α) (key : String) : Bool := (m.get? key).isSome

/-- The map with every value replaced by a function of it. -/
def mapValues (f : α → β) (m : OrderedMap α) : OrderedMap β :=
  ⟨m.entries.map fun (key, value) => (key, f value), by
    simpa [List.map_map, Function.comp_def] using m.nodup_keys⟩

@[simp] theorem keys_insert (m : OrderedMap α) (key : String) (value : α) :
    (m.insert key value).keys = if key ∈ m.keys then m.keys else m.keys ++ [key] :=
  Entries.keys_put key value m.entries

@[simp] theorem get?_insert (m : OrderedMap α) (key other : String) (value : α) :
    (m.insert key value).get? other = if other = key then some value else m.get? other :=
  Entries.lookup_put key other value m.entries

theorem get?_eq_some_iff {m : OrderedMap α} {key : String} {value : α} :
    m.get? key = some value ↔ (key, value) ∈ m.entries :=
  Entries.lookup_eq_some_iff m.nodup_keys

theorem get?_eq_none_iff {m : OrderedMap α} {key : String} : m.get? key = none ↔ key ∉ m.keys := by
  simp only [get?, keys, List.lookup_eq_none_iff, bne_iff_ne, List.mem_map, not_exists, not_and]
  exact ⟨fun h e he heq => h e he heq.symm, fun h e he heq => h e he heq.symm⟩

theorem mem_keys_iff {m : OrderedMap α} {key : String} : key ∈ m.keys ↔ ∃ value, m.get? key = some value := by
  rw [← Option.ne_none_iff_exists', ne_eq, get?_eq_none_iff, Classical.not_not]

@[simp] theorem get?_empty (key : String) : (∅ : OrderedMap α).get? key = none := rfl

/-- A map in which some keys all have the same value. -/
theorem get?_ofList_const (value : α) (key : String) (keys : List String) :
    (ofList (keys.map fun key => (key, value))).get? key = if key ∈ keys then some value else none := by
  suffices hm : ∀ m : OrderedMap α,
      ((keys.map fun key => (key, value)).foldl (fun m (key, value) => m.insert key value) m).get? key =
        if key ∈ keys then some value else m.get? key from hm empty
  induction keys with
  | nil => exact fun m => by simp
  | cons k keys ih =>
    intro m
    rw [List.map_cons, List.foldl_cons, ih, get?_insert]
    by_cases h : key ∈ keys <;> by_cases h' : key = k <;> simp [h, h']

end OrderedMap
end Curriculum
