import Mathlib.Data.Finset.Card
import Mathlib.Data.List.Dedup
import Mathlib.Data.List.DropRight
import Curriculum.Recent

/-! What a map of bounded size still holds after any use of it. A key is touched where it is set, or where its value is
    asked for and found. Behind a key in the map stand only keys that were touched after it, so a key goes only once as
    many others have been touched as there is room for. As long as nothing is erased, the keys are the ones touched
    last, in the order of their last touch. -/

namespace Curriculum.Recent

universe u v

/-! ### Uses -/

/-- What can be done to a map. -/
inductive Use (κ : Type u) (α : Type v)
  | get (key : κ)
  | set (key : κ) (value : α)
  | erase (key : κ)
  | clear

variable {κ : Type u} {α : Type v}

/-- The last time that the key was set it was set to the value. -/
def LastSet (key : κ) (value : α) (uses : List (Use κ α)) : Prop :=
  ∃ earlier later, uses = earlier ++ .set key value :: later ∧ ∀ other, .set key other ∉ later

theorem LastSet.concat {key : κ} {value : α} {uses : List (Use κ α)} (h : LastSet key value uses) {use : Use κ α}
    (hother : ∀ other, use ≠ .set key other) : LastSet key value (uses ++ [use]) := by
  obtain ⟨earlier, later, rfl, hlast⟩ := h
  refine ⟨earlier, later ++ [use], by simp, fun other hmem => ?_⟩
  rcases List.mem_append.mp hmem with hmem | hmem
  · exact hlast other hmem
  · exact hother other (List.mem_singleton.mp hmem).symm

variable [DecidableEq κ]

/-- The use takes the key out if it is there. -/
def Use.removes (use : Use κ α) (key : κ) : Bool :=
  match use with
  | .erase k => k = key
  | .clear => true
  | .get _ | .set .. => false

/-- The map after a use. -/
def after (m : Recent κ α) : Use κ α → Recent κ α
  | .get key => (m.get key).2
  | .set key value => m.set key value
  | .erase key => m.erase key
  | .clear => m.clear

/-- The key that a use of the map touches. -/
def touched? (m : Recent κ α) : Use κ α → Option κ
  | .get key => (m.get key).1.map fun _ => key
  | .set key _ => some key
  | .erase _ | .clear => none

def run (m : Recent κ α) (uses : List (Use κ α)) : Recent κ α := uses.foldl after m

/-- The keys that are touched, one after another. -/
def touches (m : Recent κ α) : List (Use κ α) → List κ
  | [] => []
  | use :: uses => (m.touched? use).toList ++ (m.after use).touches uses

/-- The map for as many entries as the size says, after some uses. -/
def ofUses (size : Int) (uses : List (Use κ α)) : Recent κ α := (ofSize size).run uses

theorem run_append (m : Recent κ α) (uses others : List (Use κ α)) : m.run (uses ++ others) = (m.run uses).run others :=
  List.foldl_append ..

theorem touches_append (m : Recent κ α) (uses others : List (Use κ α)) :
    m.touches (uses ++ others) = m.touches uses ++ (m.run uses).touches others := by
  induction uses generalizing m with
  | nil => rfl
  | cons use uses ih =>
    rw [List.cons_append, touches, touches, ih, List.append_assoc]
    rfl

theorem ofUses_concat (size : Int) (uses : List (Use κ α)) (use : Use κ α) :
    ofUses size (uses ++ [use]) = (ofUses size uses).after use := List.foldl_append ..

theorem touches_concat (size : Int) (uses : List (Use κ α)) (use : Use κ α) :
    (ofSize size).touches (uses ++ [use]) = (ofSize size).touches uses ++ ((ofUses size uses).touched? use).toList := by
  rw [touches_append, touches, touches, List.append_nil, ofUses]

/-! ### One use -/

/-- The keys with the given one at the end. -/
def toEnd (key : κ) (keys : List κ) : List κ := keys.filter (· ≠ key) ++ [key]

theorem mem_toEnd {key k : κ} {keys : List κ} : k ∈ toEnd key keys ↔ k ∈ keys ∨ k = key := by
  by_cases h : k = key <;> simp [toEnd, h]

theorem nodup_toEnd {keys : List κ} (h : keys.Nodup) (key : κ) : (toEnd key keys).Nodup := by
  refine List.nodup_append.mpr ⟨h.filter _, List.nodup_singleton key, ?_⟩
  rintro a ha b hb rfl
  rw [List.mem_singleton.mp hb] at ha
  simp at ha

theorem length_toEnd_of_mem {keys : List κ} (h : keys.Nodup) {key : κ} (hkey : key ∈ keys) :
    (toEnd key keys).length = keys.length := by
  have hperm : (toEnd key keys).Perm keys :=
    (List.perm_ext_iff_of_nodup (nodup_toEnd h key) h).mpr fun k => by
      rw [mem_toEnd]
      exact or_iff_left_of_imp fun hk => hk ▸ hkey
  exact hperm.length_eq

theorem length_le_length_toEnd {keys : List κ} (h : keys.Nodup) (key : κ) : keys.length ≤ (toEnd key keys).length :=
  (h.subperm fun _ hk => mem_toEnd.mpr (.inl hk)).length_le

section
variable (m : Recent κ α) (key : κ)

theorem keys_others (entries : List (κ × α)) : (others key entries).map Prod.fst = (entries.map Prod.fst).filter (· ≠ key) := by
  rw [others, List.filter_map]
  rfl

theorem keys_put (entries : List (κ × α)) (value : α) :
    (others key entries ++ [(key, value)]).map Prod.fst = toEnd key (entries.map Prod.fst) := by
  rw [List.map_append, keys_others]
  rfl

theorem keys_set (value : α) : (m.set key value).keys = (toEnd key m.keys).rtake m.capacity := by
  rw [keys, set, List.map_drop, keys_put, List.rtake, ← List.length_map Prod.fst, keys_put]
  rfl

theorem keys_erase : (m.erase key).keys = m.keys.filter (· ≠ key) := keys_others ..

variable {m key}

theorem get_of_mem (h : key ∈ m.keys) :
    ∃ value, (key, value) ∈ m.entries ∧
      m.get key = (some value, { m with entries := others key m.entries ++ [(key, value)] }) := by
  obtain ⟨e, he, hkey⟩ := List.mem_map.mp h
  unfold get
  cases hfind : m.entries.find? fun e => e.1 = key with
  | none => simpa [hkey] using List.find?_eq_none.mp hfind e he
  | some found =>
    obtain ⟨k, value⟩ := found
    obtain rfl : k = key := by simpa using List.find?_some hfind
    exact ⟨value, List.mem_of_find?_eq_some hfind, rfl⟩

theorem get_of_not_mem (h : key ∉ m.keys) : m.get key = (none, m) := by
  unfold get
  cases hfind : m.entries.find? fun e => e.1 = key with
  | none => rfl
  | some found =>
    have hkey : found.1 = key := by simpa using List.find?_some hfind
    exact absurd (hkey ▸ List.mem_map_of_mem (List.mem_of_find?_eq_some hfind)) h

end

/-- No key comes twice, and there are no more keys than there is room for; there is room for one. -/
structure Tidy (m : Recent κ α) : Prop where
  nodup : m.keys.Nodup
  length : m.keys.length ≤ m.capacity
  room : 0 < m.capacity

variable {m : Recent κ α}

/-- What a use does to the keys. A touched key goes to the end, and the first ones make room for it. -/
theorem after_cases (h : m.Tidy) (use : Use κ α) :
    (∃ key, m.touched? use = some key ∧ (m.after use).keys = (toEnd key m.keys).rtake m.capacity) ∨
      (m.touched? use = none ∧ (m.after use).keys = m.keys.filter fun key => !use.removes key) := by
  cases use with
  | get key =>
    by_cases hkey : key ∈ m.keys
    · obtain ⟨value, -, hget⟩ := get_of_mem hkey
      refine .inl ⟨key, by rw [touched?, hget]; rfl, ?_⟩
      -- The key was there already, so nothing has to make room.
      have hfits : (toEnd key m.keys).length - m.capacity = 0 := by
        rw [length_toEnd_of_mem h.nodup hkey]
        exact Nat.sub_eq_zero_of_le h.length
      rw [after, hget, List.rtake, hfits, List.drop_zero, keys, keys_put]
      rfl
    · have hget := get_of_not_mem hkey
      refine .inr ⟨by rw [touched?, hget]; rfl, ?_⟩
      rw [after, hget]
      simp [Use.removes]
  | set key value => exact .inl ⟨key, rfl, keys_set m key value⟩
  | erase key =>
    refine .inr ⟨rfl, (keys_erase m key).trans (List.filter_congr fun k _ => ?_)⟩
    simp [Use.removes, eq_comm]
  | clear => exact .inr ⟨rfl, by simp [Use.removes, after, keys, clear]⟩

theorem capacity_after (m : Recent κ α) (use : Use κ α) : (m.after use).capacity = m.capacity := by
  cases use with
  | get key => exact capacity_get m key
  | set | erase | clear => rfl

theorem capacity_run (m : Recent κ α) (uses : List (Use κ α)) : (m.run uses).capacity = m.capacity := by
  induction uses generalizing m with
  | nil => rfl
  | cons use uses ih => exact (ih (m.after use)).trans (capacity_after m use)

theorem Tidy.after (h : m.Tidy) (use : Use κ α) : (m.after use).Tidy := by
  have hkeys : (m.after use).keys.Nodup ∧ (m.after use).keys.length ≤ m.capacity := by
    rcases after_cases h use with ⟨key, -, hkeys⟩ | ⟨-, hkeys⟩
    · rw [hkeys, List.rtake, List.length_drop]
      exact ⟨(nodup_toEnd h.nodup key).sublist (List.drop_sublist ..), by omega⟩
    · rw [hkeys]
      exact ⟨h.nodup.filter _, Nat.le_trans (List.length_filter_le ..) h.length⟩
  rw [← capacity_after m use] at hkeys
  exact ⟨hkeys.1, hkeys.2, (capacity_after m use).symm ▸ h.room⟩

theorem Tidy.run (h : m.Tidy) (uses : List (Use κ α)) : (m.run uses).Tidy := by
  induction uses generalizing m with
  | nil => exact h
  | cons use uses ih => exact ih (h.after use)

theorem tidy_ofUses (size : Int) (uses : List (Use κ α)) : (ofUses size uses : Recent κ α).Tidy := by
  have hempty : (ofSize size : Recent κ α).Tidy :=
    ⟨List.nodup_nil, Nat.zero_le _, Nat.lt_of_lt_of_le Nat.zero_lt_one (Nat.le_max_left ..)⟩
  exact hempty.run uses

theorem capacity_ofUses (size : Int) (uses : List (Use κ α)) : ((ofUses size uses).capacity : Int) = max 1 size := by
  rw [ofUses, capacity_run]
  show ((max 1 size.toNat : Nat) : Int) = max 1 size
  omega

/-! ### Values -/

/-- An entry is an old one of a key that is not set, or it is set. -/
theorem mem_entries_after {use : Use κ α} {e : κ × α} (he : e ∈ (m.after use).entries) :
    (e ∈ m.entries ∧ ∀ other, use ≠ .set e.1 other) ∨ use = .set e.1 e.2 := by
  cases use with
  | get key =>
    refine .inl ⟨?_, fun _ => nofun⟩
    by_cases hkey : key ∈ m.keys
    · obtain ⟨value, hmem, hget⟩ := get_of_mem hkey
      rw [after, hget] at he
      rcases List.mem_append.mp he with he | he
      · exact (List.mem_filter.mp he).1
      · exact List.mem_singleton.mp he ▸ hmem
    · rwa [after, get_of_not_mem hkey] at he
  | set key value =>
    rcases List.mem_append.mp (List.mem_of_mem_drop he) with he | he
    · obtain ⟨hmem, hne⟩ := List.mem_filter.mp he
      refine .inl ⟨hmem, fun other hset => ?_⟩
      cases hset
      simp at hne
    · exact .inr (by rw [List.mem_singleton.mp he])
  | erase key => exact .inl ⟨(List.mem_filter.mp he).1, fun _ => nofun⟩
  | clear => cases he

theorem lastSet_of_mem_ofUses (size : Int) {uses : List (Use κ α)} {e : κ × α} (he : e ∈ (ofUses size uses).entries) :
    LastSet e.1 e.2 uses := by
  induction uses using List.reverseRecOn with
  | nil => cases he
  | append_singleton uses use ih =>
    rw [ofUses_concat] at he
    rcases mem_entries_after he with ⟨he, hother⟩ | rfl
    · exact (ih he).concat hother
    · exact ⟨uses, [], rfl, fun _ => List.not_mem_nil⟩

/-! ### Keys that stay -/

/-- The key is in the map, and behind it are only keys among the given ones. -/
def Holds (m : Recent κ α) (key : κ) (seen : List κ) : Prop :=
  ∃ back, key :: back <:+ m.keys ∧ back ⊆ seen

omit [DecidableEq κ] in
theorem suffix_rtake {keys back : List κ} {n : Nat} (h : back <:+ keys) (hn : back.length ≤ n) : back <:+ keys.rtake n := by
  refine List.suffix_of_suffix_length_le h (List.drop_suffix ..) ?_
  have := h.length_le
  rw [List.rtake, List.length_drop]
  omega

theorem length_le_card {key : κ} {back seen : List κ} (hd : (key :: back).Nodup) (hs : back ⊆ seen) :
    back.length ≤ (seen.toFinset.erase key).card := by
  obtain ⟨hkey, hback⟩ := List.nodup_cons.mp hd
  rw [← List.toFinset_card_of_nodup hback]
  refine Finset.card_le_card fun k hk => ?_
  rw [List.mem_toFinset] at hk
  exact Finset.mem_erase.mpr ⟨fun he => hkey (he ▸ hk), List.mem_toFinset.mpr (hs hk)⟩

namespace Holds
variable {key : κ} {seen : List κ} {use : Use κ α}

theorem of_touched (h : m.Tidy) (ht : m.touched? use = some key) (seen : List κ) : (m.after use).Holds key seen := by
  rcases after_cases h use with ⟨k, hk, hkeys⟩ | ⟨hnone, -⟩
  · obtain rfl : k = key := Option.some.inj (hk.symm.trans ht)
    refine ⟨[], ?_, List.nil_subset _⟩
    rw [hkeys]
    exact suffix_rtake (List.suffix_append ..) h.room
  · rw [ht] at hnone
    cases hnone

/-- A key stays in its place behind others while fewer of them are touched than there is room for. -/
theorem after (hm : m.Tidy) (h : m.Holds key seen) (hkeep : use.removes key = false)
    (hroom : ((seen ++ (m.touched? use).toList).toFinset.erase key).card < m.capacity) :
    (m.after use).Holds key (seen ++ (m.touched? use).toList) := by
  obtain ⟨back, hback, hseen⟩ := h
  rcases after_cases hm use with ⟨k, hk, hkeys⟩ | ⟨hnone, hkeys⟩
  · by_cases hself : k = key
    · exact of_touched hm (hself ▸ hk) _
    · rw [hk, Option.toList_some] at hroom ⊢
      obtain ⟨front, hfront⟩ := hback
      have hsuffix : key :: (back.filter (· ≠ k) ++ [k]) <:+ toEnd k m.keys :=
        ⟨front.filter (· ≠ k), by simp [toEnd, ← hfront, Ne.symm hself]⟩
      have hsubset : back.filter (· ≠ k) ++ [k] ⊆ seen ++ [k] :=
        List.append_subset.mpr ⟨fun _ hmem => List.mem_append_left _ (hseen (List.mem_of_mem_filter hmem)),
          List.subset_append_right ..⟩
      have hlength := length_le_card ((nodup_toEnd hm.nodup k).sublist hsuffix.sublist) hsubset
      refine ⟨_, ?_, hsubset⟩
      rw [hkeys]
      exact suffix_rtake hsuffix (by simp only [List.length_cons]; omega)
  · have hsuffix := hback.filter fun k => !use.removes k
    rw [List.filter_cons_of_pos (by simp [hkeep]), ← hkeys] at hsuffix
    exact ⟨_, hsuffix, fun k hk => List.mem_append_left _ (hseen (List.mem_of_mem_filter hk))⟩

theorem run (hm : m.Tidy) (h : m.Holds key seen) {uses : List (Use κ α)} (hkeep : ∀ use ∈ uses, use.removes key = false)
    (hroom : ((seen ++ m.touches uses).toFinset.erase key).card < m.capacity) :
    (m.run uses).Holds key (seen ++ m.touches uses) := by
  -- What was touched so far counts as seen.
  induction uses generalizing m seen with
  | nil => rwa [touches, List.append_nil]
  | cons use uses ih =>
    obtain ⟨huse, huses⟩ := List.forall_mem_cons.mp hkeep
    rw [touches, ← List.append_assoc] at hroom ⊢
    have hfirst : ((seen ++ (m.touched? use).toList).toFinset.erase key).card < m.capacity := by
      refine Nat.lt_of_le_of_lt (Finset.card_le_card (Finset.erase_subset_erase key fun k hk => ?_)) hroom
      rw [List.mem_toFinset] at hk ⊢
      exact List.mem_append_left _ hk
    rw [← capacity_after m use] at hroom
    exact ih (hm.after use) (h.after hm huse hfirst) huses hroom

omit [DecidableEq κ] in
theorem mem (h : m.Holds key seen) : key ∈ m.keys := by
  obtain ⟨back, hback, -⟩ := h
  exact hback.subset (List.mem_cons_self ..)

end Holds

/-! ### Order -/

theorem dedup_concat (keys : List κ) (key : κ) : (keys ++ [key]).dedup = toEnd key keys.dedup := by
  induction keys with
  | nil => rfl
  | cons k keys ih =>
    by_cases hk : k ∈ keys
    · rw [List.cons_append, List.dedup_cons_of_mem (List.mem_append_left _ hk), List.dedup_cons_of_mem hk, ih]
    · by_cases hkey : k = key
      · rw [List.cons_append, List.dedup_cons_of_mem (by simp [hkey]), List.dedup_cons_of_notMem hk, ih]
        simp [toEnd, hkey]
      · rw [List.cons_append, List.dedup_cons_of_notMem (by simp [hk, hkey]), List.dedup_cons_of_notMem hk, ih]
        simp [toEnd, hkey]

/-- A key can go to the end before or after the first ones have been dropped. -/
theorem rtake_toEnd_rtake {keys : List κ} (h : keys.Nodup) (key : κ) (n : Nat) :
    (toEnd key (keys.rtake n)).rtake n = (toEnd key keys).rtake n := by
  by_cases hn : keys.length ≤ n
  · have hall : keys.rtake n = keys := by rw [List.rtake, Nat.sub_eq_zero_of_le hn, List.drop_zero]
    rw [hall]
  · have hdropped : keys.rtake n <:+ keys := List.drop_suffix ..
    have hlength : (keys.rtake n).length = n := by
      rw [List.rtake, List.length_drop]
      omega
    have hleft : (toEnd key (keys.rtake n)).rtake n <:+ toEnd key keys := by
      obtain ⟨front, hfront⟩ := hdropped.filter fun k => k ≠ key
      exact (List.drop_suffix ..).trans ⟨front, by rw [toEnd, toEnd, ← List.append_assoc, hfront]⟩
    -- Both sides end the same list, and both have as many keys as there is room for.
    have hshort := length_le_length_toEnd (h.sublist hdropped.sublist) key
    have hlong := length_le_length_toEnd h key
    refine (List.suffix_of_suffix_length_le hleft (List.drop_suffix ..) ?_).eq_of_length ?_ <;>
      simp only [List.rtake, List.length_drop] at hlength hshort ⊢ <;> omega

/-- Where nothing is taken out, the keys are the ones touched last. -/
theorem keys_ofUses (size : Int) {uses : List (Use κ α)} (hkeep : ∀ use ∈ uses, ∀ key, use.removes key = false) :
    (ofUses size uses).keys = ((ofSize size).touches uses).dedup.rtake (ofUses size uses).capacity := by
  induction uses using List.reverseRecOn with
  | nil => simp [ofUses, run, ofSize, keys, touches]
  | append_singleton uses use ih =>
    obtain ⟨huses, huse⟩ := List.forall_mem_append.mp hkeep
    have hall := List.forall_mem_singleton.mp huse
    have hkeys := ih huses
    rw [touches_concat, ofUses_concat, capacity_after]
    rcases after_cases (tidy_ofUses size uses) use with ⟨key, hkey, hafter⟩ | ⟨hnone, hafter⟩
    · rw [hafter, hkeys, hkey, Option.toList_some, dedup_concat, rtake_toEnd_rtake (List.nodup_dedup _)]
    · rw [hafter, hnone, Option.toList_none, List.append_nil, ← hkeys]
      exact List.filter_eq_self.mpr fun key _ => by rw [hall key]; rfl

/-! ### What a map keeps -/

/-- After any uses no key of a map comes twice, there are no more keys than its size says, and the value at a key is the
    one it was last set to. A key that was touched, and not taken out since, is still there if fewer other keys than
    there is room for have been touched since. Where nothing is taken out, the keys are the ones touched last, as many
    as there is room for, in the order of their last touch. -/
theorem keeps_most_recent (size : Int) (uses : List (Use κ α)) :
    (ofUses size uses).keys.Nodup ∧ ((ofUses size uses).keys.length : Int) ≤ max 1 size ∧
    (∀ key value, ((ofUses size uses).get key).1 = some value → LastSet key value uses) ∧
    (∀ key, ((ofUses size uses).get key).1.isSome = true ↔ key ∈ (ofUses size uses).keys) ∧
    (∀ earlier use later key, uses = earlier ++ use :: later → (ofUses size earlier).touched? use = some key →
      (∀ other ∈ later, other.removes key = false) →
      ((((ofUses size (earlier ++ [use])).touches later).toFinset.erase key).card : Int) < max 1 size →
      key ∈ (ofUses size uses).keys) ∧
    ((∀ use ∈ uses, ∀ key, use.removes key = false) →
      (ofUses size uses).keys = ((ofSize size).touches uses).dedup.rtake (max 1 size).toNat) := by
  have htidy : (ofUses size uses).Tidy := tidy_ofUses size uses
  have hcapacity := capacity_ofUses size uses
  refine ⟨htidy.nodup, ?_, fun key value hget => ?_, fun key => ?_, ?_, fun hkeep => ?_⟩
  · rw [← hcapacity]
    exact Int.ofNat_le.mpr htidy.length
  · by_cases hkey : key ∈ (ofUses size uses).keys
    · obtain ⟨found, hmem, hfound⟩ := get_of_mem hkey
      rw [hfound] at hget
      exact Option.some.inj hget ▸ lastSet_of_mem_ofUses size hmem
    · rw [get_of_not_mem hkey] at hget
      cases hget
  · by_cases hkey : key ∈ (ofUses size uses).keys
    · obtain ⟨found, -, hfound⟩ := get_of_mem hkey
      simp [hfound, hkey]
    · simp [get_of_not_mem hkey, hkey]
  · rintro earlier use later key rfl htouched hkeep hroom
    have hlast : ofUses size (earlier ++ use :: later) = (ofUses size (earlier ++ [use])).run later := by
      rw [ofUses, ofUses, ← run_append, List.append_assoc, List.singleton_append]
    have hholds : (ofUses size (earlier ++ [use])).Holds key [] := by
      rw [ofUses_concat]
      exact .of_touched (tidy_ofUses size earlier) htouched []
    rw [← capacity_ofUses size (earlier ++ [use]), Int.ofNat_lt] at hroom
    rw [hlast]
    exact (hholds.run (tidy_ofUses size _) hkeep hroom).mem
  · rw [keys_ofUses size hkeep, ← hcapacity, Int.toNat_natCast]

/-- Where there is room for two, a key that is asked for stays, and the other one goes. -/
theorem keeps_most_recent_asked_for :
    (ofUses 2 [.set "A" 1, .set "B" 2, .get "A", .set "C" 3]).keys = ["A", "C"] ∧
      "A" ∈ (ofUses 2 [.set "A" 1, .set "B" 2, .get "A", .erase "B", .set "C" 3]).keys := by
  obtain ⟨-, -, -, -, -, hlast⟩ := keeps_most_recent 2 [Use.set "A" 1, .set "B" 2, .get "A", .set "C" 3]
  obtain ⟨-, -, -, -, hstays, -⟩ := keeps_most_recent 2 [Use.set "A" 1, .set "B" 2, .get "A", .erase "B", .set "C" 3]
  refine ⟨(hlast (by simp [Use.removes])).trans (by decide), ?_⟩
  exact hstays [.set "A" 1, .set "B" 2] (.get "A") [.erase "B", .set "C" 3] "A" rfl (by decide) (by decide) (by decide)

/-- An entry that is erased leaves room, so a key can stay though two others were touched after it. -/
example : (ofUses 2 [.set "A" 1, .set "B" 2, .erase "B", .set "C" 3]).keys = ["A", "C"] := by decide

end Curriculum.Recent
