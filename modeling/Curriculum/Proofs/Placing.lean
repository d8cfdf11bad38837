import Mathlib.Data.List.Dedup
import Curriculum.Proofs.Entering

/-! Where the pieces of an entry go. Each of them comes to one list and comes there once, in the order in which the
    pieces first came, and nothing else is in the lists. The ids that were found, entered again, are found again. -/

namespace Curriculum.CourseId

/-! ### Pieces -/

/-- The texts between runs of commas, semicolons and line feeds, trimmed. A run of them only adds empty texts, and
    these are left out. -/
def separated (raw : String) : List String :=
  ((raw.toList.splitOnP fun c => c ∈ [',', ';', '\n']).map fun piece => Text.trim (String.ofList piece)).filter (· ≠ "")

theorem splitPieces_eq_splitOnP (cs : List Char) : splitPieces cs = cs.splitOnP fun c => c ∈ [',', ';', '\n'] := by
  have hseparator : ∀ c, isSeparator c = decide (c ∈ [',', ';', '\n']) := fun c => by
    simp [isSeparator, Bool.or_assoc]
  induction cs with
  | nil => rfl
  | cons c cs ih =>
    rw [splitPieces, List.splitOnP_cons_eq_if_modifyHead, ← ih, ← hseparator]
    split
    · rfl
    · split
      · next h =>
        rw [ih] at h
        exact absurd h (List.splitOnP_ne_nil _ cs)
      · next h => rw [h, List.modifyHead_cons]

theorem pieces_eq_separated (raw : String) : pieces raw = separated raw := by
  rw [pieces, separated, splitPieces_eq_splitOnP]
  refine List.filter_congr fun p _ => ?_
  rw [Bool.eq_iff_iff]
  simp

/-- A piece is an id as it is, or it is none. -/
theorem normalize?_of_mem_pieces {raw p : String} (h : p ∈ pieces raw) : normalize? p = none ∨ normalize? p = some p := by
  obtain ⟨cs, -, rfl⟩ := List.mem_map.mp (List.mem_filter.mp h).1
  refine (Option.eq_none_or_eq_some _).imp_right ?_
  rintro ⟨r, hr⟩
  obtain ⟨rfl, -⟩ := normalize?_eq_some_iff.mp hr
  rwa [Text.trim_trim] at hr

namespace Entry

/-! ### Order -/

/-- The members of the list are in the order in which they first come among the pieces. -/
def InOrder (pieces list : List String) : Prop := list.Pairwise fun p q => pieces.idxOf p < pieces.idxOf q

namespace InOrder
variable {pieces list : List String} {p : String}

theorem nodup (h : InOrder pieces list) : list.Nodup := by
  refine List.Pairwise.imp ?_ h
  rintro q _ hlt rfl
  exact Nat.lt_irrefl _ hlt

/-- Later pieces do not change where a piece first came. -/
theorem keep (h : InOrder pieces list) (hmem : list ⊆ pieces) (p : String) : InOrder (pieces ++ [p]) list := by
  refine List.Pairwise.imp_of_mem (fun hq hr hlt => ?_) h
  rwa [List.idxOf_append_of_mem (hmem hq), List.idxOf_append_of_mem (hmem hr)]

theorem add (h : InOrder pieces list) (hmem : list ⊆ pieces) (hp : p ∉ pieces) : InOrder (pieces ++ [p]) (list ++ [p]) := by
  refine List.pairwise_append.mpr ⟨h.keep hmem p, List.pairwise_singleton _ _, fun q hq r hr => ?_⟩
  obtain rfl := List.mem_singleton.mp hr
  rw [List.idxOf_append_of_mem (hmem hq), List.idxOf_append_of_notMem hp]
  exact Nat.lt_add_right _ (List.idxOf_lt_length_of_mem (hmem hq))

end InOrder

/-- The pieces are sorted into the lists, where they have the order in which they first came. -/
structure Keeps (inCatalog : String → Bool) (pieces : List String) (e : Entry) : Prop where
  sorts : e.Sorts inCatalog pieces
  valid : InOrder pieces e.valid
  invalid : InOrder pieces e.invalid
  unlisted : InOrder pieces e.unlisted

namespace Keeps
variable {inCatalog : String → Bool} {pieces : List String} {e : Entry} {p : String}

theorem place (h : e.Keeps inCatalog pieces) (hp : normalize? p = none ∨ normalize? p = some p) :
    (place inCatalog e p).Keeps inCatalog (pieces ++ [p]) := by
  have hvalid : e.valid ⊆ pieces := fun q hq => ((h.sorts.valid q).mp hq).1
  have hinvalid : e.invalid ⊆ pieces := fun q hq => ((h.sorts.invalid q).mp hq).1
  have hunlisted : e.unlisted ⊆ pieces := fun q hq => ((h.sorts.unlisted q).mp hq).1
  have hsorts := h.sorts.place hp
  rcases h.sorts.place_cases hp with ⟨-, hplace⟩ | ⟨hnew, ⟨-, hplace⟩ | ⟨-, -, hplace⟩ | ⟨-, -, hplace⟩⟩ <;>
    rw [hplace] at hsorts ⊢
  · exact ⟨hsorts, h.valid.keep hvalid p, h.invalid.keep hinvalid p, h.unlisted.keep hunlisted p⟩
  · exact ⟨hsorts, h.valid.keep hvalid p, h.invalid.add hinvalid hnew, h.unlisted.keep hunlisted p⟩
  · exact ⟨hsorts, h.valid.add hvalid hnew, h.invalid.keep hinvalid p, h.unlisted.keep hunlisted p⟩
  · exact ⟨hsorts, h.valid.keep hvalid p, h.invalid.keep hinvalid p, h.unlisted.add hunlisted hnew⟩

/-- No piece is in two of the lists. -/
theorem nodup (h : e.Keeps inCatalog pieces) : (e.valid ++ e.invalid ++ e.unlisted).Nodup := by
  refine List.nodup_append.mpr ⟨List.nodup_append.mpr ⟨h.valid.nodup, h.invalid.nodup, ?_⟩, h.unlisted.nodup, ?_⟩
  · rintro q hq r hr rfl
    have hid := ((h.sorts.valid q).mp hq).2.1
    rw [((h.sorts.invalid q).mp hr).2] at hid
    cases hid
  · rintro q hq r hr rfl
    obtain ⟨hid, hout⟩ := ((h.sorts.unlisted q).mp hr).2
    rcases List.mem_append.mp hq with hq | hq
    · rw [((h.sorts.valid q).mp hq).2.2] at hout
      cases hout
    · rw [((h.sorts.invalid q).mp hq).2] at hid
      cases hid

/-- Every piece comes to one of the lists and comes there once; nothing else comes there. -/
theorem count_eq (h : e.Keeps inCatalog pieces) (hp : p ∈ pieces → normalize? p = none ∨ normalize? p = some p) :
    (e.valid ++ e.invalid ++ e.unlisted).count p = if p ∈ pieces then 1 else 0 := by
  have hmem : p ∈ e.valid ++ e.invalid ++ e.unlisted ↔ p ∈ pieces := by
    rw [List.mem_append, List.mem_append, h.sorts.valid, h.sorts.invalid, h.sorts.unlisted]
    constructor
    · rintro ((⟨hmem, -⟩ | ⟨hmem, -⟩) | ⟨hmem, -⟩) <;> exact hmem
    · intro hmem
      rcases hp hmem with hn | hn <;> cases hc : inCatalog p <;> simp [hmem, hn, hc]
  split
  · next hpiece => exact List.count_eq_one_of_mem h.nodup (hmem.mpr hpiece)
  · next hpiece => exact List.count_eq_zero.mpr (mt hmem.mp hpiece)

end Keeps

theorem keeps_foldl (inCatalog : String → Bool) {pieces : List String}
    (h : ∀ p ∈ pieces, normalize? p = none ∨ normalize? p = some p) :
    (pieces.foldl (place inCatalog) empty).Keeps inCatalog pieces := by
  induction pieces using List.reverseRecOn with
  | nil => exact ⟨sorts_empty inCatalog, .nil, .nil, .nil⟩
  | append_singleton pieces p ih =>
    obtain ⟨hpieces, hp⟩ := List.forall_mem_append.mp h
    rw [List.foldl_append, List.foldl_cons, List.foldl_nil]
    exact (ih hpieces).place (hp p (List.mem_singleton_self p))

/-- Distinct ids of the catalog are found as they are. -/
theorem foldl_of_valid {inCatalog : String → Bool} {ids : List String} (hd : ids.Nodup)
    (h : ∀ id ∈ ids, normalize? id = some id ∧ inCatalog id = true) : ids.foldl (place inCatalog) empty = ⟨ids, [], []⟩ := by
  induction ids using List.reverseRecOn with
  | nil => rfl
  | append_singleton ids id ih =>
    obtain ⟨hids, hid⟩ := List.forall_mem_append.mp h
    obtain ⟨hnormal, hcatalog⟩ := List.forall_mem_singleton.mp hid
    obtain ⟨hdistinct, -, hother⟩ := List.nodup_append.mp hd
    have hnew : id ∉ ids := fun hmem => hother id hmem id (List.mem_singleton_self id) rfl
    rw [List.foldl_append, ih hdistinct hids, List.foldl_cons, List.foldl_nil]
    simp [place, hnormal, hcatalog, mentions, hnew]

end Entry

/-! ### Entries -/

/-- An entry is sorted into its pieces that are no ids, its ids in the catalog and its other ids. Each piece is in one of
    these lists and there once, nothing else is in them, and each list keeps the order in which the pieces first came.
    The ids that were found in the catalog, joined by commas, are read as just these ids. -/
theorem read_sorts_each_once (inCatalog : String → Bool) (raw : String) :
    (∀ p, ((Entry.read inCatalog raw).valid ++ (Entry.read inCatalog raw).invalid ++
      (Entry.read inCatalog raw).unlisted).count p = if p ∈ separated raw then 1 else 0) ∧
    (Entry.read inCatalog raw).Keeps inCatalog (separated raw) ∧
    Entry.read inCatalog (",".intercalate (Entry.read inCatalog raw).valid) = ⟨(Entry.read inCatalog raw).valid, [], []⟩ := by
  have hnormal : ∀ p ∈ separated raw, normalize? p = none ∨ normalize? p = some p := fun p hp =>
    normalize?_of_mem_pieces ((pieces_eq_separated raw).symm ▸ hp)
  have hkeeps : (Entry.read inCatalog raw).Keeps inCatalog (separated raw) := by
    rw [Entry.read, pieces_eq_separated]
    exact Entry.keeps_foldl inCatalog hnormal
  have hfound : ∀ id ∈ (Entry.read inCatalog raw).valid, normalize? id = some id ∧ inCatalog id = true := fun id hid =>
    ((hkeeps.sorts.valid id).mp hid).2
  refine ⟨fun p => hkeeps.count_eq (hnormal p), hkeeps, ?_⟩
  rw [Entry.read, pieces_intercalate fun id hid => normalize?_eq_self_iff.mp (hfound id hid).1,
    Entry.foldl_of_valid hkeeps.valid.nodup hfound]

/-- A piece that is no id keeps nothing from being found. -/
example : Entry.read (· ≠ "B") "B, or;A A\n\nA ,or;B" = ⟨["A"], ["or", "A A"], ["B"]⟩ := by decide +kernel

end Curriculum.CourseId
