import Mathlib.Logic.Relation
import Mathlib.Order.MinMax
import Curriculum.Proofs.Measuring

/-! Depths away from cycles. A course below which there is no cycle is never met on its own way down, and so none of
    the courses that follow it counts as an end too early. Its depth is the number of steps of the longest chain that
    begins with it, whatever cycles there are elsewhere and in whatever order the courses are measured. The stack is
    taken as unlimited, however long the chain. -/

namespace Curriculum

variable {m : Dependents} {path ids : List String} {known after : OrderedMap Nat} {id next : String}
  {n d deepest below : Nat}

namespace Dependents

/-- No course that the course leads to leads to itself. -/
def Acyclic (m : Dependents) (id : String) : Prop :=
  ∀ other, Relation.ReflTransGen m.Next id other → ¬Relation.TransGen m.Next other other

/-- Some chain that begins with the course has more steps than that. -/
def Longer (m : Dependents) (id : String) (n : Nat) : Prop :=
  ∃ rest : List String, (id :: rest).IsChain m.Next ∧ n < rest.length

theorem Acyclic.of_next (h : m.Acyclic id) (hnext : m.Next id next) : m.Acyclic next :=
  fun other hother => h other (.head hnext hother)

/-- A chain comes back to no course where there is no cycle. -/
theorem Acyclic.nodup {rest : List String} (h : m.Acyclic id) (hchain : (id :: rest).IsChain m.Next) :
    (id :: rest).Nodup := by
  induction rest generalizing id with
  | nil => exact List.nodup_singleton id
  | cons next rest ih =>
    obtain ⟨hnext, htail⟩ := List.isChain_cons_cons.mp hchain
    refine List.nodup_cons.mpr ⟨fun hmem => ?_, ih (h.of_next hnext) htail⟩
    have hpairs : (id :: next :: rest).Pairwise (Relation.TransGen m.Next) :=
      List.isChain_iff_pairwise.mp (hchain.imp fun _ _ => .single)
    exact h id .refl ((List.pairwise_cons.mp hpairs).1 id hmem)

theorem longer_zero_iff : m.Longer id 0 ↔ m.of id ≠ [] := by
  constructor
  · rintro ⟨rest, hchain, hlength⟩
    obtain ⟨next, rest, rfl⟩ := List.exists_cons_of_length_pos hlength
    exact List.ne_nil_of_mem (List.isChain_cons_cons.mp hchain).1
  · intro hof
    obtain ⟨next, hnext⟩ := List.exists_mem_of_ne_nil _ hof
    exact ⟨[next], List.isChain_pair.mpr hnext, Nat.zero_lt_one⟩

theorem longer_succ_iff : m.Longer id (n + 1) ↔ ∃ next, m.Next id next ∧ m.Longer next n := by
  constructor
  · rintro ⟨rest, hchain, hlength⟩
    obtain ⟨next, rest, rfl⟩ := List.exists_cons_of_length_pos (Nat.zero_lt_of_lt hlength)
    obtain ⟨hnext, htail⟩ := List.isChain_cons_cons.mp hchain
    exact ⟨next, hnext, rest, htail, Nat.lt_of_succ_lt_succ hlength⟩
  · rintro ⟨next, hnext, rest, htail, hlength⟩
    exact ⟨next :: rest, List.isChain_cons_cons.mpr ⟨hnext, htail⟩, Nat.succ_lt_succ hlength⟩

/-- The chains of a course are by one step longer than those of the courses that follow it. -/
theorem lt_depthOver_iff (hbelow : ∀ n, n < below ↔ ∃ next ∈ m.of id, m.Longer next n) :
    n < m.depthOver id below ↔ m.Longer id n := by
  cases n with
  | zero => rw [longer_zero_iff, Nat.pos_iff_ne_zero, ne_eq, depthOver_eq_zero_iff]
  | succ n =>
    rw [longer_succ_iff]
    unfold depthOver Next
    split
    · next hof => simp [hof]
    · rw [Nat.succ_lt_succ_iff, hbelow]

theorem next_congr {m' : Dependents} (h : ∀ id next, m'.Next id next ↔ m.Next id next) : m'.Next = m.Next :=
  funext fun id => funext fun next => propext (h id next)

theorem longer_congr {m' : Dependents} (h : ∀ id next, m'.Next id next ↔ m.Next id next) :
    m'.Longer id n ↔ m.Longer id n := by
  unfold Longer
  rw [next_congr h]

theorem Acyclic.congr {m' : Dependents} (hid : m.Acyclic id) (h : ∀ id next, m'.Next id next ↔ m.Next id next) :
    m'.Acyclic id := by
  unfold Acyclic
  rw [next_congr h]
  exact hid

/-- Every course on the way down leads to every one of the courses. -/
def Below (m : Dependents) (path ids : List String) : Prop :=
  ∀ start ∈ path, ∀ id ∈ ids, Relation.TransGen m.Next start id

theorem Below.tail (h : m.Below path (id :: ids)) : m.Below path ids :=
  fun start hstart other hother => h start hstart other (List.mem_cons_of_mem _ hother)

theorem Below.descend (h : m.Below path (id :: ids)) : m.Below (id :: path) (m.of id) := by
  intro start hstart next hnext
  rcases List.mem_cons.mp hstart with rfl | hstart
  · exact .single hnext
  · exact .tail (h start hstart id (List.mem_cons_self ..)) hnext

end Dependents

/-! ### Measuring -/

/-- Away from cycles the known depths are those of longest chains. -/
def Exact (m : Dependents) (known : OrderedMap Nat) : Prop :=
  ∀ id d, known.get? id = some d → m.Acyclic id → ∀ n, n < d ↔ m.Longer id n

/-- Measuring keeps this so. The courses on the way lead to those that are measured, so one of them that is met again
    is on a cycle. -/
theorem Measured.exact (h : Measured m path known ids deepest after) (hpath : m.Below path ids) (hknown : Exact m known) :
    Exact m after ∧ ((∀ id ∈ ids, m.Acyclic id) → ∀ n, n < deepest ↔ ∃ id ∈ ids, m.Longer id n) := by
  induction h with
  | done => exact ⟨hknown, fun _ n => by simp⟩
  | remember hid _ ih =>
    obtain ⟨hafter, hdeepest⟩ := ih hpath.tail hknown
    refine ⟨hafter, fun hacyclic n => ?_⟩
    obtain ⟨hhead, hrest⟩ := List.forall_mem_cons.mp hacyclic
    rw [lt_max_iff, hknown _ _ hid hhead, hdeepest hrest, List.exists_mem_cons_iff]
  | @turn _ _ _ _ id _ _ hmem _ ih =>
    obtain ⟨hafter, -⟩ := ih hpath.tail hknown
    refine ⟨hafter, fun hacyclic => ?_⟩
    have hcycle := hpath id hmem id (List.mem_cons_self ..)
    exact absurd hcycle (hacyclic id (List.mem_cons_self ..) id .refl)
  | @descend _ _ _ between _ id below _ _ _ _ _ ihbelow ih =>
    obtain ⟨hbetween, hbelow⟩ := ihbelow hpath.descend hknown
    have hdepth : m.Acyclic id → ∀ n, n < m.depthOver id below ↔ m.Longer id n := fun hid n =>
      Dependents.lt_depthOver_iff (hbelow fun next hnext => hid.of_next hnext)
    have hinsert : Exact m (between.insert id (m.depthOver id below)) := by
      intro other d hget hother
      rw [OrderedMap.get?_insert] at hget
      split at hget
      · next heq =>
        rw [← Option.some.inj hget, heq]
        exact hdepth (heq ▸ hother)
      · exact hbetween other d hget hother
    obtain ⟨hafter, hdeepest⟩ := ih hpath.tail hinsert
    refine ⟨hafter, fun hacyclic n => ?_⟩
    obtain ⟨hhead, hrest⟩ := List.forall_mem_cons.mp hacyclic
    rw [lt_max_iff, hdepth hhead, hdeepest hrest, List.exists_mem_cons_iff]

theorem exact_chainDepths (m : Dependents) : Exact m (chainDepths m) := by
  have hempty : Exact m ∅ := by
    intro id d hget
    cases hget
  exact ((measured_chainDepths m).exact (fun _ hstart => absurd hstart List.not_mem_nil) hempty).1

/-- The depth of a course that leads to no cycle; a course outside the map begins no chain. -/
theorem lt_chainDepth_iff (h : m.Acyclic id) : n < chainDepth m id ↔ m.Longer id n := by
  unfold chainDepth
  cases hget : (chainDepths m).get? id with
  | some d => exact exact_chainDepths m id d hget h n
  | none =>
    refine iff_of_false (Nat.not_lt_zero n) fun ⟨rest, hchain, hlength⟩ => ?_
    have hof : m.of id ≠ [] := Dependents.longer_zero_iff.mp ⟨rest, hchain, Nat.zero_lt_of_lt hlength⟩
    rw [OrderedMap.get?_eq_none_iff, mem_keys_chainDepths] at hget
    exact hget (List.mem_append_left _ (Dependents.mem_keys_of_ne_nil hof))

/-- A course of the map that leads to no cycle gets the number of steps of a longest chain that begins with it: there
    is such a chain, on which no course comes twice, and no chain from there has more steps. Another map that lists
    the same courses for the same courses, in whatever order, gives the course the same depth. -/
theorem depth_is_longest_chain (m : Dependents) (id : String) (hid : id ∈ m.courses) (hacyclic : m.Acyclic id) :
    ∃ d, (chainDepths m).get? id = some d ∧
      (∃ rest, (id :: rest).IsChain (fun id next => next ∈ m.of id) ∧ (id :: rest).Nodup ∧ rest.length = d) ∧
      (∀ rest, (id :: rest).IsChain (fun id next => next ∈ m.of id) → rest.length ≤ d) ∧
      ∀ m' : Dependents, (∀ id next, next ∈ m'.of id ↔ next ∈ m.of id) → chainDepth m' id = d := by
  obtain ⟨d, hget⟩ := OrderedMap.mem_keys_iff.mp (mem_keys_chainDepths.mpr hid)
  have hexact := exact_chainDepths m id d hget hacyclic
  have hlongest : ∀ rest, (id :: rest).IsChain m.Next → rest.length ≤ d := fun rest hchain =>
    Nat.le_of_not_lt fun hlt => Nat.lt_irrefl d ((hexact d).mpr ⟨rest, hchain, hlt⟩)
  refine ⟨d, hget, ?_, hlongest, fun m' hsame => ?_⟩
  · cases d with
    | zero => exact ⟨[], .singleton _, List.nodup_singleton id, rfl⟩
    | succ d =>
      obtain ⟨rest, hchain, hlength⟩ := (hexact d).mp (Nat.lt_succ_self d)
      exact ⟨rest, hchain, hacyclic.nodup hchain, Nat.le_antisymm (hlongest rest hchain) hlength⟩
  · refine eq_of_forall_lt_iff fun n => ?_
    rw [lt_chainDepth_iff (hacyclic.congr hsame), hexact, Dependents.longer_congr hsame]

/-- Two courses that follow each other, and that lead to courses that lead to no cycle. -/
def besideCycle : Dependents := .ofList [("X", ["Y", "A"]), ("Y", ["X"]), ("A", ["C", "B"]), ("B", ["C"])]

/-- Below a cycle the depth is that of the longest chain, though the measuring comes there by way of the cycle. -/
theorem depth_is_longest_chain_below_cycle :
    "A" ∈ besideCycle.courses ∧ besideCycle.Acyclic "A" ∧ (chainDepths besideCycle).get? "A" = some 2 ∧
      ∃ rest, ("A" :: rest).IsChain (fun id next => next ∈ besideCycle.of id) ∧ ("A" :: rest).Nodup ∧
        rest.length = 2 := by
  have hget : (chainDepths besideCycle).get? "A" = some 2 := by
    -- Below `X` come `Y`, where a turn is made, and `A`, then `C` and `B` below `A`.
    have hX : Measured besideCycle [] ∅ besideCycle.keys _ _ :=
      .descend rfl (by decide)
        (.descend rfl (by decide) (.turn rfl (by decide) .done)
          (.descend rfl (by decide)
            (.descend rfl (by decide) .done (.descend rfl (by decide) (.remember rfl .done) .done)) .done))
        (.remember rfl (.remember rfl (.remember rfl .done)))
    rw [hX.chainDepths_eq]
    decide
  have hstep : ∀ id ∈ ["A", "B", "C"], ∀ next ∈ besideCycle.of id, next ∈ ["A", "B", "C"] ∧ id < next := by decide
  have hlead : ∀ other, Relation.ReflTransGen besideCycle.Next "A" other → other ∈ ["A", "B", "C"] := by
    intro other h
    induction h with
    | refl => decide
    | tail _ hnext ih => exact (hstep _ ih _ hnext).1
  have hgrow : ∀ id other, id ∈ ["A", "B", "C"] → Relation.TransGen besideCycle.Next id other →
      other ∈ ["A", "B", "C"] ∧ id < other := by
    intro id other hid h
    induction h with
    | single hnext => exact hstep id hid _ hnext
    | tail _ hnext ih =>
      obtain ⟨hnext, hlt⟩ := hstep _ ih.1 _ hnext
      exact ⟨hnext, String.lt_trans ih.2 hlt⟩
  have hacyclic : besideCycle.Acyclic "A" := fun other h hcycle =>
    String.lt_irrefl other (hgrow other other (hlead other h) hcycle).2
  have hcourse : "A" ∈ besideCycle.courses := by decide
  obtain ⟨d, hd, hchain, -⟩ := depth_is_longest_chain besideCycle "A" hcourse hacyclic
  obtain rfl : d = 2 := Option.some.inj (hd.symm.trans hget)
  exact ⟨hcourse, hacyclic, hget, hchain⟩

end Curriculum
