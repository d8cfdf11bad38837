import Mathlib.Data.Nat.Order.Lemmas
import Curriculum.Plan.Unlocks
import Curriculum.Proofs.Readable

/-! Which courses open on the way. Completing a course opens exactly the courses whose requirement was not met
    before and is met with it, although only those that refer to the course are looked at. More courses never
    close one, so on the whole way a course is announced once at most, and once for certain if it has come
    open without being completed. -/

namespace Curriculum

/-! ### Courses that refer to a course -/

namespace Dependents

theorem of_add (m : Dependents) (prerequisite course id : String) :
    (m.add prerequisite course).of id =
      if id = prerequisite ∧ course ∉ m.of id then m.of id ++ [course] else m.of id := by
  unfold add of
  rw [OrderedMap.get?_insert]
  by_cases h : id = prerequisite
  · subst h
    by_cases hcourse : course ∈ (m.get? id).getD [] <;> simp [hcourse]
  · simp [h]

/-- A new course is added to all of its prerequisites and nowhere else. -/
theorem of_foldl_add {course id : String} : ∀ {ids : List String} (m : Dependents), ids.Nodup →
    (∀ id ∈ ids, course ∉ m.of id) → (ids.foldl (fun m prerequisite => m.add prerequisite course) m).of id =
      m.of id ++ if id ∈ ids then [course] else []
  | [], m, _, _ => by simp
  | p :: ids, m, h, hnew => by
    obtain ⟨hp, hids⟩ := List.nodup_cons.mp h
    obtain ⟨hnewp, hnewids⟩ := List.forall_mem_cons.mp hnew
    have hother : ∀ id ∈ ids, (m.add p course).of id = m.of id := fun id hid => by
      have hne : id ≠ p := fun heq => hp (heq ▸ hid)
      simp [of_add, hne]
    rw [List.foldl_cons, of_foldl_add _ hids fun id hid => hother id hid ▸ hnewids id hid]
    by_cases hid : id = p
    · subst hid
      simp [of_add, hp, hnewp]
    · simp [of_add, hid]

/-- The courses that refer to a course are all those whose requirement does, in their order. -/
theorem of_ofRequirements {rs : List (String × Requirement)} (hd : (rs.map Prod.fst).Nodup) (id : String) :
    (ofRequirements rs).of id = (rs.filter fun entry => id ∈ entry.2.courseIds).map Prod.fst := by
  suffices h : ∀ m : Dependents, (∀ id, ∀ course ∈ m.of id, course ∉ rs.map Prod.fst) →
      (rs.foldl (fun m entry => entry.2.courseIds.toList.foldl (fun m id => m.add id entry.1) m) m).of id =
        m.of id ++ (rs.filter fun entry => id ∈ entry.2.courseIds).map Prod.fst from h ∅ fun _ _ h => absurd h List.not_mem_nil
  induction rs with
  | nil => exact fun m _ => by simp
  | cons entry rs ih =>
    intro m hnew
    obtain ⟨hentry, hrs⟩ := List.nodup_cons.mp hd
    -- The courses so far are none of those to come.
    have hfirst : ∀ id, entry.1 ∉ m.of id := fun id hmem => hnew id _ hmem (List.mem_cons_self ..)
    have hadded : ∀ id, (entry.2.courseIds.toList.foldl (fun m id => m.add id entry.1) m).of id =
        m.of id ++ if id ∈ entry.2.courseIds.toList then [entry.1] else [] :=
      fun id => of_foldl_add m entry.2.courseIds.nodup fun id _ => hfirst id
    rw [List.foldl_cons, ih hrs, hadded]
    · by_cases hid : id ∈ entry.2.courseIds
      · simp [hid]
      · simp [hid]
    · intro other course hcourse
      rw [hadded] at hcourse
      rcases List.mem_append.mp hcourse with hcourse | hcourse
      · exact fun hmem => hnew other course hcourse (List.mem_cons_of_mem _ hmem)
      · split at hcourse
        · rw [List.mem_singleton.mp hcourse]
          exact hentry
        · exact absurd hcourse List.not_mem_nil

end Dependents

/-! ### One more course -/

namespace Expressions.Readable
variable {m : Expressions} (h : m.Readable)
include h

theorem readAll_eq {σ : Type} (ids : List String) :
    (readAll Reading.plain m ids : Reading σ _) = pure (ids.map fun id => (id, m.requirementOf id)) := by
  induction ids with
  | nil => rfl
  | cons id rest ih =>
    rw [readAll, h.read_textOf, ih]
    simp

/-- Who refers to whom is told from the requirements of all courses in order. -/
theorem dependents_eq : (dependents Reading.plain m).result =
    .ok (.ofRequirements ((SortedSet.ofList m.keys).toList.map fun id => (id, m.requirementOf id))) := by
  rw [dependents, h.readAll_eq]
  rfl

theorem dependents_result : ∃ reverse, (dependents Reading.plain m).result = .ok reverse ∧
    ∀ id, reverse.of id = (SortedSet.ofList m.keys).toList.filter fun d => id ∈ (m.requirementOf d).courseIds := by
  refine ⟨_, h.dependents_eq, fun id => ?_⟩
  have hkeys : ((SortedSet.ofList m.keys).toList.map fun id => (id, m.requirementOf id)).map Prod.fst =
      (SortedSet.ofList m.keys).toList := by
    rw [List.map_map]
    exact List.map_id _
  rw [Dependents.of_ofRequirements (by rw [hkeys]; exact SortedSet.nodup _), List.filter_map, List.map_map]
  exact List.map_id _

theorem newlyEligibleAmong_eq {σ : Type} (id : String) (done : String → Bool) (among : List String) :
    (newlyEligibleAmong Reading.plain id m done among : Reading σ _) = pure (among.filter fun d =>
      !done d && (!(m.requirementOf d).holds done && (m.requirementOf d).holds fun course => course = id || done course)) := by
  induction among with
  | nil => rfl
  | cons d rest ih =>
    rw [newlyEligibleAmong, h.read_textOf, ih]
    cases hd : done d with
    | true => simp [hd]
    | false => simp [hd, List.filter_cons]

end Expressions.Readable

theorem mem_courseIds_of_opens {r : Requirement} {id : String} {done : String → Bool} (hbefore : r.holds done = false)
    (hafter : r.holds (fun course => course = id || done course) = true) : id ∈ r.courseIds := by
  refine Classical.byContradiction fun hid => ?_
  have hsame : r.holds (fun course => course = id || done course) = r.holds done := by
    refine Requirement.holds_congr fun course hcourse => ?_
    have hne : course ≠ id := fun heq => hid (heq ▸ hcourse)
    simp [hne]
  rw [hsame, hbefore] at hafter
  cases hafter

/-- The courses that one more course opens are told in order, and they are those whose requirement is met with it
    and was not before. -/
theorem Expressions.Readable.newlyEligible_result {m : Expressions} (h : m.Readable) (id : String) (done : String → Bool) :
    ∃ reverse notice, (dependents Reading.plain m).result = .ok reverse ∧
      (newlyEligible Reading.plain id reverse m done).result = .ok notice ∧ notice.Pairwise (· < ·) ∧
      ∀ d, d ∈ notice ↔ d ∈ m.keys ∧ done d = false ∧ (m.requirementOf d).holds done = false ∧
        (m.requirementOf d).holds (fun course => course = id || done course) = true := by
  obtain ⟨reverse, hreverse, hof⟩ := h.dependents_result
  have hnotice : (newlyEligible Reading.plain id reverse m done).result = .ok ((reverse.of id).filter fun d =>
      !done d && (!(m.requirementOf d).holds done && (m.requirementOf d).holds fun course => course = id || done course)) := by
    rw [newlyEligible, h.newlyEligibleAmong_eq]
    rfl
  rw [hof] at hnotice
  refine ⟨reverse, _, hreverse, hnotice, ((SortedSet.increasing _).filter _).filter _, fun d => ?_⟩
  simp only [List.mem_filter, SortedSet.mem_toList, SortedSet.mem_ofList, Bool.and_eq_true, Bool.not_eq_true',
    decide_eq_true_eq]
  constructor
  · rintro ⟨⟨hd, -⟩, hopens⟩
    exact ⟨hd, hopens⟩
  · rintro ⟨hd, hdone, hbefore, hafter⟩
    exact ⟨⟨hd, mem_courseIds_of_opens hbefore hafter⟩, hdone, hbefore, hafter⟩

/-! ### One course after another -/

/-- The standing of a student after so many of the courses, beside those completed at the start. -/
def Standing.after (start courses : List String) (k : Nat) : Standing := .completed (start ++ courses.take k)

/-- When the next course is completed after so many of them, these courses are told to be newly open. -/
def Expressions.Announces (m : Expressions) (start courses : List String) (k : Nat) (notice : List String) : Prop :=
  ∃ id reverse, courses[k]? = some id ∧ (dependents Reading.plain m).result = .ok reverse ∧
    (newlyEligible Reading.plain id reverse m (Standing.after start courses k).has).result = .ok notice

section
variable {start courses : List String} {j k : Nat} {id : String}

theorem has_after : (Standing.after start courses k).has id = true ↔ id ∈ start ∨ id ∈ courses.take k := by
  simp [Standing.after, Standing.has]

theorem has_after_succ (hk : courses[k]? = some id) :
    (Standing.after start courses (k + 1)).has = fun course => course = id || (Standing.after start courses k).has course := by
  funext course
  rw [Bool.eq_iff_iff, has_after, List.take_add_one, hk]
  simp only [Bool.or_eq_true, decide_eq_true_eq, has_after, Option.toList_some, List.mem_append, List.mem_singleton]
  rw [← or_assoc, or_comm]

theorem has_after_mono (hjk : j ≤ k) (h : (Standing.after start courses j).has id = true) :
    (Standing.after start courses k).has id = true := by
  rw [has_after] at h ⊢
  exact h.imp_right fun h => (List.take_prefix_take_left hjk).subset h

end

namespace Expressions
variable {m : Expressions} {start courses : List String} {j k : Nat} {notice : List String} {id : String}

theorem Announces.functional {notice' : List String} (h : m.Announces start courses k notice)
    (h' : m.Announces start courses k notice') : notice = notice' := by
  obtain ⟨id, reverse, hid, hreverse, hnotice⟩ := h
  obtain ⟨id', reverse', hid', hreverse', hnotice'⟩ := h'
  obtain rfl : id = id' := Option.some.inj (hid.symm.trans hid')
  obtain rfl : reverse = reverse' := Except.ok.inj (hreverse.symm.trans hreverse')
  exact Except.ok.inj (hnotice.symm.trans hnotice')

variable (hm : m.Readable)
include hm

theorem Tells.mono (h : m.Tells (Standing.after start courses j).has id true) (hjk : j ≤ k) :
    m.Tells (Standing.after start courses k).has id true := by
  obtain ⟨hid, hmet⟩ := hm.tells_iff.mp h
  exact hm.tells_iff.mpr ⟨hid, Requirement.holds_mono (fun _ => has_after_mono hjk) hmet⟩

/-- Nobody is told two things about a course. -/
theorem Tells.not_false {done : String → Bool} (h : m.Tells done id true) : ¬m.Tells done id false := fun h' => by
  have hmet := (hm.tells_iff.mp h).2
  rw [(hm.tells_iff.mp h').2] at hmet
  cases hmet

theorem tells_false_of_not_true {done : String → Bool} (hid : id ∈ m.keys) (h : ¬m.Tells done id true) :
    m.Tells done id false := by
  refine hm.tells_iff.mpr ⟨hid, Bool.eq_false_iff.mpr fun hmet => h (hm.tells_iff.mpr ⟨hid, hmet⟩)⟩

/-- The next course is announced with what it opens. -/
theorem exists_announces (start : List String) (hk : k < courses.length) : ∃ notice, m.Announces start courses k notice ∧
    notice.Pairwise (· < ·) ∧ ∀ id, id ∈ notice ↔ id ∈ m.keys ∧ (Standing.after start courses k).has id = false ∧
      m.Tells (Standing.after start courses k).has id false ∧ m.Tells (Standing.after start courses (k + 1)).has id true := by
  have hcourse : courses[k]? = some courses[k] := List.getElem?_eq_getElem hk
  obtain ⟨reverse, notice, hreverse, hnotice, hsorted, hmem⟩ :=
    hm.newlyEligible_result courses[k] (Standing.after start courses k).has
  refine ⟨notice, ⟨_, reverse, hcourse, hreverse, hnotice⟩, hsorted, fun id => ?_⟩
  rw [hmem, hm.tells_iff, hm.tells_iff, has_after_succ hcourse]
  constructor
  · rintro ⟨hid, hnew, hbefore, hafter⟩
    exact ⟨hid, hnew, ⟨hid, hbefore⟩, hid, hafter⟩
  · rintro ⟨hid, hnew, ⟨-, hbefore⟩, -, hafter⟩
    exact ⟨hid, hnew, hbefore, hafter⟩

theorem Announces.mem_iff (h : m.Announces start courses k notice) : notice.Pairwise (· < ·) ∧
    ∀ id, id ∈ notice ↔ id ∈ m.keys ∧ (Standing.after start courses k).has id = false ∧
      m.Tells (Standing.after start courses k).has id false ∧ m.Tells (Standing.after start courses (k + 1)).has id true := by
  obtain ⟨course, reverse, hcourse, -⟩ := id h
  obtain ⟨hk, -⟩ := List.getElem?_eq_some_iff.mp hcourse
  obtain ⟨notice', h', hnotice'⟩ := exists_announces hm start hk
  rw [h.functional h']
  exact hnotice'

/-- Once a course has been announced, it is open from then on. -/
theorem Announces.unique {notice' : List String} (h : m.Announces start courses j notice) (hid : id ∈ notice)
    (h' : m.Announces start courses k notice') (hid' : id ∈ notice') : j = k := by
  obtain ⟨-, -, hbefore, hafter⟩ := ((h.mem_iff hm).2 id).mp hid
  obtain ⟨-, -, hbefore', hafter'⟩ := ((h'.mem_iff hm).2 id).mp hid'
  rcases Nat.lt_trichotomy j k with hlt | heq | hlt
  · exact absurd hbefore' ((hafter.mono hm hlt).not_false hm)
  · exact heq
  · exact absurd hbefore ((hafter'.mono hm hlt).not_false hm)

/-- A course that comes open on the way without being completed is announced. -/
theorem exists_announces_of_opened (hbefore : m.Tells (Standing.after start courses 0).has id false)
    (hafter : m.Tells (Standing.after start courses courses.length).has id true)
    (hnew : (Standing.after start courses courses.length).has id = false) :
    ∃ k notice, m.Announces start courses k notice ∧ id ∈ notice := by
  have hfirst : ¬m.Tells (Standing.after start courses 0).has id true := fun h => h.not_false hm hbefore
  obtain ⟨k, hclosed, hopen⟩ := Nat.exists_not_and_succ_of_not_zero_of_exists
    (p := fun k => m.Tells (Standing.after start courses k).has id true) hfirst ⟨_, hafter⟩
  have hk : k < courses.length := Nat.lt_of_not_le fun hle => hclosed (hafter.mono hm hle)
  have hnewk : (Standing.after start courses k).has id = false := by
    refine Bool.eq_false_iff.mpr fun h => ?_
    rw [has_after_mono (Nat.le_of_lt hk) h] at hnew
    cases hnew
  have hkey : id ∈ m.keys := (hm.tells_iff.mp hafter).1
  obtain ⟨notice, hannounces, -, hmem⟩ := exists_announces hm start hk
  exact ⟨k, notice, hannounces, (hmem id).mpr ⟨hkey, hnewk, tells_false_of_not_true hm hkey hclosed, hopen⟩⟩

end Expressions

/-- Every course on the way is announced with exactly the courses that it opens, in order. No course is announced
    twice, and one that comes open on the way without being completed is announced just once. -/
theorem announced_once {m : Expressions} (hm : m.Readable) (start courses : List String) :
    (∀ k < courses.length, ∃ notice, m.Announces start courses k notice ∧ notice.Pairwise (· < ·) ∧
      ∀ id, id ∈ notice ↔ id ∈ m.keys ∧ (Standing.after start courses k).has id = false ∧
        m.Tells (Standing.after start courses k).has id false ∧
        m.Tells (Standing.after start courses (k + 1)).has id true) ∧
    (∀ j k notice notice', m.Announces start courses j notice → m.Announces start courses k notice' → j ≠ k →
      ∀ id ∈ notice, id ∉ notice') ∧
    ∀ id ∈ m.keys, m.Tells (Standing.after start courses 0).has id false →
      m.Tells (Standing.after start courses courses.length).has id true →
      (Standing.after start courses courses.length).has id = false →
      ∃! k, ∃ notice, m.Announces start courses k notice ∧ id ∈ notice := by
  refine ⟨fun k hk => Expressions.exists_announces hm start hk, fun j k notice notice' h h' hne id hid hid' => ?_,
    fun id _ hbefore hafter hnew => ?_⟩
  · exact hne (h.unique hm hid h' hid')
  · obtain ⟨k, notice, hannounces, hid⟩ := Expressions.exists_announces_of_opened hm hbefore hafter hnew
    exact ⟨k, ⟨notice, hannounces, hid⟩, fun j ⟨notice', h', hid'⟩ => h'.unique hm hid' hannounces hid⟩

/-- Completing a course may open the course itself, if its own requirement refers to it. -/
theorem announced_once_with_itself :
    ∃ m : Expressions, m = .ofList [("A", some "A"), ("B", some "A and C"), ("C", none)] ∧ m.Readable ∧
      (∃ notice, m.Announces [] ["C", "A"] 1 notice ∧ "A" ∈ notice ∧ "B" ∈ notice) ∧
      ∃! k, ∃ notice, m.Announces [] ["C", "A"] k notice ∧ "B" ∈ notice := by
  refine ⟨_, rfl, ?_⟩
  have hm : Expressions.Readable (.ofList [("A", some "A"), ("B", some "A and C"), ("C", none)]) := by decide +kernel
  obtain ⟨hannounced, -, honce⟩ := announced_once hm [] ["C", "A"]
  obtain ⟨notice, hnotice, -, hmem⟩ := hannounced 1 (by decide)
  simp only [hm.tells_iff] at hmem honce
  have hA : "A" ∈ notice := (hmem "A").mpr (by decide +kernel)
  have hB : "B" ∈ notice := (hmem "B").mpr (by decide +kernel)
  exact ⟨hm, ⟨notice, hnotice, hA, hB⟩, honce "B" (by decide) (by decide +kernel) (by decide +kernel) rfl⟩

end Curriculum
