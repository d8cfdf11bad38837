import Curriculum.Proofs.Entering
import Curriculum.Proofs.Memoryless
import Curriculum.Proofs.Notices
import Curriculum.Proofs.RoundTrip

/-! The completed courses come to the service as a list of ids or as one text with the ids between commas. Of a
    text only the ids of the catalog count. What a further course unlocks is told alike for both where the ids
    outside the catalog are referred to by no requirement; where one of them is, the text tells less. -/

namespace Curriculum

/-! ### What is told of a further course -/

namespace Expressions

/-- The courses that refer to each other, and those that a further course opens, where nothing is remembered. -/
def opened (m : Expressions) (id : String) (done : String → Bool) : Except SyntaxError (Dependents × List String) :=
  (dependents Reading.plain m).result >>= fun reverse =>
    (newlyEligible Reading.plain id reverse m done).result >>= fun newly => .ok (reverse, newly)

theorem exists_opened_eq_ok {m : Expressions} {id : String} {done : String → Bool}
    {entries : List (String × List String)} {newly : List String}
    (h : (m.opened id done).toOption.map (fun (reverse, newly) => (reverse.entries, newly)) = some (entries, newly)) :
    ∃ reverse : Dependents, reverse.entries = entries ∧ m.opened id done = .ok (reverse, newly) := by
  cases hopened : m.opened id done with
  | error e =>
    rw [hopened] at h
    cases h
  | ok p =>
    obtain ⟨reverse, newly'⟩ := p
    rw [hopened] at h
    obtain ⟨rfl, rfl⟩ := Prod.mk.inj (Option.some.inj h)
    exact ⟨reverse, rfl, rfl⟩

/-- The course is on the map, or the requirement of a course on the map refers to it. -/
def Concerns (m : Expressions) (id : String) : Prop :=
  id ∈ m.keys ∨ ∃ course ∈ m.keys, id ∈ (m.requirementOf course).courseIds

instance (m : Expressions) (id : String) : Decidable (m.Concerns id) :=
  inferInstanceAs (Decidable (id ∈ m.keys ∨ ∃ course ∈ m.keys, id ∈ (m.requirementOf course).courseIds))

theorem exists_parse_of_readAll {m : Expressions} {ids : List String} {rs : List (String × Requirement)}
    (h : (readAll Reading.plain m ids).result = .ok rs) : ∀ id ∈ ids, ∃ r, Requirement.parse (m.textOf id) = .ok r := by
  induction ids generalizing rs with
  | nil => exact fun _ hid => absurd hid List.not_mem_nil
  | cons id ids ih =>
    rw [readAll, Reading.result, Service.run_unit_bind] at h
    obtain ⟨r, hr, h⟩ := bind_eq_ok.mp h
    rw [Service.run_unit_bind] at h
    obtain ⟨rest, hrest, -⟩ := bind_eq_ok.mp h
    exact List.forall_mem_cons.mpr ⟨⟨r, hr⟩, ih hrest⟩

/-- Who refers to whom can be told only if every text can be read. -/
theorem readable_of_dependents {m : Expressions} {reverse : Dependents}
    (h : (dependents Reading.plain m).result = .ok reverse) : m.Readable := by
  rw [dependents, Reading.result, Service.run_unit_bind] at h
  obtain ⟨rs, hrs, -⟩ := bind_eq_ok.mp h
  intro id text hmem
  have hid : id ∈ (SortedSet.ofList m.keys).toList := SortedSet.mem_ofList.mpr (List.mem_map.mpr ⟨_, hmem, rfl⟩)
  obtain ⟨r, hr⟩ := exists_parse_of_readAll hrs id hid
  rw [textOf_of_mem hmem] at hr
  exact ⟨r, hr⟩

/-- The course comes open with the further one. -/
def opens (m : Expressions) (id : String) (done : String → Bool) (course : String) : Bool :=
  !done course && (!(m.requirementOf course).holds done && (m.requirementOf course).holds fun d => d = id || done d)

theorem opens_congr {m : Expressions} {done done' : String → Bool} (h : ∀ id, m.Concerns id → done id = done' id)
    (id : String) {course : String} (hcourse : course ∈ m.keys) : m.opens id done course = m.opens id done' course := by
  have hbefore : (m.requirementOf course).holds done = (m.requirementOf course).holds done' :=
    Requirement.holds_congr fun d hd => h d (.inr ⟨course, hcourse, hd⟩)
  have hafter : ((m.requirementOf course).holds fun d => d = id || done d) =
      (m.requirementOf course).holds fun d => d = id || done' d :=
    Requirement.holds_congr fun d hd => by rw [h d (.inr ⟨course, hcourse, hd⟩)]
  rw [opens, h course (.inl hcourse), hbefore, hafter, opens]

/-- Only the completed courses that the map concerns matter. -/
theorem opened_congr {m : Expressions} {done done' : String → Bool} (h : ∀ id, m.Concerns id → done id = done' id)
    (id : String) : m.opened id done = m.opened id done' := by
  unfold opened
  by_cases hm : m.Readable
  · obtain ⟨reverse, hreverse, hof⟩ := hm.dependents_result
    have hnewly : ∀ done, (newlyEligible Reading.plain id reverse m done).result =
        .ok ((reverse.of id).filter (m.opens id done)) := by
      intro done
      rw [newlyEligible, hm.newlyEligibleAmong_eq]
      rfl
    have hsame : ∀ d ∈ reverse.of id, m.opens id done d = m.opens id done' d := by
      intro d hd
      rw [hof] at hd
      obtain ⟨hkey, -⟩ := List.mem_filter.mp hd
      exact opens_congr h id (SortedSet.mem_ofList.mp hkey)
    rw [hreverse, ok_bind, ok_bind, hnewly, hnewly, List.filter_congr hsame]
  · cases hdep : (dependents Reading.plain m).result with
    | error e => rfl
    | ok reverse => exact absurd (readable_of_dependents hdep) hm

end Expressions

namespace Service

/-! ### Unlocks -/

/-- The answer about a course, from who refers to whom and the courses that it opens. -/
def unlocksAnswer (m : Expressions) (id : String) (reverse : Dependents) (newly : List String) : Json :=
  .obj [("course_id", .str id), ("direct_unlocks", .ofTexts (directUnlocks id reverse m.keys.length)),
    ("newly_eligible", .ofTexts newly), ("chain_depth", .int (chainDepth reverse id))]

theorem answerAnew_unlocks (cap : Option Int) (body : Json) : answerAnew cap .unlocks (some body) =
    (expressionsIn body).mapError .refused >>= fun m => (courseIn body).mapError .refused >>= fun id =>
      (completedIn m.keys.contains body).mapError .refused >>= fun standing =>
        (m.opened id standing.has).mapError (fun e => .refused (.unreadable e)) >>= fun (reverse, newly) =>
          .ok (.plain (unlocksAnswer m id reverse newly)) := by
  unfold answerAnew Endpoint.answer unlocks
  simp only [run_unit_bind, ofInput_run_unit, ofReading_run_unit]
  rfl

/-! ### Two spellings -/

theorem textsOf?_map_str (ids : List String) : textsOf? (ids.map .str) = some ids := by
  induction ids with
  | nil => rfl
  | cons id ids ih =>
    unfold textsOf? at ih ⊢
    rw [List.map_cons, List.mapM_cons, ih]
    rfl

theorem standingOfCompleted_ofTexts {ids : List String} (h : ∀ id ∈ ids, CourseId.isValid id = true)
    (inCatalog : String → Bool) : standingOfCompleted inCatalog (.ofTexts ids) = .ok (.completed ids) := by
  have htrim : ids.map Text.trim = ids :=
    (List.map_congr_left fun id hid => CourseId.trim_of_isValid (h id hid)).trans (List.map_id' _)
  have hkept : ∀ id ∈ ids, (!id.isEmpty) = true := by
    intro id hid
    have hvalid := h id hid
    simp only [CourseId.isValid, Bool.and_eq_true] at hvalid
    exact hvalid.1.1
  simp only [standingOfCompleted, Json.ofTexts, textsOf?_map_str, htrim, List.filter_eq_self.mpr hkept]

theorem standingOfCompleted_joined {ids : List String} (h : ∀ id ∈ ids, CourseId.isValid id = true)
    (inCatalog : String → Bool) : ∃ kept, standingOfCompleted inCatalog (.str (",".intercalate ids)) = .ok (.completed kept) ∧
      ∀ id, id ∈ kept ↔ id ∈ ids ∧ inCatalog id = true := by
  obtain ⟨hinvalid, hvalid⟩ := CourseId.read_intercalate h inCatalog
  refine ⟨_, ?_, hvalid⟩
  simp only [standingOfCompleted, hinvalid, List.isEmpty_nil, if_true]

/-- The two values have the same fields but for one. -/
def SameBut (key : String) (v w : Json) : Prop := ∀ other, other ≠ key → v.field? other = w.field? other

/-- Whatever has been served before and however long it takes, the two requests are shown the same. -/
def RepliesAlike (s : Service) (size : Int) (r r' : Request) : Prop :=
  ∀ m m', s.Reached size m → s.Reached size m' → ∀ elapsed elapsed',
    ((s.serve elapsed r).run m).1.map Reply.shown = ((s.serve elapsed' r').run m').1.map Reply.shown

section
variable {s : Service} {size : Int} {list text : Request} {listed typed : Json} {ids kept : List String}

theorem repliesAlike_of_answerAnew {e : Endpoint} (hlist : list.Posts e listed) (htext : text.Posts e typed)
    (h : answerAnew s.cap e (some listed) = answerAnew s.cap e (some typed)) : s.RepliesAlike size list text := by
  intro m m' hm hm' elapsed elapsed'
  rw [serve_of_reached hm, serve_of_reached hm', replyAnew_of_routed hlist.routed, replyAnew_of_routed htext.routed,
    hlist.brought, htext.brought, h]
  exact shown_replyOf elapsed elapsed' list text e _

/-- Of two spellings of the completed courses it matters only that they agree where the requirements are
    concerned. -/
theorem answerAnew_unlocks_congr {cap : Option Int} (hids : ∀ id ∈ ids, CourseId.isValid id = true)
    (hsame : SameBut "completed" listed typed) (htyped : typed.field? "completed" = some (.str (",".intercalate ids)))
    (hlisted : listed.field? "completed" = some (.ofTexts kept)) (hkept : ∀ id ∈ kept, CourseId.isValid id = true)
    (h : ∀ m, expressionsIn typed = .ok m → ∀ id, m.Concerns id → (id ∈ kept ↔ id ∈ ids ∧ id ∈ m.keys)) :
    answerAnew cap .unlocks (some listed) = answerAnew cap .unlocks (some typed) := by
  have hexpressions : expressionsIn listed = expressionsIn typed := by
    rw [expressionsIn, hsame "expressions" (by decide), expressionsIn]
  have hcourse : courseIn listed = courseIn typed := by
    rw [courseIn, hsame "course_id" (by decide), courseIn]
  rw [answerAnew_unlocks, answerAnew_unlocks, hexpressions, hcourse]
  cases hm : expressionsIn typed with
  | error refusal => rfl
  | ok m =>
    obtain ⟨counted, hcounted, hmem⟩ := standingOfCompleted_joined hids m.keys.contains
    have hlist : completedIn m.keys.contains listed = .ok (.completed kept) := by
      rw [completedIn, hlisted]
      exact standingOfCompleted_ofTexts hkept _
    have htext : completedIn m.keys.contains typed = .ok (.completed counted) := by
      rw [completedIn, htyped]
      exact hcounted
    have hagree : ∀ id, m.Concerns id → (Standing.completed kept).has id = (Standing.completed counted).has id := by
      intro id hid
      rw [Bool.eq_iff_iff, Standing.has, Standing.has, List.contains_iff_mem, List.contains_iff_mem, hmem id,
        List.contains_iff_mem]
      exact h m hm id hid
    have hopened : ∀ id, m.opened id (Standing.completed kept).has = m.opened id (Standing.completed counted).has :=
      fun id => Expressions.opened_congr hagree id
    simp only [hlist, htext, mapError_eq_ok.mpr rfl, ok_bind, hopened]

/-- A text of completed courses is a list of those of its ids that are on the map. So a list with all of them is
    shown the same wherever no requirement refers to one that is not on the map. -/
theorem completed_typed_or_listed (s : Service) (size : Int) {ids : List String}
    (hids : ∀ id ∈ ids, CourseId.normalize? id = some id) {text : Request} {typed : Json}
    (htext : text.Posts .unlocks typed) (htyped : typed.field? "completed" = some (.str (",".intercalate ids))) :
    (∀ list listed, list.Posts .unlocks listed → SameBut "completed" listed typed →
      listed.field? "completed" = some (.ofTexts ids) →
      (∀ m, expressionsIn typed = .ok m → ∀ id ∈ ids, m.Concerns id → id ∈ m.keys) → s.RepliesAlike size list text) ∧
    ∀ m, expressionsIn typed = .ok m → ∀ list listed, list.Posts .unlocks listed → SameBut "completed" listed typed →
      listed.field? "completed" = some (.ofTexts (ids.filter m.keys.contains)) → s.RepliesAlike size list text := by
  have hvalid : ∀ id ∈ ids, CourseId.isValid id = true := fun id hid => CourseId.normalize?_eq_self_iff.mp (hids id hid)
  constructor
  · intro list listed hlist hsame hlisted hcovered
    refine repliesAlike_of_answerAnew hlist htext (answerAnew_unlocks_congr hvalid hsame htyped hlisted hvalid ?_)
    exact fun m hm id hid => ⟨fun h => ⟨h, hcovered m hm id h hid⟩, And.left⟩
  · intro m hm list listed hlist hsame hlisted
    refine repliesAlike_of_answerAnew hlist htext (answerAnew_unlocks_congr hvalid hsame htyped hlisted
      (fun id hid => hvalid id (List.mem_filter.mp hid).1) fun m' hm' id _ => ?_)
    obtain rfl : m = m' := Except.ok.inj (hm.symm.trans hm')
    rw [List.mem_filter, List.contains_iff_mem]

/-- A list with an id that nothing refers to, and the text of the list. -/
theorem completed_typed_or_listed_unused :
    RepliesAlike ⟨none, .ofInt 750, false⟩ 1
      ⟨"POST", "/api/graph/unlocks", some "application/json",
        some "\x7b\"expressions\": \x7b\"A\": null, \"B\": \"A AND C\"\x7d, \"course_id\": \"C\", \"completed\": [\"A\", \"Z\"]\x7d"⟩
      ⟨"POST", "/api/graph/unlocks", some "application/json",
        some "\x7b\"expressions\": \x7b\"A\": null, \"B\": \"A AND C\"\x7d, \"course_id\": \"C\", \"completed\": \"A,Z\"\x7d"⟩ := by
  have htext : Request.Posts
      ⟨"POST", "/api/graph/unlocks", some "application/json",
        some "\x7b\"expressions\": \x7b\"A\": null, \"B\": \"A AND C\"\x7d, \"course_id\": \"C\", \"completed\": \"A,Z\"\x7d"⟩
      .unlocks (.obj [("expressions", .obj [("A", .null), ("B", .str "A AND C")]), ("course_id", .str "C"),
        ("completed", .str "A,Z")]) := ⟨by decide +kernel, rfl⟩
  have hids : ∀ id ∈ ["A", "Z"], CourseId.normalize? id = some id := by decide
  obtain ⟨halike, -⟩ := completed_typed_or_listed ⟨none, .ofInt 750, false⟩ 1 hids htext rfl
  refine halike _ (.obj [("expressions", .obj [("A", .null), ("B", .str "A AND C")]), ("course_id", .str "C"),
    ("completed", .ofTexts ["A", "Z"])]) ⟨by decide +kernel, rfl⟩ ?_ rfl ?_
  · intro other hother
    simp [Json.field?, Entries.lookup_cons, hother]
  · intro m hm
    obtain rfl : .ofList [("A", none), ("B", some "A AND C")] = m := Except.ok.inj hm
    decide +kernel

theorem accepts_unlocks {r : Request} {body : Json} {m : Expressions} {id : String} {standing : Standing}
    {reverse : Dependents} {newly : List String} (hr : r.Posts .unlocks body) (hm : expressionsIn body = .ok m)
    (hid : courseIn body = .ok id) (hstanding : completedIn m.keys.contains body = .ok standing)
    (hopened : m.opened id standing.has = .ok (reverse, newly)) : s.Accepts size r (unlocksAnswer m id reverse newly) := by
  have hanswer : answerAnew s.cap .unlocks (some body) = .ok (.plain (unlocksAnswer m id reverse newly)) := by
    simp only [answerAnew_unlocks, hm, hid, hstanding, hopened, mapError_eq_ok.mpr rfl, ok_bind]
  exact accepts_of_answerAnew hr hanswer

/-- The requirement of `D` refers to `X`, which is not on the map: listed, it opens `D` to one who takes `Y`, and
    typed it does not. -/
theorem completed_typed_not_as_listed :
    Accepts ⟨none, .ofInt 750, false⟩ 1
      ⟨"POST", "/api/graph/unlocks", some "application/json",
        some "\x7b\"expressions\": \x7b\"D\": \"X AND Y\"\x7d, \"course_id\": \"Y\", \"completed\": [\"X\"]\x7d"⟩
      (.obj [("course_id", .str "Y"), ("direct_unlocks", .ofTexts ["D"]), ("newly_eligible", .ofTexts ["D"]),
        ("chain_depth", .int 1)]) ∧
    Accepts ⟨none, .ofInt 750, false⟩ 1
      ⟨"POST", "/api/graph/unlocks", some "application/json",
        some "\x7b\"expressions\": \x7b\"D\": \"X AND Y\"\x7d, \"course_id\": \"Y\", \"completed\": \"X\"\x7d"⟩
      (.obj [("course_id", .str "Y"), ("direct_unlocks", .ofTexts ["D"]), ("newly_eligible", .ofTexts []),
        ("chain_depth", .int 1)]) := by
  have hanswer : ∀ (reverse : Dependents) (newly : List String), reverse.entries = [("X", ["D"]), ("Y", ["D"])] →
      unlocksAnswer (.ofList [("D", some "X AND Y")]) "Y" reverse newly =
        .obj [("course_id", .str "Y"), ("direct_unlocks", .ofTexts ["D"]), ("newly_eligible", .ofTexts newly),
          ("chain_depth", .int 1)] := by
    intro reverse newly hreverse
    have hkeys : reverse.keys = ["X", "Y"] := by rw [OrderedMap.keys, hreverse]; rfl
    have hX : reverse.of "X" = ["D"] := by rw [Dependents.of, OrderedMap.get?, hreverse]; decide
    have hY : reverse.of "Y" = ["D"] := by rw [Dependents.of, OrderedMap.get?, hreverse]; decide
    have hdepth : chainDepth reverse "Y" = 1 := by
      simp [chainDepth, chainDepths, hkeys, depthOf, deepestOf, hX, hY]
    rw [unlocksAnswer, directUnlocks, hY, hdepth]
    rfl
  obtain ⟨reverse, hreverse, hlisted⟩ : ∃ reverse : Dependents, reverse.entries = [("X", ["D"]), ("Y", ["D"])] ∧
      Expressions.opened (.ofList [("D", some "X AND Y")]) "Y" (Standing.completed ["X"]).has = .ok (reverse, ["D"]) :=
    Expressions.exists_opened_eq_ok (by decide +kernel)
  obtain ⟨reverse', hreverse', htyped⟩ : ∃ reverse : Dependents, reverse.entries = [("X", ["D"]), ("Y", ["D"])] ∧
      Expressions.opened (.ofList [("D", some "X AND Y")]) "Y" (Standing.completed []).has = .ok (reverse, []) :=
    Expressions.exists_opened_eq_ok (by decide +kernel)
  rw [← hanswer reverse _ hreverse, ← hanswer reverse' _ hreverse']
  constructor
  · refine accepts_unlocks ⟨by decide +kernel, rfl⟩ rfl (by decide +kernel) ?_ hlisted
    have hids : ∀ id ∈ ["X"], CourseId.isValid id = true := by decide
    exact standingOfCompleted_ofTexts hids _
  · refine accepts_unlocks ⟨by decide +kernel, rfl⟩ rfl (by decide +kernel) ?_ htyped
    rfl

end

end Service
end Curriculum
