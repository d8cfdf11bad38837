import Curriculum.Proofs.Remembering

/-! Requests one after another at one service. What a client is shown, a status and a body, is the same as from a
    new service that gets this request alone, whatever was asked for before and however long it took. Stack and memory
    are taken as unlimited for both services. -/

namespace Curriculum.Service

variable {s : Service}

/-! ### What a client is shown -/

/-- The log stays with the service. -/
def Reply.shown (reply : Reply) : Nat × Option Json := (reply.status, reply.body)

theorem shown_reply (elapsed : Double) (r : Request) (name : String) (status : Nat) (body : Option Json)
    (warning : Option String) : (s.reply elapsed r name status body warning).shown = (status, body) := rfl

theorem shown_replyOf (elapsed elapsed' : Double) (r r' : Request) (e : Endpoint) (result : Except Failure Answer) :
    (s.replyOf elapsed r e result).map Reply.shown = (s.replyOf elapsed' r' e result).map Reply.shown := by
  cases result with
  | ok answer => simp only [replyOf, Except.map, shown_reply]
  | error failure =>
    cases failure with
    | refused refusal => simp only [replyOf, Except.map, shown_reply]
    | incomparable cause =>
      simp only [replyOf]
      split
      · rfl
      · simp only [Except.map, shown_reply]

/-- The time that a request takes shows in the log only. -/
theorem shown_replyAnew (elapsed elapsed' : Double) (r : Request) :
    (s.replyAnew elapsed r).map Reply.shown = (s.replyAnew elapsed' r).map Reply.shown := by
  unfold replyAnew
  cases r.routed with
  | endpoint e => exact shown_replyOf elapsed elapsed' r r e _
  | headOnly e => simp only [Except.map, shown_reply]
  | missing name status => simp only [Except.map, shown_reply]

/-! ### One request after another -/

/-- Serves some requests, each of which takes its number of milliseconds. -/
def serveAll (s : Service) : List (Double × Request) → StateM Memory (List (Except Incomparable Reply))
  | [] => return []
  | (elapsed, r) :: requests => do
    let reply ← s.serve elapsed r
    return reply :: (← s.serveAll requests)

theorem serveAll_cons (elapsed : Double) (r : Request) (requests : List (Double × Request)) (m : Memory) :
    (s.serveAll ((elapsed, r) :: requests)).run m =
      (((s.serve elapsed r).run m).1 :: ((s.serveAll requests).run ((s.serve elapsed r).run m).2).1,
        ((s.serveAll requests).run ((s.serve elapsed r).run m).2).2) := rfl

/-- The memory is sound between the requests, so each has the reply of a service that remembers nothing. -/
theorem serveAll_of_sound {requests : List (Double × Request)} {m : Memory} (h : m.Sound) :
    ((s.serveAll requests).run m).1 = requests.map (fun request => s.replyAnew request.1 request.2) ∧
      Memory.Sound ((s.serveAll requests).run m).2 := by
  induction requests generalizing m with
  | nil => exact ⟨rfl, h⟩
  | cons request requests ih =>
    obtain ⟨elapsed, r⟩ := request
    obtain ⟨hreply, hsound⟩ := s.serve_of_sound h elapsed r
    obtain ⟨hreplies, hsound'⟩ := ih hsound
    rw [serveAll_cons]
    refine ⟨?_, hsound'⟩
    rw [List.map_cons, hreply, hreplies]

/-- Each of some requests to one service gets the status and the body that a new service gives to this request
    alone. -/
theorem shown_as_served_alone (s : Service) (size : Int) (requests : List (Double × Request)) (alone : Double) :
    ((s.serveAll requests).run (.ofSize size)).1.map (Except.map Reply.shown) =
      requests.map fun request => ((s.serve alone request.2).run (.ofSize size)).1.map Reply.shown := by
  have hnew : Memory.Sound (.ofSize size) := Memory.sound_ofSize size
  obtain ⟨hreplies, -⟩ := serveAll_of_sound hnew
  rw [hreplies, List.map_map]
  refine List.map_congr_left fun request _ => ?_
  obtain ⟨halone, -⟩ := s.serve_of_sound hnew alone request.2
  rw [Function.comp_apply, halone]
  exact s.shown_replyAnew request.1 alone request.2

end Curriculum.Service
