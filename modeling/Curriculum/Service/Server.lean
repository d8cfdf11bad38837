import Curriculum.Service.Request
import Curriculum.Service.Settings

/-! The service as a function from a request and a memory to a reply and the memory afterwards. Stack and
    memory of the machine are taken as unlimited, so no reply tells that they were used up. -/

namespace Curriculum

/-- What the service runs with. In testing nothing is remembered, and a comparison that fails is not
    turned into a reply. -/
structure Service where
  cap : Option Int
  slowAfter : Double
  testing : Bool

namespace Service

def ofSettings (s : Settings) : Service := ⟨s.cap, s.slowAfter, false⟩

def reader (s : Service) (text : String) : Reading Memory Requirement :=
  if s.testing then Reading.plain text else Memory.read "" (some text)

/-- The line about a request that took long. -/
def slowLine (r : Request) (name : String) (status : Nat) : String :=
  "[SLOW] " ++ r.verb ++ " " ++ r.route ++ " endpoint=" ++ name ++ " status=" ++ toString status

/-- A reply, with a line for a slow request in front of the log. -/
def reply (s : Service) (elapsed : Double) (r : Request) (name : String) (status : Nat) (body : Option Json)
    (warning : Option String) : Reply :=
  ⟨status, body, (if elapsed.lt s.slowAfter then [] else [slowLine r name status]) ++ warning.toList⟩

/-- The reply of an endpoint, or the comparison that keeps it from replying. -/
def replyOf (s : Service) (elapsed : Double) (r : Request) (e : Endpoint) :
    Except Failure Answer → Except Incomparable Reply
  | .ok answer => .ok (s.reply elapsed r e.name 200 (some answer.body) answer.warning)
  | .error (.refused refusal) => .ok (s.reply elapsed r e.name refusal.status (some refusal.toJson) none)
  | .error (.incomparable cause) =>
    if s.testing then .error cause else .ok (s.reply elapsed r e.name 500 none none)

/-- Serves a request that takes the given number of milliseconds. -/
def serve (s : Service) (elapsed : Double) (r : Request) : StateM Memory (Except Incomparable Reply) :=
  match r.routed with
  | .endpoint e => do return s.replyOf elapsed r e (← (e.answer s.reader s.cap r.object?).run)
  | .headOnly e => return .ok (s.reply elapsed r e.name 200 none none)
  | .missing name status => return .ok (s.reply elapsed r name status none none)

end Service
end Curriculum
