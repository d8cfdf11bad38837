import Curriculum.Json.Reader
import Curriculum.Service.Endpoint
import Curriculum.Text.Blank

/-! Requests and replies. A request is routed by its path, then by its method; its body counts only where
    the request says that it is JSON. -/

namespace Curriculum.Service

structure Request where
  method : String
  path : String
  contentType : Option String
  body : Option String
  deriving DecidableEq, Repr

namespace Request

def verb (r : Request) : String := r.method.map Char.toUpper

def route (r : Request) : String :=
  String.ofList (r.path.toList.takeWhile fun c => c ≠ '?' && c ≠ '#')

/-- Whether a content type, whatever its parameters, is JSON or some type built on it. -/
def isJsonType (contentType : String) : Bool :=
  let media := (Text.trimEnds Text.isBlank (contentType.toList.takeWhile (· ≠ ';'))).map Char.toLower
  media = "application/json".toList ||
    ("application/".toList.isPrefixOf media && "+json".toList.isSuffixOf media)

/-- The text of the body without the mark that may stand at its start. -/
def text? (r : Request) : Option String :=
  r.body.map fun body =>
    match body.toList with
    | '\ufeff' :: rest => String.ofList rest
    | _ => body

/-- The JSON object that the request brings. -/
def object? (r : Request) : Option Json := do
  guard (isJsonType (← r.contentType))
  match ← Json.ofText (← r.text?) with
  | .obj fields => some (.obj fields)
  | _ => none

end Request

/-! ### Routes -/

/-- Where a request goes: to an endpoint, perhaps without wanting its answer, or to no endpoint, and then
    with a status. A file of the service is asked for below its own path; there are none. -/
inductive Route
  | endpoint (e : Endpoint)
  | headOnly (e : Endpoint)
  | missing (name : String) (status : Nat)
  deriving DecidableEq, Repr

def Endpoint.verb : Endpoint → String
  | .health => "GET"
  | _ => "POST"

/-- The route for a verb at an endpoint. Every endpoint tells its options, and what can be got has a
    head. -/
def Endpoint.route (e : Endpoint) (verb : String) : Route :=
  if verb = e.verb then .endpoint e
  else if verb = "OPTIONS" || (verb = "HEAD" && e.verb = "GET") then .headOnly e
  else .missing "unknown" 405

/-- The path below which files are asked for. -/
def filesPath : List Char := "/static/".toList

def Request.routed (r : Request) : Route :=
  match Endpoint.paths.lookup r.route with
  | some e => e.route r.verb
  | none =>
    if filesPath.isPrefixOf r.route.toList && filesPath.length < r.route.length then
      if r.verb = "GET" || r.verb = "HEAD" then .missing "static" 404
      else if r.verb = "OPTIONS" then .missing "static" 200
      else .missing "unknown" 405
    else .missing "unknown" 404

/-! ### Replies -/

/-- A reply: its status, its JSON body if it has one, and the lines that the request puts into the log. -/
structure Reply where
  status : Nat
  body : Option Json
  log : List String

def securityHeaders : List (String × String) :=
  [("X-Frame-Options", "DENY"), ("X-Content-Type-Options", "nosniff"), ("Referrer-Policy", "same-origin")]

end Curriculum.Service
