import Intake.Flow.Report

/-!
# Status pages

A worker shows over HTTP that it is alive, whether it is ready, and the state of its governor.
Every page is read with `GET`, or with `HEAD` for the answer without its body.  Where requests are
counted there is one more page for the collected metrics.
-/

namespace Intake

/-- An answer to a request. -/
structure StatusPage where
  status : Nat
  contentType : Option String
  /-- The methods that are allowed, when the method was not. -/
  allow : Option String
  body : String
  deriving DecidableEq, Repr

namespace StatusPage

/-- A page of plain text. -/
def plain (status : Nat) (body : String) : StatusPage :=
  ⟨status, some "text/plain; charset=utf-8", none, body⟩

/-- A page that is an object. -/
def object (value : Json) : StatusPage := ⟨200, some "application/json", none, value.compact⟩

/-- There is no such page. -/
def missing : StatusPage := ⟨404, none, none, ""⟩

/-- The page cannot be asked for in this way. -/
def notAllowed : StatusPage := ⟨405, none, some "GET,HEAD", ""⟩

/-- The part of a request target that names the page. -/
def path (target : String) : String :=
  String.ofList (target.toList.takeWhile fun c => c != '?' && c != '#')

/-- The page of a path. -/
def page? (counted shuttingDown : Bool) (governor : Governor) (path : String) :
    Option StatusPage :=
  if path = "/" ∨ path = "/_liveness" then some (plain 200 "import worker")
  else if path = "/_readiness" then
    some (if shuttingDown then plain 503 "shutting down" else plain 200 "ready")
  else if path = "/flow" then some (object governor.json)
  else if path = "/metrics" ∧ counted then some (plain 200 "")
  else none

/-- The answer to a request. -/
def respond (counted shuttingDown : Bool) (governor : Governor) (method target : String) :
    StatusPage :=
  match page? counted shuttingDown governor (path target) with
  | none => missing
  | some page =>
      if method = "GET" then page
      else if method = "HEAD" then { page with body := "" }
      else notAllowed

/-- What is reported about a request. -/
def notices (method target : String) (page : StatusPage) : List Notice :=
  let labels :=
    [("method", method), ("path", path target), ("status", toString page.status)]
  [.counted ⟨"http_requests_total", labels⟩, .timed ⟨"http_requests_duration_seconds", labels⟩]

end StatusPage
end Intake
