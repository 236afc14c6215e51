import Parley.Admission.Identity
import Parley.Admission.RateLimit
import Parley.Admission.Slots
import Parley.Http.Form
import Parley.Http.Handshake
import Parley.Http.Path
import Parley.Json.Printer
import Parley.Server.CrossOrigin

namespace Parley.Server

open Http Json

-- What a request is about.
inductive Route where
  | webSocket
  | health
  | onlineUsers
deriving DecidableEq, Repr

def healthPath : String := "/health"
def onlineUsersPath : String := "/api/v1/users/online"

-- Why there can be no front.
inductive FrontError where
  | origin
  | rateLimit
  -- The path for web sockets cannot be served beside the others, or the allowed origins contradict one
  -- another.
  | contradiction
  -- No desk has room for as many commands as the settings ask for.
  | capacity
deriving DecidableEq, Repr

def FrontError.message? : FrontError → Option String
  | origin => some "Invalid CORS origin"
  | rateLimit => some "Invalid rate limit configuration"
  | contradiction | capacity => none

-- The front of the server: which requests there are, who is let in, and what the others are told.  What it needs
-- to know of the service behind it, it is told with each request.
structure Front where
  settings : Settings
  origins : Origins
  webSocketPath : Pattern
  -- None if requests are not limited.
  quota : Option Admission.Quota
  ledger : Admission.Ledger
  slots : Admission.Slots
deriving DecidableEq, Repr

-- What becomes of a request.
inductive Decision where
  | reply (r : Http.Response)
  -- The exchange has to be asked who is online.
  | listUsers
  -- The connection becomes a web socket of this client, for which a slot is held.
  | accept (who : Identity)
deriving DecidableEq, Repr

namespace Front

def new (s : Settings) : Except FrontError Front := do
  let some origins := Origins.ofSettings? s.crossOrigin | .error .origin
  if origins.IsContradictory then .error .contradiction
  let path := s.transport.webSocketPath
  let some pattern := Pattern.ofPath? path.toList | .error .contradiction
  if path = healthPath ∨ path = onlineUsersPath then .error .contradiction
  let quota ←
    if s.rateLimit.enabled then
      match Admission.Quota.ofSettings? s.rateLimit with
      | some q => pure (some q)
      | none => .error .rateLimit
    else pure none
  return ⟨s, origins, pattern, quota, [], {}⟩

-- The paths that are the same for every server.
def fixedPaths : List (List Char) := [healthPath.toList, onlineUsersPath.toList]

def route? (f : Front) (path : List Char) : Option Route :=
  if path = healthPath.toList then some .health
  else if path = onlineUsersPath.toList then some .onlineUsers
  else if f.webSocketPath.fits path && !fixedPaths.any (f.webSocketPath.loses · path) then some .webSocket
  else none

def version : String := "0.1.0"

def health (f : Front) (shuttingDown : Bool) : Http.Response :=
  .json (Value.ofMembers
    [ ("status", .string (if shuttingDown then "shutting_down" else "ok")),
      ("version", .string version),
      ("connections", .nat f.slots.held) ]).text

-- What the query says about the client; none if it says something twice.
def claim? (r : Http.Request) : Except String Admission.Claim :=
  (Form.pairs r.query).foldlM (fun (c : Admission.Claim) (name, value) =>
    if name = "user_id" then
      if c.user.isSome then .error name else .ok { c with user := some value }
    else if name = "username" then
      if c.name.isSome then .error name else .ok { c with name := some value }
    else .ok c) {}

def welcome (f : Front) (shuttingDown : Bool) (r : Http.Request) : Front × Decision :=
  match Handshake.refusal? r, claim? r with
  | some response, _ => (f, .reply response)
  | none, .error name =>
    (f, .reply (.plain 400 s!"Failed to deserialize query string: duplicate field `{name}`"))
  | none, .ok claim =>
    if shuttingDown then (f, .reply (.plain 503 "Server shutting down"))
    else
      match Admission.identity? f.settings.identity r.headers claim with
      | none => (f, .reply (.plain 401 "Missing user identity"))
      | some who =>
        match f.slots.acquire? f.settings.limits.maxConnections with
        | none => (f, .reply (.plain 503 "Too many connections"))
        | some slots => ({ f with slots }, .accept who)

-- The slot of a connection that has ended.
def release (f : Front) : Front := { f with slots := f.slots.release }

-- Takes a cell for the request, if requests are limited; none if there is none.
def limit? (f : Front) (clock : Nat) (r : Http.Request) : Option Front :=
  match f.quota with
  | none => some f
  | some q => do return { f with ledger := ← f.ledger.take? q r.peer clock }

-- What becomes of a request that comes at `clock`.
def receive (f : Front) (clock : Nat) (shuttingDown : Bool) (r : Http.Request) : Front × Decision :=
  if r.method = "OPTIONS" then (f, .reply (.empty 200))
  else
    -- Every other request takes a cell, whether or not there is anything at its path.
    match f.limit? clock r with
    | none => (f, .reply (.empty 429))
    | some f =>
      match f.route? r.path with
      | none => (f, .reply (.empty 404))
      | some route =>
        if r.method ≠ "GET" ∧ r.method ≠ "HEAD" then (f, .reply (.empty 405))
        else
          match route with
          | .health => (f, .reply (f.health shuttingDown))
          | .onlineUsers => (f, .listUsers)
          | .webSocket => f.welcome shuttingDown r

-- The users that are online, as they are told to whoever asks.
def usersResponse (users : List UserInfo) : Http.Response :=
  .json (Value.ofMembers
    [ ("users", .array (users.map UserInfo.value)), ("count", .nat users.length) ]).text

-- The methods that are told wherever a route does not know the method.
def methodHeaders (f : Front) (r : Http.Request) : Headers :=
  if (f.route? r.path).isSome ∧ r.method ≠ "GET" ∧ r.method ≠ "HEAD" then
    [Response.header "allow" "GET,HEAD"]
  else []

-- A response as it leaves the server.
def complete (f : Front) (r : Http.Request) (response : Http.Response) : Http.Response :=
  let response := response.adding (f.origins.headers r)
  let response :=
    if r.method = "OPTIONS" then (response.adding Origins.optionHeaders).adding (f.methodHeaders r)
    else if response.status = 405 then response.adding (f.methodHeaders r)
    else response
  if r.method = "HEAD" then { response with body := "" } else response

end Front
end Parley.Server
