import Parley.Http.Framing
import Parley.Rehearsal
import Parley.Server.Front
import Parley.Settings.Binding

namespace Parley

-- The server: its front, the service behind it, and the clients of its web sockets.
structure Server where
  front : Server.Front
  rehearsal : Rehearsal
  -- The sessions that hold a slot.
  holders : List Nat
  -- Those who were let in, but whose connections have not become web sockets so far; a slot is held for each.
  pending : List Identity

namespace Server

def new (s : Settings) : Except FrontError Server := do
  if ¬ Desk.Allows s.limits.commandCapacity then .error .capacity
  return ⟨← Front.new s, .new Desk.defaultFarewell s.limits.commandCapacity, [], []⟩

def service (s : Server) : Service := s.rehearsal.service

def isShuttingDown (s : Server) : Bool := s.service.desk.shutdownAt.isSome

-- Whether a session is over.
def isOver (s : Server) (i : Nat) : Bool := (s.service.sessions[i]?).any fun c => decide c.IsFinished

-- Sessions that are over give their slots back.
def tidy (s : Server) : Server :=
  { s with
    front := (s.holders.filter s.isOver).foldl (fun f _ => f.release) s.front
    holders := s.holders.filter fun i => !s.isOver i }

def change (s : Server) (f : Rehearsal → Rehearsal) : Server := { s with rehearsal := f s.rehearsal }.tidy

-- Runs until nothing more can happen.
def settle (s : Server) : Server := s.change (·.settle true)

def advance (s : Server) (duration : Nat) : Server := (s.change (·.advance duration)).settle

def shutdown (s : Server) : Server := s.change (·.change Service.shutdown)

-- Begins the session of a client that was let in.
def begin (s : Server) (who : Identity) : Server :=
  let i := s.service.sessions.length
  let id : ConnectionId := ⟨(i + 1).toUInt64⟩
  let limits := s.front.settings.sessionLimits
  let r := (s.rehearsal.change (·.connect id who limits .webSocket)).join (.session i) true
  { s with rehearsal := r, holders := s.holders ++ [i] }.tidy

-- The connection of someone who was let in becomes a web socket.
def upgrade (s : Server) (k : Nat) : Server :=
  match s.pending[k]? with
  | some who => { s with pending := s.pending.eraseIdx k }.begin who
  | none => s

-- The connection of someone who was let in is lost before it becomes a web socket; the slot is given back.
def lapse (s : Server) (k : Nat) : Server :=
  match s.pending[k]? with
  | some _ => { s with front := s.front.release, pending := s.pending.eraseIdx k }
  | none => s

-- The answer to a request that can be read, and that comes at `clock`.
def respond (s : Server) (clock : Nat) (r : Http.Request) : Server × Http.Response :=
  let (front, decision) := s.front.receive clock s.isShuttingDown r
  let s := { s with front }
  match decision with
  | .reply response => (s, front.complete r response)
  | .listUsers =>
    let (result, rehearsal) := s.rehearsal.ask (.query .onlineUsers)
    let response :=
      match result with
      | .ok (some (.answer (.users us))) => Front.usersResponse us
      | .ok (some (.refused e)) | .error e => .plain 503 e.message
      | .ok _ => .plain 503 Refusal.closed.message
    (s.change fun _ => rehearsal, front.complete r response)
  | .accept who => ({ s with pending := s.pending ++ [who] }, front.complete r (.empty 101))

-- The answer to a request that comes at `clock`.
def answer (s : Server) (clock : Nat) (r : Http.Request) : Server × Http.Response :=
  match if r.switchable then Http.Framing.fault? r.headers else none with
  | some status => (s, .empty status)
  | none => s.respond clock r

-- The same, after which whoever was let in begins at once: after status 101 the connection is a web socket, and its
-- client is the last one.
def request (s : Server) (clock : Nat) (r : Http.Request) : Server × Http.Response :=
  let (t, response) := s.answer clock r
  (t.upgrade s.pending.length, response)

-- How many sessions are not over yet.
def running (s : Server) : Nat := (s.service.sessions.filter fun c => decide ¬ c.IsFinished).length

end Server
end Parley
