import Parley.Exchange.Desk
import Parley.Session.Link
import Parley.Session.Reaction
import Parley.Session.Reader

namespace Parley

namespace Session

-- How far a session has come.
inductive Stage where
  -- Waiting for the exchange to admit it.
  | registering
  -- Admitted, and about to begin.
  | admitted
  -- Reader and writer are at work.
  | serving
  -- The reader has stopped; the writer may still be at work.
  | draining
  -- Turned away, with a close frame for the client that the transport may have had no room for.
  | refusing (r : Refusal) (asked : Bool)
  -- Turned away, and done with writing.
  | leaving (r : Refusal)
  -- Over, in order or because it was turned away.
  | finished (refused : Option Refusal)
  -- Over before it began: there is no mailbox as large as its limits ask for.
  | broken
deriving DecidableEq, Repr

-- What can be observed of the stage from outside, in the order in which it comes.
inductive Lifecycle where
  | opened
  | active
  | draining
  | closed
deriving DecidableEq, Repr

def Stage.lifecycle : Stage → Lifecycle
  | registering | admitted | refusing _ _ | leaving _ | broken => .opened
  | serving => .active
  | draining => .draining
  | finished _ => .closed

end Session

-- A session serves one client over one transport, from the registration with the exchange to the end.  Its reader
-- and its writer share nothing but the mailbox.  Whichever stops first asks the exchange to remove the connection;
-- the other one leaves it to them, and the session ends when both have stopped.
structure Session where
  id : ConnectionId
  identity : Identity
  limits : Session.Limits
  mailbox : Nat
  stage : Session.Stage
  reader : Session.Reader
  writer : Session.Writer
  -- Someone has taken it upon them to have the exchange remove the connection.
  unregistered : Bool
  link : Session.Link
deriving DecidableEq, Repr

namespace Session

def new (id : ConnectionId) (identity : Identity) (limits : Limits) (mailbox : Nat) (link : Link) :
    Session :=
  ⟨id, identity, limits, mailbox, .registering, .idle, .idle, false, link⟩

def IsFinished (s : Session) : Prop := s.stage.lifecycle = .closed ∨ s.stage = .broken

instance (s : Session) : Decidable s.IsFinished := by unfold IsFinished; infer_instance

def welcome (s : Session) : Session := { s with stage := .admitted }

-- Reader and writer begin.
def serve (s : Session) (now : Nat) : Session :=
  { s with stage := .serving, reader := .start s.limits now, writer := .start s.limits now }

def refuse (s : Session) (r : Refusal) : Session := { s with stage := .refusing r false }

-- Over: both directions of the transport are given up.
def finish (s : Session) (refused : Option Refusal) : Session :=
  { s with stage := .finished refused, link := s.link.closeOutbound.closeInbound }

-- Over before it began.
def break_ (s : Session) : Session := { s with stage := .broken, link := s.link.abandon }

-- What becomes of the removal of the connection when the reader or the writer has stopped: the first of
-- them sends for it.
def withdraw (s : Session) : Courier × Session :=
  (if s.unregistered then .idle else .carrying (.unregister s.id), { s with unregistered := true })

-- The reader has stopped.
def readerDone (s : Session) : Session :=
  let (k, s) := s.withdraw
  { s with reader := { s.reader.stop with courier := k }, stage := .draining }

-- The writer has stopped, and the transport is closed.
def writerDone (s : Session) : Session :=
  let (k, s) := s.withdraw
  { s with writer := { s.writer with phase := .leaving k }, link := s.link.closeOutbound }

-- The next instant at which a timer of the session fires, given its mailbox.
def timers (s : Session) (m : Mailbox) : List Nat :=
  let grace := m.cancelledAt.toList.map (· + s.limits.writeGrace)
  let writing : List Nat :=
    match s.writer.phase with
    | .choosing => grace ++ if m.cancelledAt = none then [wholeMillis s.writer.nextProbe] else []
    | .waiting probing => grace ++ if probing then [wholeMillis s.writer.nextProbe] else []
    | .sending _ _ => grace
    | .closing since => [since + s.limits.writeGrace]
    | .leaving _ | .done => []
  let reading : List Nat := if s.reader.IsListening then [s.reader.deadline] else []
  writing ++ reading

end Session
end Parley
