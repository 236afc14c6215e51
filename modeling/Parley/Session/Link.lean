import Parley.Transport.Frame
import Parley.Transport.Pipe
import Parley.Session.Writer

namespace Parley.Session

-- What reason a close frame over a web socket gives.
inductive Parting where
  -- None: it answers a close frame of the client, or gives the transport up.
  | bare
  -- The normal end of a session.
  | normal
deriving DecidableEq, Repr

-- The transport of a session, as seen from the server: frames of the client come in, frames for the client go out,
-- and either direction may fail.  A web socket answers a close frame at once and a ping when the server goes on
-- reading, without being told to, and carries nothing after a close frame.
structure Link where
  inbound : Pipe Frame
  outbound : Pipe Frame
  -- The next read fails.
  readFails : Bool
  -- Every write that begins from now on fails.
  writeFails : Bool
  -- Closing never ends.
  closeHangs : Bool
  isWebSocket : Bool
  -- The close frame that was sent over a web socket, if one was.
  parting : Option Parting
deriving DecidableEq, Repr

namespace Link

-- A transport in memory.
def new (capacity : Nat) : Link := ⟨.new capacity, .new capacity, false, false, false, false, none⟩

-- A transport with pipes of the given capacity, if there are such pipes.
def new? (capacity : Nat) : Option Link :=
  if Pipe.IsCapacity capacity then some (new capacity) else none

-- More frames than will ever be under way on a web socket.
def ample : Nat := 0x100000000

def webSocket : Link := { new ample with isWebSocket := true }

-- What becomes of a frame that is written now; `begun` says that its writing began before.
def outcome (k : Link) (begun : Bool) : Writer.Outcome :=
  if (k.writeFails ∧ ¬ begun) ∨ k.parting.isSome then .failed
  else
    match k.outbound.outcome with
    | .accepted => .sent
    | .full => .pending
    | .closed => .failed

-- The link after a close frame was sent.
def part (k : Link) (p : Parting) : Link :=
  { k with outbound := k.outbound.send .close, parting := k.parting <|> some p }

def write (k : Link) (f : Frame) (begun : Bool) : Link :=
  if k.outcome begun = .sent then
    if k.isWebSocket ∧ f = .close then k.part .normal else { k with outbound := k.outbound.send f }
  else k

-- Nothing more is written.  A web socket is not given up without a close frame.
def closeOutbound (k : Link) : Link :=
  let k := if k.isWebSocket ∧ k.parting = none then k.part .bare else k
  { k with outbound := k.outbound.closeWriter }

def closeInbound (k : Link) : Link := { k with inbound := k.inbound.closeReader }

-- The server lets go of both directions without another word.
def abandon (k : Link) : Link := { k with outbound := k.outbound.closeWriter }.closeInbound

-- What reading gives.
inductive Arrival where
  | frame (f : Frame)
  | ended
  | failed
  | nothing
deriving DecidableEq, Repr

-- The most octets of a ping, a pong or a close frame.
def controlLimit : Nat := 125

-- What a web socket does with a frame that comes in, before anyone else sees it.
def mind (k : Link) (f : Frame) : Arrival × Link :=
  match f with
  | .ping bs | .pong bs => if controlLimit < bs.length then (.failed, k) else (.frame f, k)
  -- One close frame in each direction is enough.
  | .close => (.frame f, if k.parting.isSome then k else k.part .bare)
  | .text _ | .binary _ => (.frame f, k)

-- What a web socket does about a frame once the server goes on reading.
def goOn (k : Link) (f : Frame) : Link :=
  match f with
  | .ping bs =>
    if k.isWebSocket ∧ k.parting = none then { k with outbound := k.outbound.send (.pong bs) } else k
  | .text _ | .binary _ | .pong _ | .close => k

def read (k : Link) : Arrival × Link :=
  if k.readFails then (.failed, k)
  else
    match k.inbound.receive with
    | (.item f, inbound) =>
      if k.isWebSocket then { k with inbound }.mind f else (.frame f, { k with inbound })
    | (.ended, _) => (.ended, k)
    | (.empty, _) => (.nothing, k)

end Link
end Parley.Session
