import Parley.Transport.Frame
import Parley.Transport.Pipe

namespace Parley

inductive Half where
  | sink
  | stream
  | peer
deriving DecidableEq, Repr

-- A transport within memory: two bounded pipes, one from the peer to the server and one back.  The server holds a
-- sink and a stream, the ends of either pipe, and the peer holds the other two ends together.
structure Duplex where
  inbound : Pipe Frame
  outbound : Pipe Frame
  sink : Bool
  stream : Bool
  peer : Bool
deriving DecidableEq, Repr

namespace Duplex

-- A transport with pipes of the given capacity, if there are such pipes.
def new? (capacity : Nat) : Option Duplex :=
  if Pipe.IsCapacity capacity then some ⟨.new capacity, .new capacity, true, true, true⟩ else none

inductive Operation where
  | sinkSend (f : Frame)
  | sinkClose
  | streamReceive
  | peerSend (f : Frame)
  | peerReceive
  | peerDisconnect
  | drop (h : Half)
deriving DecidableEq, Repr

inductive Result where
  -- The half that should act has been dropped.
  | dropped
  -- The operation would wait, and is given up.
  | waits
  | done
  | failed (e : TransportFault)
  | received (f : Option Frame)
  -- Whether the half that was dropped was still there.
  | wasThere (b : Bool)
deriving DecidableEq, Repr

def sendResult (p : Pipe Frame) : Result :=
  match p.outcome with
  | .accepted => .done
  | .full => .waits
  | .closed => .failed .closed

def receiveResult : Pipe.Received Frame → Result
  | .item f => .received (some f)
  | .empty => .waits
  | .ended => .received none

def step (d : Duplex) : Operation → Result × Duplex
  | .sinkSend f =>
    if d.sink then (sendResult d.outbound, { d with outbound := d.outbound.send f })
    else (.dropped, d)
  | .sinkClose =>
    if d.sink then (.done, { d with outbound := d.outbound.closeWriter }) else (.dropped, d)
  | .streamReceive =>
    if d.stream then
      let (r, inbound) := d.inbound.receive
      (receiveResult r, { d with inbound })
    else (.dropped, d)
  | .peerSend f =>
    if d.peer then (sendResult d.inbound, { d with inbound := d.inbound.send f })
    else (.dropped, d)
  | .peerReceive =>
    if d.peer then
      let (r, outbound) := d.outbound.receive
      (receiveResult r, { d with outbound })
    else (.dropped, d)
  | .peerDisconnect =>
    if d.peer then (.done, { d with inbound := d.inbound.closeWriter }) else (.dropped, d)
  | .drop .sink =>
    (.wasThere d.sink, { d with sink := false, outbound := d.outbound.closeWriter })
  | .drop .stream =>
    (.wasThere d.stream, { d with stream := false, inbound := d.inbound.closeReader })
  | .drop .peer =>
    (.wasThere d.peer,
      { d with
        peer := false
        inbound := d.inbound.closeWriter
        outbound := d.outbound.closeReader })

end Duplex
end Parley
