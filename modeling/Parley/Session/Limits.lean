namespace Parley

-- The nanoseconds of so many milliseconds.
def millis (n : Nat) : Nat := n * 1000000

namespace Session

-- Limits and timers of one session.  Durations are in nanoseconds.  Timers only tell whole milliseconds apart: the
-- silence and the grace that settings can name are as many of them, and so are the instants at which they begin
-- where time passes by milliseconds, so that these two run out when they are over.  The ping interval need not be
-- whole.
structure Limits where
  -- The most notices that may wait for the client.
  outboundCapacity : Nat
  -- The most octets of a frame that the client may send.
  frameSize : Nat
  -- How long the client may be silent: a pong breaks the silence.
  pongWait : Nat
  -- How often the client is probed.
  pingInterval : Nat
  -- How long a cancelled session may go on writing.
  writeGrace : Nat
deriving DecidableEq, Repr

namespace Limits

-- Probes go out after nine tenths of the silence that is allowed.
def pingIntervalFor (pongWait : Nat) : Nat := pongWait * 9 / 10

def default : Limits where
  outboundCapacity := 256
  frameSize := 64 * 1024
  pongWait := millis 60000
  pingInterval := pingIntervalFor (millis 60000)
  writeGrace := millis 1000

def withPongWait (l : Limits) (wait : Nat) : Limits :=
  { l with pongWait := wait, pingInterval := pingIntervalFor wait }

def withFrameSize (l : Limits) (size : Nat) : Limits := { l with frameSize := size }

def withOutboundCapacity (l : Limits) (capacity : Nat) : Limits :=
  { l with outboundCapacity := capacity }

def withWriteGrace (l : Limits) (grace : Nat) : Limits := { l with writeGrace := grace }

end Limits
end Session
end Parley
