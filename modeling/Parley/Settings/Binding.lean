import Parley.Network.Address
import Parley.Settings

namespace Parley.Settings

-- What should be a socket address.
def addressText (s : Settings) : String := s!"{s.host}:{s.port}"

-- The socket address at which the server listens, if the settings name one.
def address? (s : Settings) : Option Network.Address := Network.Address.read? s.addressText.toList

-- What the program says about its settings before it listens.
def announcement (s : Settings) : Except String String :=
  match s.address? with
  | some a => .ok s!"Listening on {a.text}"
  | none => .error s!"Invalid bind address {s.addressText}"

-- The limits and timers of every session.
def sessionLimits (s : Settings) : Session.Limits :=
  (((Session.Limits.default.withOutboundCapacity s.limits.outboundQueueCapacity).withFrameSize
    s.limits.maxMessageSize).withPongWait (millis s.heartbeat.pongWaitMs)).withWriteGrace
    (millis s.shutdown.writeGraceMs)

-- How long the sessions have to end, in nanoseconds.
def grace (s : Settings) : Nat := millis s.shutdown.graceMs

end Parley.Settings
