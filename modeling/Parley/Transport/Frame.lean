namespace Parley

-- Frames, the units that a transport carries, and what can go wrong with them.
inductive Frame where
  | text (s : String)
  | binary (octets : List UInt8)
  | ping (octets : List UInt8)
  | pong (octets : List UInt8)
  | close
deriving DecidableEq, Repr

-- The number of octets that a frame carries.
def Frame.size : Frame → Nat
  | text s => s.utf8ByteSize
  | binary bs | ping bs | pong bs => bs.length
  | close => 0

inductive TransportFault where
  | closed
  | sendFailed (reason : String)
  | receiveFailed (reason : String)
deriving DecidableEq, Repr

def TransportFault.message : TransportFault → String
  | closed => "Connection closed"
  | sendFailed reason => "Send failed: " ++ reason
  | receiveFailed reason => "Receive failed: " ++ reason

-- A frame may carry at most `limit` octets.
structure Oversize where
  size : Nat
  limit : Nat
  exceeds : limit < size
deriving DecidableEq

def Oversize.message (o : Oversize) : String := s!"Frame size {o.size} exceeds maximum {o.limit}"

def oversize? (size limit : Nat) : Option Oversize :=
  if h : limit < size then some ⟨size, limit, h⟩ else none

end Parley
