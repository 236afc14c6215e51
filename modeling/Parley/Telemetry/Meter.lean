import Parley.Admission.Slots
import Parley.Exchange
import Parley.Telemetry.Metric
import Parley.Transport.Duplex

namespace Parley.Telemetry

-- One quantity, or the part of it that a label tells apart.
structure Series where
  metric : Metric
  label : Option String := none
deriving DecidableEq, Repr

-- A meter keeps what was measured, and shows it line by line.
structure Meter where
  -- Whether each quantity is explained where it is shown.
  described : Bool := false
  values : List (Series × Int) := []
deriving DecidableEq, Repr

namespace Meter

-- What was measured; none if it never was.
def get? (m : Meter) (s : Series) : Option Int := m.values.lookup s

def put (m : Meter) (s : Series) (v : Int) : Meter :=
  { m with values := (s, v) :: m.values.filter fun (t, _) => t ≠ s }

-- Counts on; a counter has 64 bits.
def count (m : Meter) (s : Series) (n : Nat) : Meter :=
  m.put s (((m.get? s).getD 0 + n) % 0x10000000000000000)

-- Sets a counter, which never goes down.
def raise (m : Meter) (s : Series) (n : Nat) : Meter := m.put s (max ((m.get? s).getD 0) n)

-- A frame that has crossed a transport.
def frame (m : Meter) (octets : Nat) (direction : String) : Meter :=
  (m.count ⟨.framesTotal, direction⟩ 1).count ⟨.framesBytes, direction⟩ octets

def error (m : Meter) (kind : String) : Meter := m.count ⟨.errorsTotal, kind⟩ 1

-- What the exchange tells about itself.
def stats (m : Meter) (s : Stats) : Meter :=
  (((m.put ⟨.hubConnections, none⟩ s.connections).put ⟨.roomsActive, none⟩ s.rooms).raise
    ⟨.hubDeliveries, none⟩ s.deliveries).raise ⟨.hubEvictions, none⟩ s.evictions

-- What the server's halves of a transport have to do with a meter: a frame is counted once it was sent or
-- received, and a failure to receive is an error.
def observe (m : Meter) : Duplex.Operation → Duplex.Result → Meter
  | .sinkSend f, .done => m.frame f.size "outbound"
  | .streamReceive, .received (some f) => m.frame f.size "inbound"
  | .streamReceive, .failed _ => m.error "transport"
  | _, _ => m

-- The quantities that slots stand for, once there has been one.
def ofSlots (s : Admission.Slots) : List (Series × Int) :=
  if s.total = 0 then [] else [(⟨.connectionsTotal, none⟩, s.total), (⟨.connectionsActive, none⟩, s.shown)]

-- A label's value between quotes.
def escaped (s : String) : String :=
  String.ofList (s.toList.flatMap fun c =>
    if c = '\n' then ['\\', 'n'] else if c = '"' ∨ c = '\\' then ['\\', c] else [c])

def line : Series × Int → String
  | (⟨metric, none⟩, v) => s!"{metric.name} {v}"
  | (⟨metric, some label⟩, v) =>
    s!"{metric.name}\x7b{metric.labelName}=\"{escaped label}\"\x7d {v}"

-- The lines that come with a quantity.
def heading (m : Meter) (metric : Metric) : List String :=
  let kind := if metric.isGauge then "gauge" else "counter"
  (if m.described then [s!"# HELP {metric.name} {metric.help}"] else []) ++
    [s!"# TYPE {metric.name} {kind}"]

-- All that was measured, in ascending order of the lines.
def lines (m : Meter) (s : Admission.Slots) : List String :=
  let values := ofSlots s ++ m.values
  let metrics := (values.map fun (t, _) => t.metric).eraseDups
  (metrics.flatMap m.heading ++ values.map line).mergeSort fun a b => decide (a ≤ b)

end Meter
end Parley.Telemetry
