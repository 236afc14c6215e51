namespace Parley.Telemetry

inductive Metric where
  | connectionsTotal
  | connectionsActive
  | framesTotal
  | framesBytes
  | roomsActive
  | hubConnections
  | hubDeliveries
  | hubEvictions
  | errorsTotal
deriving DecidableEq, Repr

namespace Metric

def name : Metric → String
  | connectionsTotal => "chatter_connections_total"
  | connectionsActive => "chatter_connections_active"
  | framesTotal => "chatter_frames_total"
  | framesBytes => "chatter_frames_bytes"
  | roomsActive => "chatter_rooms_active"
  | hubConnections => "chatter_hub_connections"
  | hubDeliveries => "chatter_hub_deliveries_total"
  | hubEvictions => "chatter_hub_evictions_total"
  | errorsTotal => "chatter_errors_total"

def help : Metric → String
  | connectionsTotal => "Total number of connections since server start"
  | connectionsActive => "Current number of open WebSocket connections"
  | framesTotal => "Total number of frames by direction"
  | framesBytes => "Total frame bytes by direction"
  | roomsActive => "Current number of non-empty rooms"
  | hubConnections => "Connections registered with the hub"
  | hubDeliveries => "Notifications enqueued by the hub"
  | hubEvictions => "Connections evicted for a full outbound queue"
  | errorsTotal => "Total number of errors"

-- Whether the quantity may go down; otherwise it is a counter.
def isGauge : Metric → Bool
  | connectionsActive | roomsActive | hubConnections => true
  | connectionsTotal | framesTotal | framesBytes | hubDeliveries | hubEvictions | errorsTotal => false

-- By what the quantity is told apart further.
def labelName : Metric → String
  | errorsTotal => "type"
  | _ => "direction"

end Metric
end Parley.Telemetry
