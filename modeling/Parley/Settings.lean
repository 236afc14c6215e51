import Parley.Json.Decoding
import Parley.Session.Limits
import Parley.Text.Digits

namespace Parley

namespace Settings

structure Transport where
  -- The path at which clients open their connections.
  webSocketPath : String := "/ws"
deriving DecidableEq, Repr

structure Limits where
  maxConnections : Nat := 100000
  maxMessageSize : Nat := 64 * 1024
  outboundQueueCapacity : Nat := 256
  commandCapacity : Nat := 1024
deriving DecidableEq, Repr

structure Heartbeat where
  pongWaitMs : Nat := 60000
deriving DecidableEq, Repr

-- Where the identity of a client is found.
structure IdentitySource where
  userIdHeader : String := "x-user-id"
  usernameHeader : String := "x-username"
  -- Whether the query of the address will do if there is no header.
  allowQuery : Bool := true
deriving DecidableEq, Repr

structure RateLimit where
  enabled : Bool := true
  perSecond : Nat := 5
  burst : Nat := 10
deriving DecidableEq, Repr

structure CrossOrigin where
  -- Empty for any origin.
  allowedOrigins : List String := []
deriving DecidableEq, Repr

structure Metrics where
  enabled : Bool := true
  port : Nat := 9090
  reportIntervalMs : Nat := 10000
deriving DecidableEq, Repr

structure Shutdown where
  graceMs : Nat := 5000
  writeGraceMs : Nat := 1000
deriving DecidableEq, Repr

end Settings

-- The settings of a server, section by section, and their JSON form.  Whatever is missing has a default; only the
-- defaults of host and port depend on the environment.
structure Settings where
  host : String
  port : Nat
  transport : Settings.Transport := {}
  limits : Settings.Limits := {}
  heartbeat : Settings.Heartbeat := {}
  identity : Settings.IdentitySource := {}
  rateLimit : Settings.RateLimit := {}
  crossOrigin : Settings.CrossOrigin := {}
  metrics : Settings.Metrics := {}
  shutdown : Settings.Shutdown := {}
deriving DecidableEq, Repr

-- The variables of the environment.
abbrev Environment := List (String × String)

namespace Settings

open Json

def defaultHost (env : Environment) : String := (env.lookup "CHATTER_HOST").getD "127.0.0.1"

def defaultPort (env : Environment) : Nat :=
  (do
    let s ← env.lookup "CHATTER_PORT"
    let n ← Text.readUnsigned s.toList
    if n < 0x10000 then some n else none).getD 8080

def default (env : Environment) : Settings where
  host := defaultHost env
  port := defaultPort env

def Transport.record : Record Transport where
  name := "struct TransportConfig"
  blank := {}
  fields := [.of "websocket_path" false Shape.string fun x s => { s with webSocketPath := x }]

def Limits.record : Record Limits where
  name := "struct LimitsConfig"
  blank := {}
  fields :=
    [ .of "max_connections" false Shape.size fun x s => { s with maxConnections := x },
      .of "max_message_size" false Shape.size fun x s => { s with maxMessageSize := x },
      .of "outbound_queue_capacity" false Shape.size
        fun x s => { s with outboundQueueCapacity := x },
      .of "command_capacity" false Shape.size fun x s => { s with commandCapacity := x } ]

def Heartbeat.record : Record Heartbeat where
  name := "struct HeartbeatConfig"
  blank := {}
  fields := [.of "pong_wait_ms" false Shape.word64 fun x s => { s with pongWaitMs := x }]

def IdentitySource.record : Record IdentitySource where
  name := "struct IdentityConfig"
  blank := {}
  fields :=
    [ .of "user_id_header" false Shape.string fun x s => { s with userIdHeader := x },
      .of "username_header" false Shape.string fun x s => { s with usernameHeader := x },
      .of "allow_query" false Shape.bool fun x s => { s with allowQuery := x } ]

def RateLimit.record : Record RateLimit where
  name := "struct RateLimitConfig"
  blank := {}
  fields :=
    [ .of "enabled" false Shape.bool fun x s => { s with enabled := x },
      .of "per_second" false Shape.word64 fun x s => { s with perSecond := x },
      .of "burst" false Shape.word32 fun x s => { s with burst := x } ]

def CrossOrigin.record : Record CrossOrigin where
  name := "struct CorsConfig"
  blank := {}
  fields :=
    [.of "allowed_origins" false (Shape.list Shape.string) fun x s => { s with allowedOrigins := x }]

def Metrics.record : Record Metrics where
  name := "struct MetricsConfig"
  blank := {}
  fields :=
    [ .of "enabled" false Shape.bool fun x s => { s with enabled := x },
      .of "port" false Shape.word16 fun x s => { s with port := x },
      .of "report_interval_ms" false Shape.word64 fun x s => { s with reportIntervalMs := x } ]

def Shutdown.record : Record Shutdown where
  name := "struct ShutdownConfig"
  blank := {}
  fields :=
    [ .of "grace_ms" false Shape.word64 fun x s => { s with graceMs := x },
      .of "write_grace_ms" false Shape.word64 fun x s => { s with writeGraceMs := x } ]

def record (env : Environment) : Record Settings where
  name := "struct Config"
  blank := default env
  fields :=
    [ .of "host" false Shape.string fun x s => { s with host := x },
      .of "port" false Shape.word16 fun x s => { s with port := x },
      .of "transport" false Transport.record.shape fun x s => { s with transport := x },
      .of "limits" false Limits.record.shape fun x s => { s with limits := x },
      .of "heartbeat" false Heartbeat.record.shape fun x s => { s with heartbeat := x },
      .of "identity" false IdentitySource.record.shape fun x s => { s with identity := x },
      .of "rate_limit" false RateLimit.record.shape fun x s => { s with rateLimit := x },
      .of "cors" false CrossOrigin.record.shape fun x s => { s with crossOrigin := x },
      .of "metrics" false Metrics.record.shape fun x s => { s with metrics := x },
      .of "shutdown" false Shutdown.record.shape fun x s => { s with shutdown := x } ]

-- The settings as JSON.
def value (s : Settings) : Value :=
  .ofMembers
    [ ("host", .string s.host), ("port", .nat s.port),
      ("transport", .ofMembers [("websocket_path", .string s.transport.webSocketPath)]),
      ("limits", .ofMembers
        [ ("max_connections", .nat s.limits.maxConnections),
          ("max_message_size", .nat s.limits.maxMessageSize),
          ("outbound_queue_capacity", .nat s.limits.outboundQueueCapacity),
          ("command_capacity", .nat s.limits.commandCapacity) ]),
      ("heartbeat", .ofMembers [("pong_wait_ms", .nat s.heartbeat.pongWaitMs)]),
      ("identity", .ofMembers
        [ ("user_id_header", .string s.identity.userIdHeader),
          ("username_header", .string s.identity.usernameHeader),
          ("allow_query", .bool s.identity.allowQuery) ]),
      ("rate_limit", .ofMembers
        [ ("enabled", .bool s.rateLimit.enabled), ("per_second", .nat s.rateLimit.perSecond),
          ("burst", .nat s.rateLimit.burst) ]),
      ("cors", .ofMembers
        [("allowed_origins", .array (s.crossOrigin.allowedOrigins.map Value.string))]),
      ("metrics", .ofMembers
        [ ("enabled", .bool s.metrics.enabled), ("port", .nat s.metrics.port),
          ("report_interval_ms", .nat s.metrics.reportIntervalMs) ]),
      ("shutdown", .ofMembers
        [ ("grace_ms", .nat s.shutdown.graceMs),
          ("write_grace_ms", .nat s.shutdown.writeGraceMs) ]) ]

end Settings
end Parley
