import Parley.Settings

namespace Parley.Settings

-- What a setting may hold.
inductive Setting.Kind where
  | text
  | flag
  -- A natural number below a bound.
  | number (bound : Nat)
deriving DecidableEq, Repr

abbrev Setting.Kind.Content : Kind → Type
  | text => String
  | flag => Bool
  | number _ => Nat

-- The settings one by one.  A change of one leaves all others alone (`get_set_other`).  Lists are no settings in
-- this sense.
inductive Setting where
  | host
  | port
  | webSocketPath
  | maxConnections
  | maxMessageSize
  | outboundQueueCapacity
  | commandCapacity
  | pongWaitMs
  | userIdHeader
  | usernameHeader
  | allowQuery
  | rateLimitEnabled
  | perSecond
  | burst
  | metricsEnabled
  | metricsPort
  | reportIntervalMs
  | graceMs
  | writeGraceMs
deriving DecidableEq, Repr

namespace Setting

def all : List Setting :=
  [host, port, webSocketPath, maxConnections, maxMessageSize, outboundQueueCapacity, commandCapacity,
    pongWaitMs, userIdHeader, usernameHeader, allowQuery, rateLimitEnabled, perSecond, burst,
    metricsEnabled, metricsPort, reportIntervalMs, graceMs, writeGraceMs]

theorem mem_all (x : Setting) : x ∈ all := by cases x <;> decide

-- The names that lead to a setting: its section, if it is in one, and its own.
def path : Setting → List String
  | host => ["host"]
  | port => ["port"]
  | webSocketPath => ["transport", "websocket_path"]
  | maxConnections => ["limits", "max_connections"]
  | maxMessageSize => ["limits", "max_message_size"]
  | outboundQueueCapacity => ["limits", "outbound_queue_capacity"]
  | commandCapacity => ["limits", "command_capacity"]
  | pongWaitMs => ["heartbeat", "pong_wait_ms"]
  | userIdHeader => ["identity", "user_id_header"]
  | usernameHeader => ["identity", "username_header"]
  | allowQuery => ["identity", "allow_query"]
  | rateLimitEnabled => ["rate_limit", "enabled"]
  | perSecond => ["rate_limit", "per_second"]
  | burst => ["rate_limit", "burst"]
  | metricsEnabled => ["metrics", "enabled"]
  | metricsPort => ["metrics", "port"]
  | reportIntervalMs => ["metrics", "report_interval_ms"]
  | graceMs => ["shutdown", "grace_ms"]
  | writeGraceMs => ["shutdown", "write_grace_ms"]

def kind : Setting → Kind
  | host | webSocketPath | userIdHeader | usernameHeader => .text
  | allowQuery | rateLimitEnabled | metricsEnabled => .flag
  | port | metricsPort => .number (0x10000)
  | burst => .number (0x100000000)
  | maxConnections | maxMessageSize | outboundQueueCapacity | commandCapacity | pongWaitMs | perSecond
  | reportIntervalMs | graceMs | writeGraceMs => .number (0x10000000000000000)

def get : (x : Setting) → Settings → x.kind.Content
  | host, s => s.host
  | port, s => s.port
  | webSocketPath, s => s.transport.webSocketPath
  | maxConnections, s => s.limits.maxConnections
  | maxMessageSize, s => s.limits.maxMessageSize
  | outboundQueueCapacity, s => s.limits.outboundQueueCapacity
  | commandCapacity, s => s.limits.commandCapacity
  | pongWaitMs, s => s.heartbeat.pongWaitMs
  | userIdHeader, s => s.identity.userIdHeader
  | usernameHeader, s => s.identity.usernameHeader
  | allowQuery, s => s.identity.allowQuery
  | rateLimitEnabled, s => s.rateLimit.enabled
  | perSecond, s => s.rateLimit.perSecond
  | burst, s => s.rateLimit.burst
  | metricsEnabled, s => s.metrics.enabled
  | metricsPort, s => s.metrics.port
  | reportIntervalMs, s => s.metrics.reportIntervalMs
  | graceMs, s => s.shutdown.graceMs
  | writeGraceMs, s => s.shutdown.writeGraceMs

def set : (x : Setting) → x.kind.Content → Settings → Settings
  | host, v, s => { s with host := v }
  | port, v, s => { s with port := v }
  | webSocketPath, v, s => { s with transport.webSocketPath := v }
  | maxConnections, v, s => { s with limits.maxConnections := v }
  | maxMessageSize, v, s => { s with limits.maxMessageSize := v }
  | outboundQueueCapacity, v, s => { s with limits.outboundQueueCapacity := v }
  | commandCapacity, v, s => { s with limits.commandCapacity := v }
  | pongWaitMs, v, s => { s with heartbeat.pongWaitMs := v }
  | userIdHeader, v, s => { s with identity.userIdHeader := v }
  | usernameHeader, v, s => { s with identity.usernameHeader := v }
  | allowQuery, v, s => { s with identity.allowQuery := v }
  | rateLimitEnabled, v, s => { s with rateLimit.enabled := v }
  | perSecond, v, s => { s with rateLimit.perSecond := v }
  | burst, v, s => { s with rateLimit.burst := v }
  | metricsEnabled, v, s => { s with metrics.enabled := v }
  | metricsPort, v, s => { s with metrics.port := v }
  | reportIntervalMs, v, s => { s with metrics.reportIntervalMs := v }
  | graceMs, v, s => { s with shutdown.graceMs := v }
  | writeGraceMs, v, s => { s with shutdown.writeGraceMs := v }

theorem get_set (x : Setting) (v : x.kind.Content) (s : Settings) : x.get (x.set v s) = v := by
  cases x <;> rfl

theorem get_set_other {x y : Setting} (v : x.kind.Content) (s : Settings) (h : y ≠ x) :
    y.get (x.set v s) = y.get s := by
  cases x <;> cases y <;> first | rfl | exact absurd rfl h

-- Settings agree if they agree in each setting and in the allowed origins.
theorem ext_get {s t : Settings} (h : ∀ x : Setting, x.get s = x.get t)
    (ho : s.crossOrigin.allowedOrigins = t.crossOrigin.allowedOrigins) : s = t := by
  have hh := h .host
  have hp := h .port
  have h1 := h .webSocketPath
  have h2 := h .maxConnections
  have h3 := h .maxMessageSize
  have h4 := h .outboundQueueCapacity
  have h5 := h .commandCapacity
  have h6 := h .pongWaitMs
  have h7 := h .userIdHeader
  have h8 := h .usernameHeader
  have h9 := h .allowQuery
  have h10 := h .rateLimitEnabled
  have h11 := h .perSecond
  have h12 := h .burst
  have h13 := h .metricsEnabled
  have h14 := h .metricsPort
  have h15 := h .reportIntervalMs
  have h16 := h .graceMs
  have h17 := h .writeGraceMs
  obtain ⟨_, _, ⟨_⟩, ⟨_, _, _, _⟩, ⟨_⟩, ⟨_, _, _⟩, ⟨_, _, _⟩, ⟨_⟩, ⟨_, _, _⟩, ⟨_, _⟩⟩ := s
  obtain ⟨_, _, ⟨_⟩, ⟨_, _, _, _⟩, ⟨_⟩, ⟨_, _, _⟩, ⟨_, _, _⟩, ⟨_⟩, ⟨_, _, _⟩, ⟨_, _⟩⟩ := t
  simp_all [get]

-- The number that a setting holds, if it holds one.
def number? (x : Setting) (s : Settings) : Option Nat :=
  match x.kind, x.get s with
  | .number _, n => some n
  | .text, _ | .flag, _ => none

end Setting

-- Every number fits in 64 bits with a sign.
def fitSigned (s : Settings) : Bool :=
  Setting.all.all fun x => (x.number? s).all (· < 0x8000000000000000)

end Parley.Settings
