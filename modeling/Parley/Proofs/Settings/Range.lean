import Parley.Proofs.Json.Record
import Parley.Settings.Loading

namespace Parley.Settings

open Json

variable {s t u defaults : Settings} {env : Environment} {x : Setting}

-- A number is below the bound.
def Setting.Kind.Holds : (k : Kind) → k.Content → Prop
  | number bound, n => n < bound
  | text, _ | flag, _ => True

instance : (k : Setting.Kind) → (v : k.Content) → Decidable (k.Holds v)
  | .number _, _ => inferInstanceAs (Decidable (_ < _))
  | .text, _ | .flag, _ => inferInstanceAs (Decidable True)

-- Every setting holds what it can hold.
def InRange (s : Settings) : Prop := ∀ x : Setting, x.kind.Holds (x.get s)

theorem InRange.set (h : s.InRange) {v : x.kind.Content} (hv : x.kind.Holds v) : (x.set v s).InRange := by
  intro y
  by_cases hy : y = x
  case pos =>
    cases hy
    exact (Setting.get_set _ v s).symm ▸ hv
  case neg => exact (Setting.get_set_other v s hy).symm ▸ h y

-- What comes from one or the other of two settings that hold what they can.
theorem InRange.either (hs : s.InRange) (ht : t.InRange) (h : ∀ x : Setting, x.get u = x.get s ∨ x.get u = x.get t) :
    u.InRange := fun x => (h x).elim (fun hx => hx ▸ hs x) fun hx => hx ▸ ht x

-- What a setting can hold comes back from its scalar.
theorem Scalar.convert?_ofContent {k : Setting.Kind} {v : k.Content} (h : k.Holds v) :
    (ofContent k v).convert? k = some v := by
  cases k
  case text | flag => rfl
  case number bound =>
    have hv : v < bound := h
    simp [ofContent, convert?, toNumber?, hv]

theorem Scalar.convert?_ofSetting (h : s.InRange) (x : Setting) : (ofSetting s x).convert? x.kind = some (x.get s) :=
  convert?_ofContent (h x)

theorem defaultPort_lt (env : Environment) : defaultPort env < 0x10000 := by
  simp only [defaultPort]
  cases env.lookup "CHATTER_PORT"
  case none => decide
  case some text =>
    simp only [Option.bind_eq_bind, Option.bind_some]
    cases Text.readUnsigned text.toList
    case none => decide
    case some n =>
      by_cases hn : n < 0x10000
      case pos => simp [hn]
      case neg => simp [hn]

theorem inRange_default (env : Environment) : (default env).InRange := by
  have hd : (default []).InRange := fun x => by cases x <;> decide
  exact (hd.set (x := .host) (v := defaultHost env) trivial).set (x := .port) (defaultPort_lt env)

theorem Transport.ensures_inRange : record.shape.Ensures fun v => InRange { default [] with transport := v } := by
  refine Record.ensures (inRange_default []) ?_
  simp only [record, List.forall_mem_cons]
  exact ⟨.of Shape.ensures_true fun _ _ _ h => h.set (x := .webSocketPath) trivial, List.forall_mem_nil _⟩

theorem Limits.ensures_inRange : record.shape.Ensures fun v => InRange { default [] with limits := v } := by
  refine Record.ensures (inRange_default []) ?_
  simp only [record, List.forall_mem_cons]
  exact ⟨.of Shape.ensures_natural fun _ hn _ h => h.set (x := .maxConnections) hn,
    .of Shape.ensures_natural fun _ hn _ h => h.set (x := .maxMessageSize) hn,
    .of Shape.ensures_natural fun _ hn _ h => h.set (x := .outboundQueueCapacity) hn,
    .of Shape.ensures_natural fun _ hn _ h => h.set (x := .commandCapacity) hn, List.forall_mem_nil _⟩

theorem Heartbeat.ensures_inRange : record.shape.Ensures fun v => InRange { default [] with heartbeat := v } := by
  refine Record.ensures (inRange_default []) ?_
  simp only [record, List.forall_mem_cons]
  exact ⟨.of Shape.ensures_natural fun _ hn _ h => h.set (x := .pongWaitMs) hn, List.forall_mem_nil _⟩

theorem IdentitySource.ensures_inRange : record.shape.Ensures fun v => InRange { default [] with identity := v } := by
  refine Record.ensures (inRange_default []) ?_
  simp only [record, List.forall_mem_cons]
  exact ⟨.of Shape.ensures_true fun _ _ _ h => h.set (x := .userIdHeader) trivial,
    .of Shape.ensures_true fun _ _ _ h => h.set (x := .usernameHeader) trivial,
    .of Shape.ensures_true fun _ _ _ h => h.set (x := .allowQuery) trivial, List.forall_mem_nil _⟩

theorem RateLimit.ensures_inRange : record.shape.Ensures fun v => InRange { default [] with rateLimit := v } := by
  refine Record.ensures (inRange_default []) ?_
  simp only [record, List.forall_mem_cons]
  exact ⟨.of Shape.ensures_true fun _ _ _ h => h.set (x := .rateLimitEnabled) trivial,
    .of Shape.ensures_natural fun _ hn _ h => h.set (x := .perSecond) hn,
    .of Shape.ensures_natural fun _ hn _ h => h.set (x := .burst) hn, List.forall_mem_nil _⟩

theorem Metrics.ensures_inRange : record.shape.Ensures fun v => InRange { default [] with metrics := v } := by
  refine Record.ensures (inRange_default []) ?_
  simp only [record, List.forall_mem_cons]
  exact ⟨.of Shape.ensures_true fun _ _ _ h => h.set (x := .metricsEnabled) trivial,
    .of Shape.ensures_natural fun _ hn _ h => h.set (x := .metricsPort) hn,
    .of Shape.ensures_natural fun _ hn _ h => h.set (x := .reportIntervalMs) hn, List.forall_mem_nil _⟩

theorem Shutdown.ensures_inRange : record.shape.Ensures fun v => InRange { default [] with shutdown := v } := by
  refine Record.ensures (inRange_default []) ?_
  simp only [record, List.forall_mem_cons]
  exact ⟨.of Shape.ensures_natural fun _ hn _ h => h.set (x := .graceMs) hn,
    .of Shape.ensures_natural fun _ hn _ h => h.set (x := .writeGraceMs) hn, List.forall_mem_nil _⟩

-- A section is taken over as a whole, beside what the settings hold elsewhere.
theorem ensures_inRange : (record env).shape.Ensures InRange := by
  refine Record.ensures (inRange_default env) ?_
  simp only [record, List.forall_mem_cons]
  refine ⟨.of Shape.ensures_true fun _ _ _ h => h.set (x := .host) trivial,
    .of Shape.ensures_natural fun _ hn _ h => h.set (x := .port) hn,
    .of Transport.ensures_inRange fun _ hv _ h => h.either hv ?_,
    .of Limits.ensures_inRange fun _ hv _ h => h.either hv ?_,
    .of Heartbeat.ensures_inRange fun _ hv _ h => h.either hv ?_,
    .of IdentitySource.ensures_inRange fun _ hv _ h => h.either hv ?_,
    .of RateLimit.ensures_inRange fun _ hv _ h => h.either hv ?_,
    .of Shape.ensures_true fun _ _ _ h => h.either h ?_,
    .of Metrics.ensures_inRange fun _ hv _ h => h.either hv ?_,
    .of Shutdown.ensures_inRange fun _ hv _ h => h.either hv ?_, List.forall_mem_nil _⟩
  all_goals exact fun x => by cases x <;> first | exact .inl rfl | exact .inr rfl

theorem inRange_of_ofToml {text : String} (h : ofToml env text = .ok s) : s.InRange := by
  simp only [ofToml] at h
  split at h
  case h_1 => cases h
  case h_2 =>
    split at h
    case h_1 hs => cases h; exact ensures_inRange hs
    case h_2 => cases h

end Parley.Settings
