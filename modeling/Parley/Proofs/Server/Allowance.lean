import Parley.Proofs.Admission.RateLimit
import Parley.Server.Front

namespace Parley

namespace Http

variable {r : Request} {response : Response}

theorem Handshake.status_ne_of_refusal? (h : refusal? r = some response) : response.status ≠ 429 := by
  simp only [refusal?] at h
  repeat' split at h
  all_goals cases h
  all_goals decide

end Http

namespace Server.Front

open Admission

-- A request, when it came, and what became of it.
structure Visit where
  clock : Nat
  request : Http.Request
  decision : Decision

namespace Visit

-- Whatever else became of it, the request was not too much.
def IsAdmitted (v : Visit) : Prop := v.decision ≠ .reply (.empty 429)

-- Whether the limiter is asked: requests for options are answered before.
def IsLimited (v : Visit) : Prop := v.request.method ≠ "OPTIONS"

instance : DecidablePred IsAdmitted := fun _ => inferInstanceAs (Decidable (¬ _))

instance : DecidablePred IsLimited := fun _ => inferInstanceAs (Decidable (¬ _))

-- The request is one of a peer, came within a span of time, and was let through.
structure Counts (v : Visit) (peer : Network.Ip) (start span : Nat) : Prop where
  peer     : v.request.peer = peer
  after    : start ≤ v.clock
  before   : v.clock ≤ start + span
  admitted : v.IsAdmitted

instance (v : Visit) (peer : Network.Ip) (start span : Nat) : Decidable (v.Counts peer start span) :=
  decidable_of_iff (v.request.peer = peer ∧ start ≤ v.clock ∧ v.clock ≤ start + span ∧ v.IsAdmitted)
    ⟨fun ⟨hp, ha, hb, hd⟩ => ⟨hp, ha, hb, hd⟩, fun ⟨hp, ha, hb, hd⟩ => ⟨hp, ha, hb, hd⟩⟩

end Visit

-- How many requests of a peer were let through within a span of time.
def admitted (log : List Visit) (peer : Network.Ip) (start span : Nat) : Nat :=
  log.countP fun v => v.Counts peer start span

def limited (log : List Visit) : List Visit := log.filter (·.IsLimited)

-- What becomes of a front as requests come, as slots are given back, and as peers are forgotten that have all their
-- cells.  Requests may come out of order, but none comes from before `swept`, when peers were forgotten last.
inductive Run (f₀ : Front) : Nat → List Visit → Front → Prop
  | refl : Run f₀ 0 [] f₀
  | receive {swept log f} (run : Run f₀ swept log f) (clock : Nat) (hs : swept ≤ clock) (sd : Bool)
      (r : Http.Request) : Run f₀ swept (log ++ [⟨clock, r, (f.receive clock sd r).2⟩]) (f.receive clock sd r).1
  | release {swept log f} (run : Run f₀ swept log f) : Run f₀ swept log f.release
  | sweep {swept log f} (run : Run f₀ swept log f) (clock : Nat) (hs : swept ≤ clock) (keep : Network.Ip → Bool)
      (hk : ∀ p, keep p = false → ∀ full ∈ f.ledger.lookup p, full ≤ clock) :
      Run f₀ clock log { f with ledger := f.ledger.filter fun e => keep e.1 }

variable {f f₀ : Front} {q : Quota} {settings : Settings} {clock start span swept : Nat} {sd : Bool} {r : Http.Request}
  {peer : Network.Ip} {log : List Visit}

-- What the limiter makes of a request: it is not asked, has no cell, or takes one for the peer.
inductive Meets (f : Front) (q : Quota) (clock : Nat) (r : Http.Request) : Front × Decision → Prop
  | passes {d} (hm : r.method = "OPTIONS") (hd : d ≠ .reply (.empty 429)) : Meets f q clock r (f, d)
  | waits (hm : r.method ≠ "OPTIONS") (ht : f.ledger.take? q r.peer clock = none) :
      Meets f q clock r (f, .reply (.empty 429))
  | takes {g d} (hm : r.method ≠ "OPTIONS") (ht : f.ledger.take? q r.peer clock = some g.ledger)
      (hq : g.quota = f.quota) (hd : d ≠ .reply (.empty 429)) : Meets f q clock r (g, d)

-- Nobody but the limiter says that it is too much.
theorem reply_ne {response : Http.Response} (h : response.status ≠ 429) :
    Decision.reply response ≠ .reply (.empty 429) :=
  fun heq => h (congrArg Http.Response.status (Decision.reply.inj heq))

theorem welcome_eq (f : Front) (sd : Bool) (r : Http.Request) :
    (f.welcome sd r).1.quota = f.quota ∧ (f.welcome sd r).1.ledger = f.ledger ∧
      (f.welcome sd r).2 ≠ .reply (.empty 429) := by
  simp only [welcome]
  split
  case h_1 h => exact ⟨rfl, rfl, reply_ne (Http.Handshake.status_ne_of_refusal? h)⟩
  case h_2 => exact ⟨rfl, rfl, reply_ne (show 400 ≠ 429 by decide)⟩
  case h_3 =>
    split
    case isTrue => exact ⟨rfl, rfl, reply_ne (show 503 ≠ 429 by decide)⟩
    case isFalse =>
      split
      case h_1 => exact ⟨rfl, rfl, reply_ne (show 401 ≠ 429 by decide)⟩
      case h_2 =>
        split
        case h_1 => exact ⟨rfl, rfl, reply_ne (show 503 ≠ 429 by decide)⟩
        case h_2 => exact ⟨rfl, rfl, nofun⟩

theorem limit?_eq (hq : f.quota = some q) :
    f.limit? clock r = (f.ledger.take? q r.peer clock).map fun ledger => { f with ledger } := by
  simp only [limit?, hq]
  cases f.ledger.take? q r.peer clock <;> rfl

theorem meets_receive (hq : f.quota = some q) (clock : Nat) (sd : Bool) (r : Http.Request) :
    f.Meets q clock r (f.receive clock sd r) := by
  simp only [receive, limit?_eq hq]
  split
  case isTrue hm => exact .passes hm (reply_ne (show 200 ≠ 429 by decide))
  case isFalse hm =>
    cases ht : f.ledger.take? q r.peer clock
    case none => exact .waits hm ht
    case some ledger =>
      have htakes {d : Decision} (hd : d ≠ .reply (.empty 429)) : f.Meets q clock r ({ f with ledger }, d) :=
        .takes hm ht rfl hd
      simp only [Option.map_some]
      split
      case h_1 => exact htakes (reply_ne (show 404 ≠ 429 by decide))
      case h_2 =>
        split
        case isTrue => exact htakes (reply_ne (show 405 ≠ 429 by decide))
        case isFalse =>
          split
          case h_1 => exact htakes (reply_ne (show 200 ≠ 429 by decide))
          case h_2 => exact htakes nofun
          case h_3 =>
            have ⟨hq', hl, hd⟩ := welcome_eq { f with ledger } sd r
            exact .takes hm (ht.trans (congrArg some hl.symm)) hq' hd

-- What a request means for one peer: it is let through with a cell of this peer, or has no bearing on the peer.
inductive Bears (f g : Front) (q : Quota) (peer : Network.Ip) (v : Visit) : Prop
  | takes {next} (ht : q.take? (f.ledger.lookup peer) v.clock = some next) (hl : g.ledger.lookup peer = some next)
      (hv : v.IsLimited) (ha : v.IsAdmitted) (hp : v.request.peer = peer)
  | apart (hl : g.ledger.lookup peer = f.ledger.lookup peer)
      (hv : ¬ (v.IsLimited ∧ v.IsAdmitted ∧ v.request.peer = peer))

theorem bears_receive (hq : f.quota = some q) (peer : Network.Ip) (clock : Nat) (sd : Bool) (r : Http.Request) :
    Bears f (f.receive clock sd r).1 q peer ⟨clock, r, (f.receive clock sd r).2⟩ := by
  have hm : f.Meets q clock r (f.receive clock sd r) := meets_receive hq clock sd r
  generalize f.receive clock sd r = o at hm
  cases hm
  case passes hm _ => exact .apart rfl fun hv => hv.1 hm
  case waits => exact .apart rfl fun hv => hv.2.1 rfl
  case takes hm ht _ hd =>
    have ⟨⟨_, hn, hl⟩, hothers⟩ := Ledger.take?_eq_some ht
    by_cases hp : r.peer = peer
    case pos => exact .takes (hp ▸ hn) (hp ▸ hl) hm hd hp
    case neg => exact .apart (hothers peer (Ne.symm hp)) fun hv => hp hv.2.2

theorem quota_receive (hq : f.quota = some q) : (f.receive clock sd r).1.quota = some q := by
  have hm : f.Meets q clock r (f.receive clock sd r) := meets_receive hq clock sd r
  generalize f.receive clock sd r = o at hm
  cases hm
  case passes | waits => exact hq
  case takes hq' _ => exact hq'.trans hq

theorem admitted_limited_append {v : Visit} : admitted (limited (log ++ [v])) peer start span =
    admitted (limited log) peer start span + if v.IsLimited ∧ v.Counts peer start span then 1 else 0 := by
  by_cases hl : v.IsLimited <;> by_cases hc : v.Counts peer start span <;> simp [admitted, limited, hl, hc]

theorem Run.quota (run : Run f₀ swept log f) (h : f₀.quota = some q) : f.quota = some q := by
  induction run
  case refl => exact h
  case receive hi => exact quota_receive hi
  case release hi | sweep hi => exact hi

theorem Run.spends (run : Run f₀ swept log f) (h : f₀.quota = some q) :
    q.Spends start span (f.ledger.lookup peer) swept (admitted (limited log) peer start span) := by
  induction run
  case refl => exact .zero
  case receive run clock hs sd r hi =>
    rw [admitted_limited_append]
    cases bears_receive (run.quota h) peer clock sd r
    case apart hl hv =>
      rw [if_neg fun hc => hv ⟨hc.1, hc.2.admitted, hc.2.peer⟩, hl]
      exact hi
    case takes ht hl hv ha hp =>
      rw [hl]
      split
      case isTrue hc => exact hi.take_within hs ht hc.2.after hc.2.before
      case isFalse => exact hi.take hs ht
  case release hi => exact hi
  case sweep clock hs keep hk hi =>
    rw [Ledger.lookup_filter]
    cases hp : keep peer
    case true => exact hi.later hs
    case false => exact hi.forget hs (hk peer hp)

theorem Run.owes (run : Run f₀ swept log f) (h : f₀.quota = some q) (hn : f₀.ledger.lookup peer = none) {latest : Nat}
    (hl : ∀ v ∈ log, v.clock ≤ latest) :
    q.Owes (f.ledger.lookup peer) latest (admitted (limited log) peer 0 latest) := by
  induction run
  case refl => exact fun _ hf => nomatch hn.symm.trans hf
  case receive run clock hs sd r hi =>
    have ⟨hlog, hv⟩ := List.forall_mem_append.mp hl
    have hc : clock ≤ latest := hv _ List.mem_cons_self
    rw [admitted_limited_append]
    cases bears_receive (run.quota h) peer clock sd r
    case apart hl hv =>
      rw [if_neg fun hc => hv ⟨hc.1, hc.2.admitted, hc.2.peer⟩, hl]
      exact hi hlog
    case takes ht hl hv ha hp =>
      rw [if_pos ⟨hv, hp, Nat.zero_le _, by simpa using hc, ha⟩, hl]
      exact (hi hlog).take hc ht
  case release hi => exact hi hl
  case sweep keep _ hi =>
    rw [Ledger.lookup_filter]
    cases hp : keep peer
    case true => exact hi hl
    case false => exact nofun

theorem new_limits (h : Front.new settings = .ok f₀) (he : settings.rateLimit.enabled)
    (hb : 1 ≤ settings.rateLimit.burst) :
    f₀.quota = some ⟨millis (max (1000 / max settings.rateLimit.perSecond 1) 1), settings.rateLimit.burst⟩ ∧
      f₀.ledger = [] := by
  have hq : Quota.ofSettings? settings.rateLimit =
      some ⟨millis (max (1000 / max settings.rateLimit.perSecond 1) 1), settings.rateLimit.burst⟩ :=
    if_neg (Nat.ne_of_gt hb)
  simp only [Front.new, if_pos he, hq, bind, Except.bind, pure, Except.pure] at h
  repeat' split at h
  all_goals cases h
  exact ⟨rfl, rfl⟩

theorem count_le {count burst period time : Nat} (hp : 0 < period)
    (h : count * millis period ≤ millis time + (burst + 1) * millis period) : count ≤ burst + time / period + 1 := by
  have hm (n : Nat) : n * millis period = n * period * 1000000 := (Nat.mul_assoc ..).symm
  have hle : count * period ≤ time + (burst + 1) * period := by
    rw [hm, hm, millis, ← Nat.add_mul] at h
    exact Nat.le_of_mul_le_mul_right h (by decide)
  calc
    count ≤ (time + (burst + 1) * period) / period := (Nat.le_div_iff_mul_le hp).mpr hle
    _ = time / period + (burst + 1)                := Nat.add_mul_div_right _ _ hp
    _ = burst + time / period + 1                  := by omega

-- A period that is not rounded, or is the least that there is, keeps to the rate.
theorem div_period_le {rate time : Nat} (h : rate ∣ 1000 ∨ 1000 ≤ rate) :
    time / max (1000 / rate) 1 ≤ time * rate / 1000 := by
  obtain ⟨period, hp⟩ | h := h
  case inl =>
    have hr : 0 < rate := Nat.pos_of_mul_pos_right (hp ▸ (by decide : 0 < 1000))
    have hpos : 0 < period := Nat.pos_of_mul_pos_left (hp ▸ (by decide : 0 < 1000))
    have heq : time / max (1000 / rate) 1 = time * rate / 1000 := by
      rw [hp, Nat.mul_div_cancel_left _ hr, Nat.max_eq_left hpos, Nat.mul_comm rate, Nat.mul_div_mul_right _ _ hr]
    exact Nat.le_of_eq heq
  case inr =>
    have hq : 1000 / rate ≤ 1 := Nat.div_le_of_le_mul (by omega)
    rw [Nat.max_eq_right hq, Nat.div_one, Nat.le_div_iff_mul_le (by decide)]
    exact Nat.mul_le_mul_left _ h

-- Of the requests of a peer that the limiter is asked about, no more are let through in any time than a burst, one for
-- each period, and one.  Where the rate divides a second into whole milliseconds, or asks for more, that is no more
-- than a burst, as many as the rate allows, and one.
theorem admitted_le_allowance (h : Front.new settings = .ok f₀) (he : settings.rateLimit.enabled)
    (hr : 1 ≤ settings.rateLimit.perSecond) (hb : 1 ≤ settings.rateLimit.burst) (run : Run f₀ swept log f)
    (peer : Network.Ip) (start time : Nat) :
    admitted (limited log) peer start (millis time) ≤
      settings.rateLimit.burst + time / max (1000 / settings.rateLimit.perSecond) 1 + 1 ∧
    (settings.rateLimit.perSecond ∣ 1000 ∨ 1000 ≤ settings.rateLimit.perSecond →
      admitted (limited log) peer start (millis time) ≤
        settings.rateLimit.burst + time * settings.rateLimit.perSecond / 1000 + 1) := by
  have ⟨hq, _⟩ := new_limits h he hb
  rw [Nat.max_eq_left hr] at hq
  have hle : admitted (limited log) peer start (millis time) ≤
      settings.rateLimit.burst + time / max (1000 / settings.rateLimit.perSecond) 1 + 1 :=
    count_le (Nat.le_max_right ..) (run.spends hq).bound
  exact ⟨hle, fun hd => Nat.le_trans hle (Nat.succ_le_succ (Nat.add_le_add_left (div_period_le hd) _))⟩

-- Whoever is turned away, later than all who came before, has been let through as often as a burst allows.
theorem burst_le_admitted (h : Front.new settings = .ok f₀) (he : settings.rateLimit.enabled)
    (hb : 1 ≤ settings.rateLimit.burst) (run : Run f₀ swept log f) (hl : ∀ v ∈ log, v.clock ≤ clock)
    (hd : (f.receive clock sd r).2 = .reply (.empty 429)) :
    settings.rateLimit.burst ≤ admitted (limited log) r.peer 0 clock := by
  have ⟨hq, hn⟩ := new_limits h he hb
  have hm := meets_receive (run.quota hq) clock sd r
  generalize f.receive clock sd r = o at hm hd
  cases hm
  case passes hd' | takes hd' => exact absurd hd hd'
  case waits ht => exact (run.owes hq (hn ▸ rfl) hl).burst_le (Ledger.take?_eq_none ht)

-- The requests of a peer that come just when a cell is back are all let through.
theorem exists_run (hq : f₀.quota = some q) (hn : f₀.ledger.lookup r.peer = none) (hb : 1 ≤ q.burst)
    (hm : r.method ≠ "OPTIONS") (count : Nat) :
    ∃ log f, Run f₀ 0 log f ∧
      f.ledger.lookup r.peer = (if count = 0 then none else some ((count + 1) * q.period)) ∧
      ∀ span, (count - q.burst) * q.period ≤ span → admitted (limited log) r.peer 0 span = count := by
  induction count
  case zero => exact ⟨[], f₀, .refl, hn, fun _ _ => rfl⟩
  case succ count hi =>
    obtain ⟨log, f, run, hl, ha⟩ := hi
    let clock := (count + 1 - q.burst) * q.period
    have htake : q.take? (f.ledger.lookup r.peer) clock = some ((count + 1 + 1) * q.period) :=
      hl ▸ Quota.take?_prompt hb
    refine ⟨_, _, run.receive clock (Nat.zero_le _) false r, ?_⟩
    have hmeets : f.Meets q clock r (f.receive clock false r) := meets_receive (run.quota hq) clock false r
    generalize f.receive clock false r = o at hmeets
    cases hmeets
    case passes hm' _ => exact absurd hm' hm
    case waits ht => exact nomatch (Ledger.take?_eq_none ht).symm.trans htake
    case takes ht _ hd =>
      have ⟨⟨_, hnext, hlookup⟩, _⟩ := Ledger.take?_eq_some ht
      cases Option.some.inj (hnext.symm.trans htake)
      refine ⟨hlookup, fun span hspan => ?_⟩
      have hearlier : (count - q.burst) * q.period ≤ clock :=
        Nat.mul_le_mul_right _ (Nat.sub_le_sub_right (Nat.le_succ _) _)
      rw [admitted_limited_append, ha span (Nat.le_trans hearlier hspan),
        if_pos ⟨hm, rfl, Nat.zero_le _, by simpa using hspan, hd⟩]

-- A period that is rounded falls short of what the rate asks for by some part of a second.
theorem mul_div_lt {rate : Nat} (h : ¬ rate ∣ 1000) : rate * (1000 / rate) < 1000 := by
  have hmod : 1000 % rate ≠ 0 := fun hmod => h (Nat.dvd_of_mod_eq_zero hmod)
  have := Nat.div_add_mod 1000 rate
  omega

-- Where the period is cut down to whole milliseconds, cells come back too soon: with a request whenever there is a
-- cell, more are let through than a burst, as many as the rate allows, and one.
theorem exists_allowance_lt (h : Front.new settings = .ok f₀) (he : settings.rateLimit.enabled)
    (hr : 1 ≤ settings.rateLimit.perSecond) (hlt : settings.rateLimit.perSecond < 1000)
    (hd : ¬ settings.rateLimit.perSecond ∣ 1000) (hb : 1 ≤ settings.rateLimit.burst) (hm : r.method ≠ "OPTIONS") :
    ∃ log f time, Run f₀ 0 log f ∧
      (settings.rateLimit.burst + 1) * 1000 + time * settings.rateLimit.perSecond <
        admitted (limited log) r.peer 0 (millis time) * 1000 := by
  have ⟨hq, hn⟩ := new_limits h he hb
  generalize settings.rateLimit.perSecond = rate at *
  generalize settings.rateLimit.burst = burst at *
  let period := 1000 / rate
  have hpos : 1 ≤ period := Nat.div_pos (Nat.le_of_lt hlt) hr
  rw [Nat.max_eq_left hr, Nat.max_eq_left hpos] at hq
  -- In as many periods as there are milliseconds in a second, and one more, the limiter is a cell ahead.
  obtain ⟨log, f, run, _, ha⟩ := exists_run (r := r) hq (hn ▸ rfl) hb hm (burst + 1001)
  have hspan : (burst + 1001 - burst) * millis period ≤ millis (1001 * period) := by
    rw [Nat.add_sub_cancel_left]
    exact Nat.le_of_eq (Nat.mul_assoc ..).symm
  have hshort : rate * period < 1000 := mul_div_lt hd
  refine ⟨log, f, 1001 * period, run, ?_⟩
  rw [ha _ hspan, Nat.mul_assoc, Nat.mul_comm period]
  omega

-- Settings that say nothing but how requests are limited.
def limiting (rate burst : Nat) : Settings :=
  { host := "localhost", port := 8080, rateLimit := { perSecond := rate, burst } }

def ofLimits (rate burst : Nat) : Front :=
  ⟨limiting rate burst, .any, [.text '/', .text 'w', .text 's'],
    some ⟨millis (max (1000 / max rate 1) 1), burst⟩, [], {}⟩

theorem new_limiting {rate burst : Nat} (hb : burst ≠ 0) :
    Front.new (limiting rate burst) = .ok (ofLimits rate burst) := by
  have hq : Quota.ofSettings? (limiting rate burst).rateLimit =
      some ⟨millis (max (1000 / max rate 1) 1), burst⟩ := if_neg hb
  have ho : Origins.ofSettings? (limiting rate burst).crossOrigin = some .any := rfl
  have hp : Http.Pattern.ofPath? "/ws".toList = some [.text '/', .text 'w', .text 's'] := rfl
  have hw : (limiting rate burst).transport.webSocketPath = "/ws" := rfl
  have hf : ¬ ("/ws" = healthPath ∨ "/ws" = onlineUsersPath) := by decide
  simp only [Front.new, hq, ho, hw, hp, if_neg hf]
  rfl

-- Here with a burst of two and four requests at once.
theorem admitted_le_allowance_flood :
    let r : Http.Request := ⟨"GET", "/health", [], .v4 [10, 0, 0, 1], true⟩
    ∃ f log, Front.new (limiting 5 2) = .ok (ofLimits 5 2) ∧ Run (ofLimits 5 2) 0 log f ∧
      log.map (·.request) = [r, r, r, r] ∧ admitted (limited log) r.peer 0 (millis 100) = 2 ∧
      admitted (limited log) r.peer 0 (millis 100) ≤ 2 + 100 * 5 / 1000 + 1 := by
  intro r
  have h : Front.new (limiting 5 2) = .ok (ofLimits 5 2) := new_limiting (by decide)
  have hz : 0 ≤ 0 := Nat.le_refl 0
  have idle : Run (ofLimits 5 2) 0 [] (ofLimits 5 2) := .refl
  have run := (((idle.receive 0 hz false r).receive 0 hz false r).receive 0 hz false r).receive 0 hz false r
  exact ⟨_, _, h, run, rfl, by decide +kernel,
    (admitted_le_allowance h rfl (by decide) (by decide) run r.peer 0 100).2 (.inl (by decide))⟩

-- It is not so at every rate: at 600 a second, where a cell should come back after 1667 microseconds, it comes back
-- after 1000.  Nor is it so at any other rate for which the period is cut down to whole milliseconds.
theorem not_admitted_le_allowance :
    (¬ ∀ (settings : Settings) (f₀ f : Front) (swept : Nat) (log : List Visit), Front.new settings = .ok f₀ →
      settings.rateLimit.enabled → 1 ≤ settings.rateLimit.perSecond → 1 ≤ settings.rateLimit.burst →
      Run f₀ swept log f → ∀ peer start time, admitted (limited log) peer start (millis time) ≤
        settings.rateLimit.burst + time * settings.rateLimit.perSecond / 1000 + 1) ∧
    (∀ (settings : Settings) (f₀ : Front), Front.new settings = .ok f₀ → settings.rateLimit.enabled →
      1 ≤ settings.rateLimit.perSecond → settings.rateLimit.perSecond < 1000 →
      ¬ settings.rateLimit.perSecond ∣ 1000 → 1 ≤ settings.rateLimit.burst →
      ∃ log f peer time, Run f₀ 0 log f ∧
        (settings.rateLimit.burst + 1) * 1000 + time * settings.rateLimit.perSecond <
          admitted (limited log) peer 0 (millis time) * 1000) := by
  let r : Http.Request := ⟨"GET", "/health", [], .v4 [10, 0, 0, 1], true⟩
  have hm : r.method ≠ "OPTIONS" := by decide
  constructor
  case left =>
    intro hall
    have hs (clock : Nat) : 0 ≤ clock := Nat.zero_le clock
    have idle : Run (ofLimits 600 1) 0 [] (ofLimits 600 1) := .refl
    have run := (((idle.receive 0 (hs _) false r).receive (millis 1) (hs _) false r).receive (millis 2) (hs _) false
      r).receive (millis 3) (hs _) false r
    have hle := hall _ _ _ _ _ (new_limiting (by decide)) rfl (by decide) (by decide) run r.peer 0 3
    exact absurd hle (by decide +kernel)
  case right =>
    intro settings f₀ h he hr hlt hd hb
    obtain ⟨log, f, time, run, hlt⟩ := exists_allowance_lt h he hr hlt hd hb hm
    exact ⟨log, f, r.peer, time, run, hlt⟩

end Server.Front
end Parley
