import Parley.Proofs.Admission.Slots
import Parley.Proofs.Rehearsal.Run
import Parley.Server

namespace Parley.Server

open Admission

namespace Front

variable {f : Front} {sd : Bool} {clock : Nat} {r : Http.Request}

-- What it takes to be let in.
structure Admits (f : Front) (shuttingDown : Bool) (r : Http.Request) (who : Identity) : Prop where
  goesOn   : shuttingDown = false
  identity : ∃ claim, claim? r = .ok claim ∧ Admission.identity? f.settings.identity r.headers claim = some who
  room     : f.slots.held < f.settings.limits.maxConnections

-- A request lets somebody in, who gets a slot, or leaves the slots alone.
inductive Hears (f : Front) (sd : Bool) (r : Http.Request) : Front × Decision → Prop
  | admits {g who} (h : f.Admits sd r who) (hs : g.settings = f.settings)
      (ha : f.slots.acquire? f.settings.limits.maxConnections = some g.slots) : Hears f sd r (g, .accept who)
  | lists {g} (hs : g.settings = f.settings) (ha : g.slots = f.slots)
      (hr : f.route? r.path = some .onlineUsers) : Hears f sd r (g, .listUsers)
  | replies {g response} (hs : g.settings = f.settings) (ha : g.slots = f.slots) (hn : response.status ≠ 101) :
      Hears f sd r (g, .reply response)

theorem status_complete {response : Http.Response} : (f.complete r response).status = response.status := by
  by_cases ho : r.method = "OPTIONS" <;> by_cases hh : r.method = "HEAD" <;> by_cases hs : response.status = 405 <;>
    simp [complete, Http.Response.adding, ho, hh, hs]

theorem status_refusal {response : Http.Response} (h : Http.Handshake.refusal? r = some response) :
    response.status ≠ 101 := by
  simp only [Http.Handshake.refusal?] at h
  repeat' split at h
  all_goals cases h
  all_goals exact nofun

theorem hears_welcome : f.Hears sd r (f.welcome sd r) := by
  have hreply {response : Http.Response} (hn : response.status ≠ 101) : f.Hears sd r (f, .reply response) :=
    .replies rfl rfl hn
  simp only [welcome]
  split
  case h_1 hr => exact hreply (status_refusal hr)
  case h_2 => exact hreply nofun
  case h_3 claim _ hc =>
    split
    case isTrue => exact hreply nofun
    case isFalse hs =>
      split
      case h_1 => exact hreply nofun
      case h_2 who hi =>
        split
        case h_1 => exact hreply nofun
        case h_2 slots ha =>
          have hlt := (Slots.acquire?_eq_some_iff.mp ha).1
          exact .admits ⟨Bool.eq_false_iff.mpr hs, ⟨claim, hc, hi⟩, hlt⟩ rfl ha

theorem limit?_eq_some {g : Front} (h : f.limit? clock r = some g) : ∃ ledger, g = { f with ledger } := by
  simp only [limit?] at h
  split at h
  case h_1 => cases h; exact ⟨_, rfl⟩
  case h_2 =>
    obtain ⟨_, _, h⟩ := Option.bind_eq_some_iff.mp h
    cases h
    exact ⟨_, rfl⟩

-- The ledger has no bearing on who is let in.
theorem Hears.of_ledger {ledger : Ledger} {o : Front × Decision} (h : Hears { f with ledger } sd r o) :
    f.Hears sd r o := by
  cases h
  case admits h hs ha => exact .admits ⟨h.goesOn, h.identity, h.room⟩ hs ha
  case lists hs ha hr => exact .lists hs ha hr
  case replies hs ha hn => exact .replies hs ha hn

theorem hears_receive : f.Hears sd r (f.receive clock sd r) := by
  simp only [receive]
  split
  case isTrue => exact .replies rfl rfl nofun
  case isFalse =>
    split
    case h_1 => exact .replies rfl rfl nofun
    case h_2 g hg =>
      obtain ⟨ledger, rfl⟩ := limit?_eq_some hg
      split
      case h_1 => exact .replies rfl rfl nofun
      case h_2 route hr =>
        split
        case isTrue => exact .replies rfl rfl nofun
        case isFalse =>
          split
          case h_1 => exact .replies rfl rfl nofun
          case h_2 => exact .lists rfl rfl hr
          case h_3 => exact hears_welcome.of_ledger

-- A request for a web socket that is made as it should be, and that is not one too many.
structure Reads (f : Front) (clock : Nat) (r : Http.Request) : Prop where
  whole     : Http.Framing.fault? r.headers = none
  paced     : (f.limit? clock r).isSome
  path      : f.route? r.path = some .webSocket
  handshake : Http.Handshake.refusal? r = none

theorem Reads.method_eq (h : f.Reads clock r) : r.method = "GET" := by
  by_contra hm
  have hr := h.handshake
  simp [Http.Handshake.refusal?, hm] at hr

-- Whoever has what it takes, and asks as they should, is let in.
theorem Admits.receive_eq {who : Identity} (h : f.Admits sd r who) (hr : f.Reads clock r) :
    ∃ g, f.receive clock sd r = (g, .accept who) := by
  obtain ⟨g, hg⟩ := Option.isSome_iff_exists.mp hr.paced
  obtain ⟨ledger, rfl⟩ := limit?_eq_some hg
  obtain ⟨claim, hc, hi⟩ := h.identity
  obtain ⟨slots, ha⟩ := Option.isSome_iff_exists.mp (Slots.isSome_acquire?.mpr h.room)
  have hpath : Front.route? { f with ledger } r.path = some .webSocket := hr.path
  refine ⟨{ f with ledger, slots }, ?_⟩
  simp [receive, welcome, hr.method_eq, hg, hpath, hr.handshake, hc, h.goesOn, hi, ha]

-- A release has no bearing on anything but the slots.
theorem foldl_release (is : List Nat) :
    is.foldl (fun f _ => f.release) f = { f with slots := is.foldl (fun s _ => s.release) f.slots } := by
  induction is generalizing f
  case nil => rfl
  case cons hi => exact hi

end Front

-- What may become of a server: it is sent a request, the connection of someone who was let in becomes a web socket or
-- is lost before, or it goes on with whoever is there.
inductive Step : Server → Server → Type
  | request {s} (clock : Nat) (r : Http.Request) : Step s (s.answer clock r).1
  | upgrade {s} (k : Nat) (h : k < s.pending.length) : Step s (s.upgrade k)
  | lapse {s} (k : Nat) (h : k < s.pending.length) : Step s (s.lapse k)
  | proceed {s} (f : Rehearsal → Rehearsal) (h : s.service.Calm (f s.rehearsal).service) : Step s (s.change f)

inductive Run : Server → Server → Type
  | refl {s} : Run s s
  | step {s t u} (run : Run s t) (st : Step t u) : Run s u

-- How many were let in: they are told that the connection is to become a web socket.
def Step.admitted {s t : Server} : Step s t → Nat
  | @request s clock r => if (s.answer clock r).2.status = 101 then 1 else 0
  | _ => 0

-- How many of them never got a web socket.
def Step.lapsed {s t : Server} : Step s t → Nat
  | lapse .. => 1
  | _ => 0

def Run.admitted {s t : Server} : Run s t → Nat
  | refl => 0
  | step run st => run.admitted + st.admitted

def Run.lapsed {s t : Server} : Run s t → Nat
  | refl => 0
  | step run st => run.lapsed + st.lapsed

variable {s t s₀ : Server} {limit clock n m k : Nat} {settings : Settings} {r : Http.Request}
  {f : Rehearsal → Rehearsal} {who : Identity} {i : Nat}

def Step.settle : Step s s.settle :=
  .proceed _ Rehearsal.calm_settle

def Step.shutdown : Step s s.shutdown :=
  .proceed _ (.single .shutdown id)

def Run.advance (duration : Nat) : Run s (s.advance duration) :=
  .step (.step .refl (.proceed _ (Rehearsal.calm_advance duration))) .settle

theorem status_of_framing {status : Nat} (h : Http.Framing.fault? r.headers = some status) : status ≠ 101 := by
  have hbody (chunked : Option Bool) (length : Option Nat) (hs : Http.Headers)
      (h : Http.Framing.bodyFault? chunked length hs = some status) : status ≠ 101 := by
    fun_induction Http.Framing.bodyFault? chunked length hs <;> grind
  simp only [Http.Framing.fault?] at h
  split at h
  · cases h; exact nofun
  · exact hbody _ _ _ h

-- What becomes of a server with its answer: somebody is let in and gets a slot, or the slots stay as they are.
inductive Answers (s : Server) (r : Http.Request) : Server × Http.Response → Prop
  | admits {front who response} (h : s.front.Admits s.isShuttingDown r who) (hs : front.settings = s.front.settings)
      (ha : s.front.slots.acquire? s.front.settings.limits.maxConnections = some front.slots)
      (hr : response.status = 101) : Answers s r ({ s with front, pending := s.pending ++ [who] }, response)
  | lists {front response} (hs : front.settings = s.front.settings) (ha : front.slots = s.front.slots)
      (hr : s.front.route? r.path = some .onlineUsers) (hn : response.status ≠ 101) :
      Answers s r ({ s with front }.change fun r => (r.ask (.query .onlineUsers)).2, response)
  | refuses {front response} (hs : front.settings = s.front.settings) (ha : front.slots = s.front.slots)
      (hn : response.status ≠ 101) : Answers s r ({ s with front }, response)

theorem answers_respond : s.Answers r (s.respond clock r) := by
  have hr : s.front.Hears s.isShuttingDown r (s.front.receive clock s.isShuttingDown r) := Front.hears_receive
  simp only [Server.respond]
  generalize s.front.receive clock s.isShuttingDown r = o at hr
  cases hr
  case admits h hs ha => exact .admits h hs ha Front.status_complete
  case replies hs ha hn => exact .refuses hs ha (Front.status_complete.symm ▸ hn)
  case lists hs ha hr =>
    refine .lists hs ha hr ?_
    rw [Front.status_complete]
    split <;> exact nofun

theorem answers_answer : s.Answers r (s.answer clock r) := by
  simp only [Server.answer]
  split
  case h_2 => exact answers_respond
  case h_1 status h =>
    split at h
    case isTrue => exact .refuses rfl rfl (status_of_framing h)
    case isFalse => cases h

-- Everybody who is not over holds a slot, and so does everybody who was let in and has no session so far.  Nobody
-- else was ever let in, but those who never got a web socket.
structure Covers (s : Server) (limit admitted lapsed : Nat) : Prop where
  front  : s.front.settings.limits.maxConnections = limit
  steady : s.service.Steady
  begun  : ∀ i ∈ s.holders, i < s.service.sessions.length
  once   : s.holders.Nodup
  holds  : ∀ i c, s.service.sessions[i]? = some c → ¬ c.IsFinished → i ∈ s.holders
  slots  : ∃ (guards : List Nat) (run : Slots.Run limit s.front.slots guards),
    guards.length = s.holders.length + s.pending.length ∧ run.admitted = admitted
  each   : admitted = s.service.sessions.length + s.pending.length + lapsed

-- Nobody else does.
structure Fits (s : Server) (limit admitted lapsed : Nat) : Prop extends s.Covers limit admitted lapsed where
  going : ∀ i ∈ s.holders, s.isOver i = false

theorem isOver_eq_true_iff : s.isOver i = true ↔ ∃ c, s.service.sessions[i]? = some c ∧ c.IsFinished := by
  simp [isOver, Option.any_eq_true]

-- Whoever is over gives back the slot.
theorem Covers.tidy (h : s.Covers limit n m) : s.tidy.Fits limit n m := by
  have hfront : s.tidy.front = { s.front with
      slots := (s.holders.filter s.isOver).foldl (fun s _ => s.release) s.front.slots } :=
    Front.foldl_release _
  have hmem {i} : i ∈ s.tidy.holders ↔ i ∈ s.holders ∧ s.isOver i = false := by simp [Server.tidy, List.mem_filter]
  refine ⟨⟨?front, h.steady, ?begun, h.once.filter _, ?holds, ?slots, h.each⟩, fun i hi => (hmem.mp hi).2⟩
  case front => rw [hfront]; exact h.front
  case begun => exact fun i hi => h.begun i (hmem.mp hi).1
  case holds =>
    intro i c hc hf
    refine hmem.mpr ⟨h.holds i c hc hf, Bool.eq_false_iff.mpr fun ho => ?_⟩
    have ⟨c', hc', hf'⟩ := isOver_eq_true_iff.mp ho
    cases Option.some.inj (hc.symm.trans hc')
    exact hf hf'
  case slots =>
    have hlen : (s.holders.filter s.isOver).length + s.tidy.holders.length = s.holders.length :=
      List.length_append.symm.trans (List.filter_append_perm s.isOver s.holders).length_eq
    have hpending : s.tidy.pending = s.pending := rfl
    obtain ⟨guards, run, hg, ha⟩ := h.slots
    obtain ⟨guards', run', hg', ha'⟩ := run.drops (s.holders.filter s.isOver) (by omega)
    rw [hfront, hpending]
    exact ⟨guards', run', by omega, ha'.trans ha⟩

-- As long as nobody comes, nobody needs a slot who has none.
theorem Covers.change (h : s.Covers limit n m) (hc : s.service.Calm (f s.rehearsal).service) :
    (s.change f).Fits limit n m := by
  have ⟨hs, hl, hlen⟩ := hc.steady h.steady
  refine Covers.tidy ⟨h.front, hs, ?begun, h.once, ?holds, h.slots, hlen.symm ▸ h.each⟩
  case begun => exact fun i hi => Nat.lt_of_lt_of_eq (h.begun i hi) hlen.symm
  case holds =>
    intro i c hi hf
    have ⟨hlt, _⟩ := List.getElem?_eq_some_iff.mp hi
    have hi' := List.getElem?_eq_getElem (Nat.lt_of_lt_of_eq hlt hlen)
    refine h.holds i _ hi' fun hf' => ?_
    have ⟨c', hc', hf''⟩ := hl i _ hi' hf'
    cases Option.some.inj (hi.symm.trans hc')
    exact hf hf''

-- The slot of someone who was let in goes over to the session.
theorem Covers.upgrade (h : s.Covers limit n m) (hk : k < s.pending.length) : (s.upgrade k).Fits limit n m := by
  have hw := List.getElem?_eq_getElem hk
  have hlen : (s.pending.eraseIdx k).length + 1 = s.pending.length := by
    rw [List.length_eraseIdx_of_lt hk]
    omega
  let who := s.pending[k]
  have ⟨c, new, _, hc, _, _⟩ := s.service.connect_cases ⟨(s.service.sessions.length + 1).toUInt64⟩ who
    s.front.settings.sessionLimits .webSocket
  have hsessions := congrArg List.length hc
  rw [List.length_append, List.length_singleton] at hsessions
  rw [Server.upgrade, hw]
  refine Covers.tidy ⟨h.front, h.steady.connect.1, ?begun, ?once, ?holds, ?slots, ?each⟩
  case begun =>
    intro i hi
    refine Nat.lt_of_lt_of_eq (Nat.lt_succ_of_le ?_) hsessions.symm
    obtain hi | hi := List.mem_append.mp hi
    · exact Nat.le_of_lt (h.begun i hi)
    · exact Nat.le_of_eq (List.mem_singleton.mp hi)
  case once =>
    refine List.nodup_append.mpr ⟨h.once, List.pairwise_singleton .., fun i hi j hj => ?_⟩
    exact Nat.ne_of_lt (Nat.lt_of_lt_of_eq (h.begun i hi) (List.mem_singleton.mp hj).symm)
  case holds =>
    intro i c' hi hf
    have hi : (s.service.sessions ++ [c])[i]? = some c' := hc ▸ hi
    refine List.mem_append.mpr ((Nat.lt_or_ge i s.service.sessions.length).imp (fun hlt => ?_) fun hle => ?_)
    · rw [List.getElem?_append_left hlt] at hi
      exact h.holds i c' hi hf
    · have ⟨hlt, _⟩ := List.getElem?_eq_some_iff.mp hi
      rw [List.length_append, List.length_singleton] at hlt
      exact List.mem_singleton.mpr (Nat.le_antisymm (Nat.le_of_lt_succ hlt) hle)
  case slots =>
    obtain ⟨guards, run, hg, ha⟩ := h.slots
    refine ⟨guards, run, ?_, ha⟩
    change guards.length = (s.holders ++ [s.service.sessions.length]).length + (s.pending.eraseIdx k).length
    rw [List.length_append, List.length_singleton]
    omega
  case each =>
    have hn : n = s.service.sessions.length + 1 + (s.pending.eraseIdx k).length + m := by
      have := h.each
      omega
    exact hn.trans (congrArg (· + (s.pending.eraseIdx k).length + m) hsessions.symm)

-- Whoever never gets a web socket gives back the slot.
theorem Fits.lapse (h : s.Fits limit n m) (hk : k < s.pending.length) : (s.lapse k).Fits limit n (m + 1) := by
  have hlen : (s.pending.eraseIdx k).length + 1 = s.pending.length := by
    rw [List.length_eraseIdx_of_lt hk]
    omega
  rw [Server.lapse, List.getElem?_eq_getElem hk]
  refine ⟨⟨h.front, h.steady, h.begun, h.once, h.holds, ?slots, ?each⟩, h.going⟩
  case slots =>
    obtain ⟨guards, run, hg, ha⟩ := h.slots
    obtain ⟨guards', run', hg', ha'⟩ := run.drops [()] (by rw [List.length_singleton]; omega)
    refine ⟨guards', run', ?_, ha'.trans ha⟩
    change guards'.length = s.holders.length + (s.pending.eraseIdx k).length
    rw [List.length_singleton] at hg'
    omega
  case each =>
    have := h.each
    change n = s.service.sessions.length + (s.pending.eraseIdx k).length + (m + 1)
    omega

-- A request that lets nobody in leaves the slots to those who have them.
theorem Fits.hear {front : Front} (h : s.Fits limit n m) (hs : front.settings = s.front.settings)
    (ha : front.slots = s.front.slots) : Fits { s with front } limit n m where
  front := (congrArg (·.limits.maxConnections) hs).trans h.front
  steady := h.steady
  begun := h.begun
  once := h.once
  holds := h.holds
  slots := ha ▸ h.slots
  each := h.each
  going := h.going

-- Whoever is let in gets a slot.
theorem Fits.admit {front : Front} (h : s.Fits limit n m) (hs : front.settings = s.front.settings)
    (ha : s.front.slots.acquire? limit = some front.slots) :
    Fits { s with front, pending := s.pending ++ [who] } limit (n + 1) m := by
  have hlen : (s.pending ++ [who]).length = s.pending.length + 1 := List.length_append
  refine ⟨⟨(congrArg (·.limits.maxConnections) hs).trans h.front, h.steady, h.begun, h.once, h.holds, ?slots, ?each⟩,
    h.going⟩
  case slots =>
    obtain ⟨guards, run, hg, hadmitted⟩ := h.slots
    obtain ⟨guards', run', hg', ha'⟩ := run.exists_reserve ha
    refine ⟨guards', run', ?_, ha'.trans (congrArg (· + 1) hadmitted)⟩
    change guards'.length = s.holders.length + (s.pending ++ [who]).length
    omega
  case each =>
    have := h.each
    change n + 1 = s.service.sessions.length + (s.pending ++ [who]).length + m
    omega

theorem Fits.answer (h : s.Fits limit n m) :
    (s.answer clock r).1.Fits limit (n + if (s.answer clock r).2.status = 101 then 1 else 0) m := by
  have hanswers : s.Answers r (s.answer clock r) := answers_answer
  generalize s.answer clock r = o at hanswers
  cases hanswers
  case admits hs ha hr =>
    rw [h.front] at ha
    exact (if_pos hr).symm ▸ h.admit hs ha
  case lists hs ha _ hn =>
    have hcalm := Rehearsal.calm_ask (r := s.rehearsal) .onlineUsers
    exact (if_neg hn).symm ▸ (h.hear hs ha).toCovers.change (f := fun r => (r.ask (.query .onlineUsers)).2) hcalm
  case refuses hs ha hn => exact (if_neg hn).symm ▸ h.hear hs ha

theorem Step.fits (st : Step s t) (h : s.Fits limit n m) : t.Fits limit (n + st.admitted) (m + st.lapsed) := by
  cases st
  case request => exact h.answer
  case upgrade hk => exact h.toCovers.upgrade hk
  case lapse hk => exact h.lapse hk
  case proceed hc => exact h.toCovers.change hc

theorem Front.new_eq_ok {f : Front} (h : Front.new settings = .ok f) : f.settings = settings ∧ f.slots = {} := by
  simp only [Front.new, bind, Except.bind, pure, Except.pure] at h
  repeat' split at h
  all_goals cases h
  all_goals exact ⟨rfl, rfl⟩

theorem fits_new (h : Server.new settings = .ok s₀) : s₀.Fits settings.limits.maxConnections 0 0 := by
  simp only [Server.new, bind, Except.bind, pure, Except.pure] at h
  split at h
  case isTrue => cases h
  case isFalse =>
    split at h
    case h_1 => cases h
    case h_2 f hf =>
      cases h
      have ⟨hs, ha⟩ := Front.new_eq_ok hf
      have ⟨run, ht⟩ : ∃ run : Slots.Run settings.limits.maxConnections f.slots [], run.admitted = 0 :=
        ha ▸ ⟨.start, rfl⟩
      refine ⟨⟨?_, Service.steady_new, List.forall_mem_nil _, .nil, fun _ _ hc => ?_, ⟨[], run, rfl, ht⟩, rfl⟩,
        List.forall_mem_nil _⟩
      · exact congrArg (·.limits.maxConnections) hs
      · cases hc

theorem Run.fits (run : Run s t) (h : s.Fits limit n m) : t.Fits limit (n + run.admitted) (m + run.lapsed) := by
  induction run
  case refl => exact h
  case step run st hi =>
    rw [Run.admitted, Run.lapsed, ← Nat.add_assoc, ← Nat.add_assoc]
    exact st.fits hi

-- Every session has one slot until it is over, everyone who was let in has one before the session begins, and nobody
-- else has one.  Those who are let in are those who have what it takes, and who ask as they should; whoever is turned
-- away leaves no trace.
structure Accounts (s : Server) (limit admitted lapsed : Nat) : Prop where
  held     : s.front.slots.held = s.holders.length + s.pending.length
  le       : s.front.slots.held ≤ limit
  shown    : s.front.slots.shown = s.front.slots.held
  total    : s.front.slots.total = admitted
  each     : admitted = s.service.sessions.length + s.pending.length + lapsed
  once     : s.holders.Nodup
  holders  : ∀ i, i ∈ s.holders ↔ ∃ c, s.service.sessions[i]? = some c ∧ ¬ c.IsFinished
  admitted : ∀ clock r, (s.answer clock r).2.status = 101 → ∃ who, s.front.Admits s.isShuttingDown r who ∧
    (s.answer clock r).1.pending = s.pending ++ [who] ∧
    s.front.slots.acquire? limit = some (s.answer clock r).1.front.slots
  letIn    : ∀ clock r who, s.front.Reads clock r → s.front.Admits s.isShuttingDown r who →
    (s.answer clock r).2.status = 101
  refused  : ∀ clock r, s.front.route? r.path = some .webSocket → (s.answer clock r).2.status ≠ 101 →
    (s.answer clock r).1.front.slots = s.front.slots ∧ (s.answer clock r).1.pending = s.pending ∧
    (s.answer clock r).1.holders = s.holders ∧ (s.answer clock r).1.service = s.service

theorem Fits.accounts (h : s.Fits limit n m) : s.Accounts limit n m := by
  obtain ⟨guards, run, hg, ha⟩ := h.slots
  have hc := run.counts
  have hanswers (clock : Nat) (r : Http.Request) : s.Answers r (s.answer clock r) := answers_answer
  refine ⟨hc.held.trans hg, hc.le, hc.shown, hc.total.trans ha, h.each, h.once, fun i => ⟨fun hi => ?_, ?_⟩,
    fun clock r hr => ?admitted, fun clock r who hr hw => ?letIn, fun clock r hr hn => ?refused⟩
  · have hi' := List.getElem?_eq_getElem (h.begun i hi)
    refine ⟨_, hi', fun hf => ?_⟩
    exact nomatch (h.going i hi).symm.trans (isOver_eq_true_iff.mpr ⟨_, hi', hf⟩)
  · exact fun ⟨c, hc, hf⟩ => h.holds i c hc hf
  case admitted =>
    have ho := hanswers clock r
    generalize s.answer clock r = o at ho hr
    cases ho
    case admits _ who _ hw _ ha _ => exact ⟨who, hw, rfl, h.front ▸ ha⟩
    case lists hn | refuses hn => exact absurd hr hn
  case letIn =>
    obtain ⟨g, hg⟩ := hw.receive_eq hr
    simp only [Server.answer, hr.whole, ite_self, Server.respond, hg, Front.status_complete]
    rfl
  case refused =>
    have ho := hanswers clock r
    generalize s.answer clock r = o at ho hn
    cases ho
    case admits hr' => exact absurd hr' hn
    case lists hr' _ => cases hr.symm.trans hr'
    case refuses ha _ => exact ⟨ha, rfl, rfl, rfl⟩

-- Whatever tasks do with slots, a slot is held for each guard; in a server the guards are with the sessions, and with
-- those whose sessions are about to begin.
theorem slots_account :
    (∀ (limit : Nat) (slots : Slots) (guards : List Nat) (run : Slots.Run limit slots guards),
      slots.Counts limit guards run.admitted ∧
      ((slots.acquire? limit).isSome ↔ guards.length < limit) ∧
      (∀ g ∈ guards, slots.release.held + 1 = slots.held)) ∧
    (∀ (settings : Settings) (s₀ s : Server) (_ : Server.new settings = .ok s₀) (run : Run s₀ s),
      s.Accounts settings.limits.maxConnections run.admitted run.lapsed) := by
  refine ⟨fun limit slots guards run => ⟨run.counts, ?_, fun g hg => ?_⟩, fun settings s₀ s h run => ?_⟩
  · rw [Slots.isSome_acquire?, run.counts.held]
  · have hpos := List.length_pos_of_mem hg
    rw [← run.counts.held] at hpos
    exact Nat.sub_add_cancel hpos
  · have hfits := run.fits (fits_new h)
    rw [Nat.zero_add, Nat.zero_add] at hfits
    exact hfits.accounts

-- Two tasks hold a slot each, a third one gets none until one of them drops its guard.  In a server with room for two,
-- Ann and Bob are let in, and Carol is not; Ann's session begins, and Bob's connection is lost before his does.
theorem slots_account_of_two :
    (∃ (slots : Slots) (run : Slots.Run 2 slots [3, 2]), slots.Counts 2 [3, 2] run.admitted ∧ run.admitted = 3 ∧
      slots.acquire? 2 = none) ∧
    ∃ (s₀ s : Server) (run : Run s₀ s),
      Server.new { host := "localhost", port := 8080, limits := { maxConnections := 2 } } = .ok s₀ ∧
      run.admitted = 2 ∧ run.lapsed = 1 ∧ s.holders = [0] ∧ s.pending = [] ∧ s.front.slots = ⟨1, 1, 2⟩ ∧
      s.Accounts 2 2 1 := by
  let ask (target : String) : Http.Request := ⟨"GET", target, Http.Handshake.headers, .v4 [127, 0, 0, 1], true⟩
  refine ⟨?tasks, ?server⟩
  case tasks =>
    let run₂ : Slots.Run 2 ⟨2, 2, 2⟩ [2, 1] := .reserve (.reserve .start 1 List.not_mem_nil rfl) 2 (by decide) rfl
    let run : Slots.Run 2 ⟨2, 2, 3⟩ [3, 2] :=
      .reserve (.drop (.refuse run₂ rfl) (.swap 1 2 [])) 3 (by decide) rfl
    exact ⟨_, run, (slots_account.1 2 _ _ run).1, rfl, rfl⟩
  case server =>
    let s₀ : Server :=
      (Server.new { host := "localhost", port := 8080, limits := { maxConnections := 2 } }).toOption.get rfl
    let o₁ := s₀.answer 0 (ask "/ws?user_id=1&username=ann")
    let o₂ := o₁.1.answer 0 (ask "/ws?user_id=2&username=bob")
    let o₃ := o₂.1.answer 0 (ask "/ws?user_id=3&username=carol")
    let s₄ := o₃.1.upgrade 0
    let s := s₄.lapse 0
    have hnew : Server.new { host := "localhost", port := 8080, limits := { maxConnections := 2 } } = .ok s₀ := rfl
    have ⟨⟨ha, hb, hc⟩, ⟨hk, hk'⟩, hs⟩ : (o₁.2.status = 101 ∧ o₂.2.status = 101 ∧ o₃.2.status = 503) ∧
        (0 < o₃.1.pending.length ∧ 0 < s₄.pending.length) ∧
        s.holders = [0] ∧ s.pending = [] ∧ s.front.slots = ⟨1, 1, 2⟩ := by
      simp only [s, s₄, o₃, o₂, o₁, s₀, ask]
      decide +kernel
    let ann : Step s₀ o₁.1 := .request 0 _
    let bob : Step o₁.1 o₂.1 := .request 0 _
    let carol : Step o₂.1 o₃.1 := .request 0 _
    let run : Run s₀ s := .step (.step (.step (.step (.step .refl ann) bob) carol) (.upgrade 0 hk)) (.lapse 0 hk')
    have hn : run.admitted = 2 :=
      calc
        run.admitted = 0 + ann.admitted + bob.admitted + carol.admitted + 0 + 0 := rfl
        _ = 2 := by
          rw [show ann.admitted = 1 from if_pos ha, show bob.admitted = 1 from if_pos hb,
            show carol.admitted = 0 from if_neg (hc ▸ nofun)]
    have h : s.Accounts 2 run.admitted run.lapsed := slots_account.2 _ s₀ s hnew run
    rw [hn] at h
    exact ⟨s₀, s, run, hnew, hn, rfl, hs.1, hs.2.1, hs.2.2, h⟩

end Parley.Server
