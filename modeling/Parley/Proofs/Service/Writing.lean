import Parley.Proofs.Service.Run
import Parley.Proofs.Session.Writing

namespace Parley

open Std

namespace Session

namespace Link

variable {k : Link} {f : Frame} {asked : Bool}

-- A frame that the transport takes comes last on its way to the client.
theorem queue_write :
    (k.write f asked).outbound.queue = k.outbound.queue ++ if k.outcome asked = .sent then [f] else [] := by
  by_cases ho : k.outcome asked = .sent
  case neg => simp [write, ho]
  case pos =>
    have hs : k.outbound.outcome = .accepted := by
      simp only [outcome] at ho
      split at ho
      case isTrue => cases ho
      case isFalse => split at ho <;> first | assumption | cases ho
    simp only [write, if_pos ho]
    split
    case isTrue h => simp [part, Pipe.send, hs, h.2]
    case isFalse => simp [Pipe.send, hs]

theorem writable_send {p : Pipe Frame} : (p.send f).writable = p.writable := by
  unfold Pipe.send
  split <;> rfl

theorem writable_write : (k.write f asked).outbound.writable = k.outbound.writable := by
  unfold write
  split
  case isTrue => split <;> exact writable_send
  case isFalse => rfl

end Link

-- What the transport takes of a writer that asks it to take the frame in hand.
def carried (c : Session) : List Frame :=
  match c.writer.phase with
  | .sending f asked => if c.link.outcome asked = .sent then [f] else []
  | .choosing | .waiting _ | .closing _ | .leaving _ | .done => []

-- How the frames that a writer has handed over go with those that its transport has taken: these are all but the one
-- in hand; once the transport is given up, that one may be lost.
def Writer.Phase.Conveys (handed carried : List Frame) : Writer.Phase → Prop
  | choosing | waiting _           => handed = carried
  | sending f _                    => handed = carried ++ [f]
  | closing _ | leaving _ | done => ∃ lost, handed = carried ++ lost ∧ lost.length ≤ 1

theorem Writer.conveys_sent? {w w' : Writer} {l : Limits} {now : Nat} {m : Mailbox} {f : Frame} {asked : Bool}
    {o : Outcome} {handed carried : List Frame} (hs : w.sent? l now m f asked o = some w')
    (h : (Writer.Phase.sending f asked).Conveys handed carried) :
    w'.phase.Conveys (handed ++ w'.phase.fresh?.toList) (carried ++ if o = .sent then [f] else []) := by
  obtain rfl : handed = carried ++ [f] := h
  have hlost (since : Nat) : (Writer.Phase.closing since).Conveys (carried ++ [f] ++ []) (carried ++ []) :=
    ⟨[f], by simp, Nat.le_refl _⟩
  simp only [sent?] at hs
  split at hs
  case h_1 =>
    cases hs
    dsimp only
    split
    case isTrue => exact ⟨[], rfl, Nat.zero_le _⟩
    case isFalse => exact List.append_nil _
  case h_2 => cases hs; exact hlost now
  case h_3 =>
    split at hs
    case isTrue => cases hs; exact hlost now
    case isFalse =>
      split at hs <;> cases hs
      exact (List.append_nil _).trans (by rw [if_neg (by decide), List.append_nil])

end Session

-- A writer with its mailbox.
def Session.station (c : Session) (m : Mailbox) : Session.Station := ⟨c.writer.phase, m, c.unregistered⟩

namespace Service

-- A session of the service, with its mailbox.
structure Shows (s : Service) (i k : Nat) (c : Session) (m : Mailbox) : Prop where
  session : s.sessions[i]? = some c
  number  : c.mailbox = k
  mailbox : s.desk.exchange.mailboxes[k]? = some m

-- Whatever leaves alone the writer of a session and its mailbox.
structure Spares (s : Service) (i k : Nat) (t : Service) : Prop where
  session : ∀ c, s.sessions[i]? = some c → ∃ c', t.sessions[i]? = some c' ∧ c'.writer = c.writer ∧
    c'.mailbox = c.mailbox ∧ (c.unregistered = true → c'.unregistered = true)
  mailbox : t.desk.exchange.mailboxes[k]? = s.desk.exchange.mailboxes[k]?

-- The writer of session `i` takes a step, something happens to mailbox `k`, which it reads, or neither.
inductive Writing.Event (i k : Nat) : Service → Service → Type
  | write {s t} (h : s.stepWriter i = some t) : Event i k s t
  | arrive {s} (n : Notice) : Event i k s (s.changeMailbox k (·.put n))
  | lend {s} : Event i k s (s.changeMailbox k Mailbox.lend)
  | reply {s} (n : Notice) : Event i k s (s.changeMailbox k (·.reply n))
  | giveBack {s} : Event i k s (s.changeMailbox k Mailbox.giveBack)
  | shut {s} : Event i k s (s.changeMailbox k Mailbox.release)
  | cancel {s} : Event i k s (s.changeMailbox k (·.cancel s.now))
  | elsewhere {s t} (h : s.Spares i k t) : Event i k s t

inductive Writing (i k : Nat) : Service → Service → Type
  | refl {s} : Writing i k s s
  | step {s t u} : Writing i k s t → Writing.Event i k t u → Writing i k s u

variable {s t u : Service} {i k : Nat} {c c' : Session} {m m' : Mailbox} {f : Frame}

-- The clock goes on.
theorem spares_passTo (time : Nat) : s.Spares i k (s.passTo time) :=
  ⟨fun c h => ⟨c, h, rfl, rfl, id⟩, rfl⟩

-- Transports may do as they like.
theorem spares_changeLink (j : Nat) (g : Session.Link → Session.Link) : s.Spares i k (s.changeLink j g) := by
  simp only [changeLink]
  split
  case h_2 => exact ⟨fun c h => ⟨c, h, rfl, rfl, id⟩, rfl⟩
  case h_1 d hd =>
    refine ⟨fun c h => ?_, rfl⟩
    by_cases hij : j = i
    case neg => exact ⟨c, (List.getElem?_set_ne hij).trans h, rfl, rfl, id⟩
    case pos =>
      subst hij
      cases Option.some.inj (hd.symm.trans h)
      exact ⟨_, List.getElem?_set_self (List.getElem?_eq_some_iff.mp h).1, rfl, rfl, id⟩

theorem Shows.setSession (h : s.Shows i k c m) (hk : c'.mailbox = c.mailbox) :
    (s.setSession i c').Shows i k c' m :=
  ⟨List.getElem?_set_self (List.getElem?_eq_some_iff.mp h.session).1, hk.trans h.number, h.mailbox⟩

theorem Shows.changeMailbox {g : Mailbox → Mailbox} (h : s.Shows i k c m) :
    (s.changeMailbox k g).Shows i k c (g m) := by
  refine ⟨h.session, h.number, ?_⟩
  rw [Service.changeMailbox, changeExchange, Exchange.getElem?_changeMailbox, if_pos rfl, h.mailbox]
  rfl

theorem Shows.takeFrame (h : s.Shows i k c m) :
    (s.takeFrame i c f).Shows i k { c with writer := c.writer.take c.limits s.now f } (m.without f) := by
  have hs : (s.setSession i { c with writer := c.writer.take c.limits s.now f }).Shows i k _ m := h.setSession rfl
  obtain ⟨_, rfl, _⟩ := h
  cases f
  case text => exact hs.changeMailbox
  all_goals exact hs

-- Where a step of the writer leads.
theorem Shows.does (h : s.Shows i k c m) (hw : s.stepWriter i = some t) :
    ∃ c' m' fs n, t.Shows i k c' m' ∧ (c.station m).Does (c'.station m') fs n := by
  have hk := h.number
  subst hk
  have hbox : s.mailbox c.mailbox = m := by rw [Service.mailbox, h.mailbox]; rfl
  have ⟨c₀, hc, hw⟩ := Option.bind_eq_some_iff.mp hw
  cases Option.some.inj (h.session.symm.trans hc)
  simp only [hbox] at hw
  split at hw
  case h_1 hp | h_2 hp =>
    have hprobing := congrArg (Session.Writer.Phase.probing? m) hp
    split at hw
    case h_1 =>
      cases hw
      exact ⟨_, m, _, _, h.setSession rfl, .giveUp hprobing s.now⟩
    case h_2 f hf =>
      cases hw
      exact ⟨_, _, _, _, h.takeFrame, .take hprobing (hf ▸ Session.Writer.chooses_await)⟩
    case h_3 => cases hw <;> exact ⟨_, m, _, _, h.setSession rfl, .wait hprobing⟩
  case h_3 f asked hp =>
    have ⟨w, hs, hw⟩ := Option.bind_eq_some_iff.mp hw
    cases hw
    have hset : (s.setSession i { c with writer := w, link := c.link.write f asked }).Shows i _ _ m :=
      h.setSession rfl
    simp only [Session.Writer.sent?] at hs
    split at hs
    case h_1 =>
      cases hs
      by_cases hf : f = .close
      case pos => exact ⟨_, m, _, _, hset, by simpa [hf] using .stop hp s.now⟩
      case neg => exact ⟨_, m, _, _, hset, by simpa [hf] using .sent hp hf⟩
    case h_2 =>
      cases hs
      exact ⟨_, m, _, _, hset, .stop hp s.now⟩
    case h_3 =>
      split at hs
      case isTrue =>
        cases hs
        exact ⟨_, m, _, _, hset, .stop hp s.now⟩
      case isFalse =>
        split at hs <;> cases hs
        exact ⟨_, m, _, _, hset, .ask hp⟩
  case h_4 hp =>
    split at hw
    case isTrue => cases hw
    case isFalse =>
      cases hw
      exact ⟨_, _, _, _, h.changeMailbox.setSession rfl, .leave hp _ s.now⟩
  case h_5 hp =>
    cases hw
    exact ⟨_, _, _, _, h.changeMailbox.setSession rfl, .cease hp⟩
  case h_6 j _ hp =>
    obtain ⟨⟨news, u⟩, hf, hw⟩ := Option.bind_eq_some_iff.mp hw
    cases hw
    have hu : u.Shows i c.mailbox c (j.tend m) := by
      refine ⟨(congrArg (·[i]?) (forward_cases hf).1).trans h.session, rfl, ?_⟩
      rw [exchange_forward hf, Exchange.getElem?_changeMailbox, if_pos rfl, h.mailbox]
      rfl
    exact ⟨_, _, _, _, hu.setSession rfl, .send hp _⟩
  case h_7 => cases hw

-- What a step of the writer of session `i` makes of its transport, and of the frame that it has in hand.
structure Conveys (t : Service) (i : Nat) (c c' : Session) (handed carried : List Frame) : Prop where
  session : t.sessions[i]? = some c'
  frames  : c'.writer.phase.Conveys (handed ++ c'.writer.phase.fresh?.toList) (carried ++ c.carried)
  taken   : c.writer.phase.closings = 0 → c'.link.outbound.queue = c.link.outbound.queue ++ c.carried ∧
    c'.link.outbound.writable = c.link.outbound.writable
  closed  : c.writer.phase.closings = 1 → c'.link = c.link.closeOutbound

theorem conveys_stepWriter {handed carried : List Frame} (hw : s.stepWriter i = some t) (hi : s.sessions[i]? = some c)
    (h : c.writer.phase.Conveys handed carried) : ∃ c', t.Conveys i c c' handed carried := by
  have ⟨hlt, _⟩ := List.getElem?_eq_some_iff.mp hi
  have hset {u : Service} {c' : Session} (hs : u.sessions = s.sessions.set i c') : u.sessions[i]? = some c' :=
    hs ▸ List.getElem?_set_self hlt
  -- The transport is left alone.
  have hquiet {u : Service} {d : Session} (hs : u.sessions = s.sessions.set i d) (hl : d.link = c.link)
      (hk : c.carried = []) (hn : c.writer.phase.closings = 0)
      (hf : d.writer.phase.Conveys (handed ++ d.writer.phase.fresh?.toList) carried) :
      ∃ c', u.Conveys i c c' handed carried := by
    refine ⟨d, hset hs, by rw [hk, List.append_nil]; exact hf, fun _ => ?_, fun h => ?_⟩
    · rw [hl, hk, List.append_nil]
      exact ⟨rfl, rfl⟩
    · rw [hn] at h
      cases h
  have ⟨c₀, hc, hw⟩ := Option.bind_eq_some_iff.mp hw
  cases Option.some.inj (hi.symm.trans hc)
  simp only at hw
  split at hw
  case h_1 hp | h_2 hp =>
    have hk : c.carried = [] := by simp only [Session.carried, hp]
    have hn : c.writer.phase.closings = 0 := hp ▸ rfl
    rw [hp] at h
    obtain rfl : handed = carried := h
    split at hw
    case h_1 =>
      cases hw
      exact hquiet rfl rfl hk hn ⟨[], rfl, Nat.zero_le _⟩
    case h_2 f _ =>
      cases hw
      exact hquiet (d := { c with writer := c.writer.take c.limits s.now f }) (by cases f <;> rfl) rfl hk hn rfl
    case h_3 => cases hw <;> exact hquiet rfl rfl hk hn (List.append_nil _)
  case h_3 f asked hp =>
    have ⟨w, hs, hw⟩ := Option.bind_eq_some_iff.mp hw
    cases hw
    rw [hp] at h
    have hk : c.carried = if c.link.outcome asked = .sent then [f] else [] := by simp only [Session.carried, hp]
    refine ⟨_, hset rfl, ?_, fun _ => ⟨hk ▸ Session.Link.queue_write, Session.Link.writable_write⟩, fun hn => ?_⟩
    case refine_1 => exact hk ▸ Session.Writer.conveys_sent? hs h
    case refine_2 =>
      rw [hp] at hn
      cases hn
  case h_4 hp =>
    have hk : c.carried = [] := by simp only [Session.carried, hp]
    rw [hp] at h
    split at hw
    case isTrue => cases hw
    case isFalse =>
      cases hw
      refine ⟨_, hset rfl, ?_, fun hn => ?_, fun _ => rfl⟩
      case refine_1 => simpa [hk, Session.writerDone, Session.Writer.Phase.Conveys, Session.Writer.Phase.fresh?] using h
      case refine_2 =>
        rw [hp] at hn
        cases hn
  case h_5 hp =>
    cases hw
    rw [hp] at h
    refine hquiet rfl rfl (by simp only [Session.carried, hp]) (hp ▸ rfl) ?_
    simpa [Session.Writer.Phase.Conveys, Session.Writer.Phase.fresh?] using h
  case h_6 hp =>
    obtain ⟨⟨news, u⟩, hf, hw⟩ := Option.bind_eq_some_iff.mp hw
    cases hw
    rw [hp] at h
    refine hquiet (congrArg (List.set · i _) (forward_cases hf).1) rfl (by simp only [Session.carried, hp])
      (hp ▸ rfl) ?_
    simpa [Session.Writer.Phase.Conveys, Session.Writer.Phase.fresh?] using h
  case h_7 => cases hw

-- How far the writer of a session has come, if there is such a session.
def phase? (s : Service) (i : Nat) : Option Session.Writer.Phase := s.sessions[i]?.map (·.writer.phase)

namespace Writing.Event

-- What comes into the mailbox.
def enqueued {s t : Service} : Event i k s t → List Notice
  | arrive n                                                  => if 0 < (s.mailbox k).vacancy then [n] else []
  | reply n                                                   => if (s.mailbox k).Keeps then [n] else []
  | write _ | lend | giveBack | shut | cancel | elsewhere _ => []

-- What is handed to the transport.
def handed {s t : Service} : Event i k s t → List Frame
  | write _                                                               => ((t.phase? i).bind (·.fresh?)).toList
  | arrive _ | lend | reply _ | giveBack | shut | cancel | elsewhere _ => []

-- How often closing the transport begins.
def closings {s t : Service} : Event i k s t → Nat
  | write _                                                               => ((t.phase? i).map (·.closings)).getD 0
  | arrive _ | lend | reply _ | giveBack | shut | cancel | elsewhere _ => 0

theorem follows (e : Event i k s t) (h : s.Shows i k c m) :
    ∃ c' m', t.Shows i k c' m' ∧
      ((c.station m).Does (c'.station m') e.handed e.closings ∧ e.enqueued = [] ∨
        (c.station m).Meets (c'.station m') e.enqueued ∧ e.handed = [] ∧ e.closings = 0) := by
  have hm : s.mailbox k = m := by rw [mailbox, h.mailbox]; rfl
  cases e
  case write hw =>
    have ⟨c', m', fs, n, ht, hd⟩ := h.does hw
    refine ⟨c', m', ht, .inl ⟨?_, rfl⟩⟩
    have ⟨hf, hn⟩ := hd.eq_fresh
    have hp : t.phase? i = some c'.writer.phase := congrArg (Option.map _) ht.session
    simp only [handed, closings, hp, Option.bind_some, Option.map_some, Option.getD_some]
    exact hf ▸ hn ▸ hd
  case arrive n => exact ⟨c, _, h.changeMailbox, .inr ⟨by simpa [enqueued, hm] using .arrive n, rfl, rfl⟩⟩
  case reply n => exact ⟨c, _, h.changeMailbox, .inr ⟨by simpa [enqueued, hm] using .reply n, rfl, rfl⟩⟩
  case lend => exact ⟨c, _, h.changeMailbox, .inr ⟨.lend, rfl, rfl⟩⟩
  case giveBack => exact ⟨c, _, h.changeMailbox, .inr ⟨.giveBack, rfl, rfl⟩⟩
  case shut => exact ⟨c, _, h.changeMailbox, .inr ⟨.shut, rfl, rfl⟩⟩
  case cancel => exact ⟨c, _, h.changeMailbox, .inr ⟨.cancel s.now, rfl, rfl⟩⟩
  case elsewhere hs =>
    have ⟨c', hc, hw, hk, hu⟩ := hs.session c h.session
    refine ⟨c', m, ⟨hc, hk.trans h.number, hs.mailbox.trans h.mailbox⟩, .inr ⟨?_, rfl, rfl⟩⟩
    have he : c'.station m = { c.station m with unregistered := c'.unregistered } := by
      simp [Session.station, hw]
    exact he ▸ .rest hu

-- What the transport takes.
def carried {s t : Service} : Event i k s t → List Frame
  | @write _ _ s _ _                                                       => ((s.sessions[i]?).map (·.carried)).getD []
  | arrive _ | lend | reply _ | giveBack | shut | cancel | elsewhere _ => []

-- How often the transport is closed.
def closed {s t : Service} : Event i k s t → Nat
  | @write _ _ s _ _                                                       => ((s.phase? i).map (·.closings)).getD 0
  | arrive _ | lend | reply _ | giveBack | shut | cancel | elsewhere _ => 0

theorem conveys {handed carried : List Frame} (e : Event i k s t) (h : s.Shows i k c m) (h' : t.Shows i k c' m')
    (hf : c.writer.phase.Conveys handed carried) :
    c'.writer.phase.Conveys (handed ++ e.handed) (carried ++ e.carried) ∧
      c.writer.phase.closings + e.closings = e.closed + c'.writer.phase.closings := by
  have hsame (hw : c'.writer = c.writer) :
      c'.writer.phase.Conveys (handed ++ []) (carried ++ []) ∧
        c.writer.phase.closings + 0 = 0 + c'.writer.phase.closings := by
    rw [List.append_nil, List.append_nil, hw, Nat.zero_add]
    exact ⟨hf, rfl⟩
  cases e
  case write hw =>
    have ⟨c₁, ht⟩ := conveys_stepWriter hw h.session hf
    cases Option.some.inj (h'.session.symm.trans ht.session)
    simpa [Event.handed, Event.carried, Event.closings, Event.closed, phase?, h.session, h'.session] using ht.frames
  case elsewhere hs =>
    have ⟨c₁, hc, hw, _⟩ := hs.session c h.session
    cases Option.some.inj (h'.session.symm.trans hc)
    exact hsame hw
  all_goals
    cases Option.some.inj (h'.session.symm.trans h.session)
    exact hsame rfl

end Writing.Event

namespace Writing

def enqueued {s t : Service} : Writing i k s t → List Notice
  | refl     => []
  | step w e => w.enqueued ++ e.enqueued

def handed {s t : Service} : Writing i k s t → List Frame
  | refl     => []
  | step w e => w.handed ++ e.handed

def closings {s t : Service} : Writing i k s t → Nat
  | refl     => 0
  | step w e => w.closings + e.closings

-- What the transport takes in the course of it.
def carried {s t : Service} : Writing i k s t → List Frame
  | refl     => []
  | step w e => w.carried ++ e.carried

-- How often the transport is closed.
def closed {s t : Service} : Writing i k s t → Nat
  | refl     => 0
  | step w e => w.closed + e.closed

-- All frames that are handed over are written to the transport in their order, but for the one in hand, and for one
-- that may be lost when the transport is given up.  Whenever the writer goes about closing the transport, it does so.
theorem conveys (w : Writing i k s t) (h : s.Shows i k c m) (hp : c.writer.phase = .choosing) :
    ∃ c' m', t.Shows i k c' m' ∧ c'.writer.phase.Conveys w.handed w.carried ∧
      w.closings = w.closed + c'.writer.phase.closings := by
  induction w
  case refl => exact ⟨c, m, h, by rw [hp]; rfl, by rw [hp]; rfl⟩
  case step w e hi =>
    have ⟨c₁, m₁, h₁, hf, hn⟩ := hi
    have ⟨c₂, m₂, h₂, _⟩ := e.follows h₁
    have ⟨hf', hn'⟩ := e.conveys h₁ h₂ hf
    refine ⟨c₂, m₂, h₂, hf', ?_⟩
    simp only [closings, closed]
    omega

theorem accounts (w : Writing i k s t) (h : s.Shows i k c m) (hp : c.writer.phase = .choosing) :
    ∃ c' m', t.Shows i k c' m' ∧
      (c'.station m').Accounts (m.pipe.queue ++ w.enqueued) w.handed w.closings := by
  induction w
  case refl =>
    have hprobing := congrArg (Session.Writer.Phase.probing? m) hp
    exact ⟨c, m, h, .working [] (.inl ⟨_, hprobing⟩) (List.append_nil _) rfl List.not_mem_nil⟩
  case step w e hi =>
    have ⟨c₁, m₁, h₁, ha⟩ := hi
    have ⟨c₂, m₂, h₂, hs⟩ := e.follows h₁
    refine ⟨c₂, m₂, h₂, ?_⟩
    simp only [enqueued, handed, closings]
    obtain ⟨hd, he⟩ | ⟨hm, hf, hn⟩ := hs
    case inl => simpa [he] using ha.does hd
    case inr => simpa [hf, hn, List.append_assoc] using ha.meets hm

-- A writer that begins to choose after it was told to stop probes no more.
theorem unprobing (w : Writing i k s t) (h : s.Shows i k c m) (ha : (c.station m).Silent) :
    (∃ c' m', t.Shows i k c' m' ∧ (c'.station m').Silent) ∧ ∀ bs, .ping bs ∉ w.handed := by
  induction w
  case refl => exact ⟨⟨c, m, h, ha⟩, fun _ => List.not_mem_nil⟩
  case step w e hi =>
    have ⟨⟨c₁, m₁, h₁, ha⟩, hn⟩ := hi
    have ⟨c₂, m₂, h₂, hs⟩ := e.follows h₁
    obtain ⟨hd, _⟩ | ⟨hm, hf, _⟩ := hs
    case inl =>
      have ⟨ha', hn'⟩ := ha.does hd
      exact ⟨⟨c₂, m₂, h₂, ha'⟩, fun bs hb => (List.mem_append.mp hb).elim (hn bs) (hn' bs)⟩
    case inr =>
      refine ⟨⟨c₂, m₂, h₂, ha.meets hm⟩, fun bs hb => (List.mem_append.mp hb).elim (hn bs) ?_⟩
      exact hf ▸ List.not_mem_nil

-- Whatever comes into its mailbox, whenever that ends, the session is told to stop, or a timer fires, and however the
-- transport does, the texts that a writer hands over are those of the first notices of its mailbox, in their order.  A
-- close frame comes once at most, when the mailbox has ended and everything in it was handed over, and nothing comes
-- after it.  The transport is closed once at most, and a writer that has stopped has closed it; by then the session was
-- told to stop and someone sees to the removal of the connection.  A writer that begins to choose after the session was
-- told to stop probes the client no more.  What is handed over is what the transport takes, but for the frame in hand,
-- and for one that may be lost when the transport is given up.
theorem in_order (w : Writing i k s t) (h : s.Shows i k c m) (hp : c.writer.phase = .choosing) :
    ∃ c' m', t.Shows i k c' m' ∧
      w.handed.filterMap (·.text?) <+: (m.pipe.queue ++ w.enqueued).map (·.text) ∧
      (.close ∈ w.handed → (c'.station m').Parted (m.pipe.queue ++ w.enqueued) w.handed) ∧
      w.closings ≤ 1 ∧
      (¬ c'.writer.phase.IsAtWork → w.closings = 1 ∧ m'.cancelledAt.isSome ∧ c'.unregistered) ∧
      (c'.writer.phase = .choosing → m'.cancelledAt.isSome →
        ∀ u (later : Writing i k t u) bs, .ping bs ∉ later.handed) ∧
      c'.writer.phase.Conveys w.handed w.carried ∧ w.closings = w.closed + c'.writer.phase.closings := by
  have ⟨c', m', ht, ha⟩ := w.accounts h hp
  have ⟨c₁, _, ht₁, hconveys⟩ := w.conveys h hp
  cases Option.some.inj (ht.session.symm.trans ht₁.session)
  refine ⟨c', m', ht, ha.isPrefix, ha.parted, ha.le_one, fun hs => ha.of_stopped ?stopped, fun hc hm u later => ?ping,
    hconveys⟩
  case stopped =>
    cases hq : c'.writer.phase
    case leaving k => exact .inl ⟨k, hq⟩
    case done => exact .inr hq
    all_goals exact (hs (by rw [hq]; trivial)).elim
  case ping => exact (later.unprobing ht ⟨hm, fun hn => nomatch hc.symm.trans hn⟩).2

-- Ann's mailbox ends when one notice has come.  Her transport does not close in time.
theorem in_order_until_end :
    let hello : Notice := .system ⟨"0", .epoch⟩ "hello"
    ∃ (s t : Service) (w : Writing 0 0 s t), w.handed = [.text hello.text, .close] ∧ w.closings = 1 ∧
      ∃ c m, t.Shows 0 0 c m ∧ ¬ c.writer.phase.IsAtWork ∧ m.cancelledAt.isSome ∧ c.unregistered := by
  intro hello
  let limits : Session.Limits := { Session.Limits.default with writeGrace := millis 1 }
  let ann : Session := (Session.new ⟨1⟩ ⟨7, "ann"⟩ limits 0 (.new 8)).serve 0
  let service (x : Exchange) (c : Session) : Service :=
    ⟨⟨x, Desk.defaultCapacity, [], 0, none, false, "bye"⟩, [c], 1, true, []⟩
  let isIn (c : Session) (phase : Session.Writer.Phase) : Session := { c with writer := { c.writer with phase } }
  let x := Exchange.empty.openMailbox 0 8
  let y := (x.changeMailbox 0 (·.put hello)).changeMailbox 0 Mailbox.release
  let w₁ : Writing 0 0 (service x ann) (service y ann) := .step (.step .refl (.arrive hello)) .shut
  -- The notice and the close frame are chosen and sent.
  let z := y.changeMailbox 0 takeNotice
  let c₂ := isIn ann (.sending (.text hello.text) false)
  let c₃ : Session := { isIn c₂ .choosing with link := c₂.link.write (.text hello.text) false }
  let c₄ := isIn c₃ (.sending .close false)
  let c₅ : Session := { isIn c₄ (.closing 0) with link := c₄.link.write .close false }
  let w₂ : Writing 0 0 (service x ann) (service z c₂) := .step w₁ (.write rfl)
  let w₃ : Writing 0 0 (service x ann) (service z c₃) := .step w₂ (.write rfl)
  let w₄ : Writing 0 0 (service x ann) (service z c₄) := .step w₃ (.write rfl)
  let w₅ : Writing 0 0 (service x ann) (service z c₅) := .step w₄ (.write rfl)
  -- The transport is given up.
  let late : Service := ((service z c₅).changeLink 0 fun k => { k with closeHangs := true }).passTo (millis 1)
  let c₆ : Session := { c₅ with link := { c₅.link with closeHangs := true } }
  let w₆ : Writing 0 0 (service x ann) late :=
    .step (.step w₅ (.elsewhere (spares_changeLink 0 _))) (.elsewhere (spares_passTo (millis 1)))
  let w : Writing 0 0 (service x ann) (late.writerDone 0 c₆) := .step w₆ (.write rfl)
  have hm : x.mailboxes[0]? = some (.new 8) := ExtTreeMap.getElem?_insert_self
  have ⟨c, m, ht, _, _, _, hstop, _⟩ := w.in_order ⟨rfl, rfl, hm⟩ rfl
  have hc : c = c₆.writerDone := Option.some.inj (ht.session.symm.trans rfl)
  have hp : ¬ c.writer.phase.IsAtWork := hc ▸ id
  exact ⟨_, _, w, rfl, rfl, c, m, ht, hp, (hstop hp).2⟩

end Writing
end Service
end Parley
