import Parley.Proofs.Exchange.Voice
import Parley.Proofs.Service.Answering
import Parley.Proofs.Service.Letters

namespace Parley

open Std

-- The kinds of notices that come of what clients say.
def Notice.Kind.IsOfClient : Notice.Kind → Prop
  | chatMessage | userJoined | userLeft | roomJoined | roomLeft | typing | pong => True
  | system | error | onlineUsers | userConnected | userDisconnected => False

namespace Service

-- The notices that wait in a mailbox.
def queue (s : Service) (k : Nat) : List Notice := s.desk.exchange.queue k

variable {s t : Service} {i j k : Nat} {c : Session} {letters : List (Option Nat × Errand)} {m : Option Nat}
  {v : ConnectionId} {who : Identity} {l : Listing} {e : Errand} {n : Notice} {a : Session.Courier}
  {news : Except Refusal Session.Courier} {heard : Nat → Session.Reaction → Prop} {left : List Errand} {number : Nat}

theorem suffix_changeMailbox {f : Mailbox → Mailbox} (hf : ∀ m : Mailbox, (f m).pipe.queue <:+ m.pipe.queue) :
    (s.changeMailbox j f).queue k <:+ s.queue k :=
  Exchange.queue_changeMailbox_suffix hf

theorem suffix_refuseSession {r : Refusal} : (s.refuseSession i c r).queue k <:+ s.queue k :=
  suffix_changeMailbox fun _ => List.suffix_rfl

theorem suffix_openMailbox {capacity : Nat} : (s.openMailbox capacity).2.queue k <:+ s.queue k := by
  simp only [queue, openMailbox, changeExchange, Exchange.queue, Exchange.openMailbox, ExtTreeMap.getElem?_insert]
  split
  case isTrue => exact List.nil_suffix
  case isFalse => exact List.suffix_rfl

theorem queue_submit (h : s.submit e = .ok t) : t.queue k = s.queue k :=
  congrArg (·.queue k) (exchange_submit h)

-- A courier puts nothing into a mailbox but an answer that it has with it.
theorem queue_forward (h : s.forward number a = some (news, t)) :
    ∃ ns, t.queue k = s.queue k ++ ns ∧ ∀ n ∈ ns, ∃ next, a = .answering (some n) next := by
  have hq : t.queue k = (s.desk.exchange.changeMailbox number a.tend).queue k :=
    congrArg (·.queue k) (exchange_forward h)
  have hsame (ha : ∀ m, (a.tend m).pipe.queue = m.pipe.queue) :
      ∃ ns, t.queue k = s.queue k ++ ns ∧ ∀ n ∈ ns, ∃ next, a = .answering (some n) next :=
    ⟨[], (hq.trans (Exchange.queue_changeMailbox_of_eq ha)).trans (List.append_nil _).symm, List.forall_mem_nil _⟩
  cases a
  case idle | carrying | waiting => exact hsame fun _ => rfl
  case answering n next =>
    cases n
    case none => exact hsame fun _ => rfl
    case some n =>
      obtain hr | hr := Exchange.queue_reply_prefix (x := s.desk.exchange) (n := n) (k := k) (j := number)
      case inl => exact ⟨[], (hq.trans hr).trans (List.append_nil _).symm, List.forall_mem_nil _⟩
      case inr => exact ⟨[n], hq.trans hr, List.forall_mem_singleton.mpr ⟨next, rfl⟩⟩

theorem suffix_connect {limits : Session.Limits} {link : Session.Link} :
    (s.connect v who limits link).queue k <:+ s.queue k := by
  simp only [connect]
  split
  case isTrue => exact suffix_openMailbox
  case isFalse =>
    split
    case h_1 ht => exact queue_submit ht ▸ suffix_openMailbox
    case h_2 => exact suffix_refuseSession.trans suffix_openMailbox

theorem suffix_shutdown : s.shutdown.queue k <:+ s.queue k := by
  have hfold (cs : List Session) (t : Service) :
      (cs.foldl (fun t c => t.changeMailbox c.mailbox (·.cancel s.now)) t).queue k <:+ t.queue k := by
    induction cs generalizing t
    case nil => exact List.suffix_rfl
    case cons hi => exact (hi _).trans (suffix_changeMailbox fun _ => List.suffix_rfl)
  exact hfold s.sessions { s with desk := s.desk.shutdown }

theorem suffix_foldl_handOver (rs : Desk.Replies) : (rs.foldl handOver s).queue k <:+ s.queue k := by
  have hover (t : Service) (r : Caller × Reply) : (t.handOver r).queue k <:+ t.queue k := by
    simp only [handOver]
    split
    case h_1 => exact List.suffix_rfl
    case h_2 =>
      split
      case h_1 => exact List.suffix_rfl
      case h_2 =>
        split
        case h_1 => exact suffix_refuseSession
        case h_2 => exact List.suffix_rfl
  induction rs generalizing s
  case nil => exact List.suffix_rfl
  case cons hi => exact hi.trans (hover ..)

theorem suffix_takeFrame {f : Frame} : (s.takeFrame i c f).queue k <:+ s.queue k := by
  cases f
  case text => exact suffix_changeMailbox fun _ => Mailbox.suffix_takeNotice
  all_goals exact List.suffix_rfl

-- A writer that has stopped has nothing to answer.
theorem suffix_writer (h : s.stepWriter i = some t) (hp : s.Proper left) : t.queue k <:+ s.queue k := by
  obtain ⟨c, hc, h⟩ := Option.bind_eq_some_iff.mp h
  simp only at h
  split at h
  case h_1 | h_2 =>
    split at h
    case h_1 => cases h; exact List.suffix_rfl
    case h_2 => cases h; exact suffix_takeFrame
    case h_3 => cases h <;> exact List.suffix_rfl
  case h_3 =>
    obtain ⟨_, _, h⟩ := Option.bind_eq_some_iff.mp h
    cases h
    exact List.suffix_rfl
  case h_4 =>
    split at h <;> cases h
    exact suffix_changeMailbox fun _ => List.suffix_rfl
  case h_5 =>
    cases h
    exact suffix_changeMailbox fun _ => List.nil_suffix
  case h_6 a _ hphase =>
    obtain ⟨⟨_, u⟩, hf, h⟩ := Option.bind_eq_some_iff.mp h
    cases h
    obtain ⟨ns, hq, hn⟩ := queue_forward (k := k) hf
    have hnil : ns = [] := by
      refine List.eq_nil_iff_forall_not_mem.mpr fun n hm => ?_
      obtain ⟨_, rfl⟩ := hn n hm
      obtain ⟨ha, _⟩ | ⟨hb, _⟩ := (hp.keeps c (List.mem_of_getElem? hc)).of_leaving hphase
      · cases ha
      · cases hb
    rw [hnil, List.append_nil] at hq
    exact (hq : u.queue k = s.queue k) ▸ List.suffix_rfl
  case h_7 => cases h

-- A session puts nothing into a mailbox but an answer that its courier has with it.
theorem queue_courier (h : s.stepCourier i = some t) :
    ∃ c ns, s.sessions[i]? = some c ∧ t.queue k = s.queue k ++ ns ∧
      ∀ n ∈ ns, ∃ next, c.reader.courier = .answering (some n) next := by
  obtain ⟨c, hc, h⟩ := Option.bind_eq_some_iff.mp h
  obtain ⟨⟨_, u⟩, hf, h⟩ := Option.bind_eq_some_iff.mp h
  obtain ⟨ns, hq, hn⟩ := queue_forward (k := k) hf
  refine ⟨c, ns, hc, Eq.trans ?_ hq, hn⟩
  simp only at h
  split at h
  case h_1 => split at h <;> cases h <;> rfl
  case h_2 => cases h; rfl

theorem suffix_refusing (h : s.stepRefusing i = some t) : t.queue k <:+ s.queue k := by
  obtain ⟨_, _, h⟩ := Option.bind_eq_some_iff.mp h
  split at h
  case h_1 =>
    split at h
    case isTrue => split at h <;> cases h; exact List.suffix_rfl
    case isFalse => cases h; exact List.suffix_rfl
  case h_2 =>
    split at h <;> cases h
    exact suffix_changeMailbox fun _ => List.nil_suffix
  case h_3 => cases h

theorem queue_react {r : Session.Reaction} : (s.react i c r).queue k = s.queue k :=
  Exchange.queue_changeMailbox_of_eq fun _ => congrArg Pipe.queue Mailbox.pipe_lent

theorem queue_read (h : s.stepRead i = some t) : t.queue k = s.queue k := by
  obtain ⟨c, hc, h⟩ := Option.bind_eq_some_iff.mp h
  split at h
  case isTrue => cases h
  case isFalse =>
    simp only at h
    split at h
    case h_2 | h_3 => cases h; rfl
    case h_4 => cases h
    case h_1 =>
      split at h
      case h_1 => cases h; exact queue_react (s := s.setSession i _) (i := i)
      case h_2 | h_3 | h_4 => cases h; rfl

-- Whatever else is put into a mailbox, the exchange has offered it to someone.
theorem suffix_desk (h : s.stepDesk l = some t) :
    ∃ ns, t.queue k <:+ s.queue k ++ ns ∧ ∀ n ∈ ns, ∃ own v, .offer own n v ∈ s.desk.acts l := by
  obtain ⟨⟨rs, d⟩, hd, rfl⟩ := Option.map_eq_some_iff.mp h
  have hq : (rs.foldl handOver { s with desk := d }).queue k <:+ d.exchange.queue k := suffix_foldl_handOver rs
  rw [Desk.queue_step hd] at hq
  exact ⟨_, hq, fun _ => Exchange.exists_offer_of_mem_enqueued⟩

-- Mailboxes that are changed by others in any way.
def Step.IsForeign : Step s t → Prop
  | mailbox .. => True
  | _          => False

-- Someone other than a session has posted a notice, which is passed on as it is.
inductive Step.Quotes (letters : List (Option Nat × Errand)) : Step s t → Notice → Prop
  | post {l h e p} (hm : letters[s.desk.handled]? = some (none, e)) (hp : e.command = .post p) :
      Quotes letters (.desk l h) p.notice

theorem Step.not_quotes {st : Step s t} (h : ∀ e, letters[s.desk.handled]? ≠ some (none, e)) :
    ¬ st.Quotes letters n := by
  rintro ⟨hm, _⟩
  exact h _ hm

-- What the client of a session has said is answered, or what it has asked for is done.
inductive Step.Heeds (letters : List (Option Nat × Errand)) (heard : Nat → Session.Reaction → Prop) :
    Step s t → Session → Prop
  | answer {i c n next r h} (hc : s.sessions[i]? = some c) (hk : c.reader.courier = .answering (some n) next)
      (hr : heard i r) (hn : r.reply = some n) : Heeds letters heard (.session i .courier h) c
  | errand {l h i c e r} (hm : letters[s.desk.handled]? = some (some i, e)) (hc : s.sessions[i]? = some c)
      (hr : Session.Reaction.IsTo c.id c.identity r) (ha : r.command = some e.command) :
      Heeds letters heard (.desk l h) c

-- Which connection, of which identity, a notice is due to: the one whose client has said something, or which someone
-- else has moved, or which comes, or is removed.
inductive Step.Causes (letters : List (Option Nat × Errand)) (heard : Nat → Session.Reaction → Prop) :
    Step s t → Notice → ConnectionId → Identity → Prop
  | envelope {st n c} (h : Step.Heeds letters heard st c) (hk : n.kind.IsOfClient) :
      Causes letters heard st n c.id c.identity
  | move {l h n e v room entry} (hm : letters[s.desk.handled]? = some (none, e))
      (hc : e.command = .join v room ∨ e.command = .leave v room)
      (he : s.desk.exchange.roster.entry? v = some entry) (hk : n.kind.IsOfClient) :
      Causes letters heard (.desk l h) n v entry.identity
  | arrival {l h n m r} (hm : letters[s.desk.handled]? = some m) (hc : m.2.command = .register r)
      (hk : n.kind = .userConnected) : Causes letters heard (.desk l h) n r.id r.identity
  | removal {l h n m v who} (hm : letters[s.desk.handled]? = some m)
      (hr : s.desk.exchange.Removes l m.2.command v) (hi : s.desk.exchange.identity? m.2.command v = some who)
      (hk : n.kind = .userDisconnected) : Causes letters heard (.desk l h) n v who

-- The server speaks for itself, or in the name of whoever a notice is due to.
def Step.Explains (letters : List (Option Nat × Errand)) (heard : Nat → Session.Reaction → Prop) (st : Step s t)
    (n : Notice) : Prop :=
  n.IsOfServer ∨ st.Quotes letters n ∨
    ∃ v who, s.HasConnection letters v who ∧ st.Causes letters heard n v who ∧ n.Names who

theorem Step.Heeds.explains {st : Step s t} (h : st.Heeds letters heard c) (hc : c ∈ s.sessions)
    (hk : n.kind.IsOfClient) (hn : n.Names c.identity) : st.Explains letters heard n :=
  .inr <| .inr ⟨c.id, c.identity, .session (List.mem_map_of_mem hc), .envelope h hk, hn⟩

namespace Vouched

variable {hd : s.stepDesk l = some t} {own : Bool} (h : s.Vouched letters)

include h

theorem heeds (hm : letters[s.desk.handled]? = some (some i, e)) (hr : e.command.IsRequest) :
    ∃ c ∈ s.sessions, (Step.desk l hd).Heeds letters heard c ∧ e.command.IsRequestOf c.id c.identity := by
  obtain ⟨v, who, hi, hs⟩ := h.signed i e (List.mem_of_getElem? hm)
  obtain ⟨c, hc, heq⟩ := Option.map_eq_some_iff.mp (getElem?_cards ▸ hi)
  obtain ⟨rfl, rfl⟩ := Prod.mk.inj heq
  obtain ⟨r, hr, ha⟩ := hs.exists_of_isRequest hr
  exact ⟨c, List.mem_of_getElem? hc, .errand hm hc hr ha, hr.isRequestOf ha⟩

theorem explains_post {p : Post} (hm : letters[s.desk.handled]? = some (m, e)) (hc : e.command = .post p) :
    (Step.desk l hd).Explains letters heard p.notice := by
  cases m
  case none => exact .inr (.inl (.post hm hc))
  case some i =>
    obtain ⟨c, hs, hh, hr⟩ := h.heeds hm (hc ▸ trivial)
    rw [hc] at hr
    obtain ⟨hk | hk, hn⟩ := hr <;> exact hh.explains hs (hk ▸ trivial) hn

variable (hp : s.Proper (letters.map (·.2)))

include hp

theorem explains_move {room : String} {entry : Entry} (hm : letters[s.desk.handled]? = some (m, e))
    (hc : e.command = .join v room ∨ e.command = .leave v room) (he : s.desk.exchange.roster.entry? v = some entry)
    (hk : n.kind.IsOfClient) (hn : n.Names entry.identity) : (Step.desk l hd).Explains letters heard n := by
  cases m
  case none => exact .inr <| .inr ⟨v, entry.identity, h.roster v entry he, .move hm hc he hk, hn⟩
  case some i =>
    obtain ⟨c, hs, hh, hr⟩ := h.heeds hm (by obtain hc | hc := hc <;> exact hc ▸ trivial)
    -- Nobody moves anyone else.
    obtain rfl : v = c.id := by obtain hc | hc := hc <;> rw [hc] at hr <;> exact hr
    exact hh.explains hs hk ((h.roster c.id entry he).eq_of_session hp hs ▸ hn)

theorem explains_concerns (hm : letters[s.desk.handled]? = some (m, e)) {backlog : List Errand}
    (hs : s.desk.stopped = false) (hb : s.desk.backlog = e :: backlog)
    (hc : s.desk.exchange.Concerns l e.command n v who) (hn : n.Names who) :
    (Step.desk l hd).Explains letters heard n := by
  cases hc
  case arrival r hr hk =>
    have hi : s.desk.exchange.identity? e.command r.id = some r.identity := by simp [hr, Exchange.identity?]
    exact .inr <| .inr ⟨_, _, h.hasConnection_of_identity? hp hs hb hi, .arrival hm hr hk, hn⟩
  case removal hk hr hi =>
    exact .inr <| .inr ⟨v, who, h.hasConnection_of_identity? hp hs hb hi, .removal hm hr hi hk, hn⟩
  case entry hk hc he =>
    obtain hk | hk := hk <;> exact h.explains_move hp hm (.inl hc) he (hk ▸ trivial) hn
  case exit hk hc he =>
    obtain hk | hk := hk <;> exact h.explains_move hp hm (.inr hc) he (hk ▸ trivial) hn

theorem explains_desk (ho : .offer own n v ∈ s.desk.acts l) : (Step.desk l hd).Explains letters heard n := by
  obtain ⟨⟨rs, d⟩, hd', _⟩ := Option.map_eq_some_iff.mp hd
  obtain ⟨hs, ⟨e, backlog, hc, hb, _⟩ | ⟨hc, _⟩⟩ := Desk.step_eq_some hd'
  case inr =>
    rw [Desk.acts, hc] at ho
    exact .inl (Exchange.says_closeAll _ ho)
  case inl =>
    rw [Desk.acts, hc] at ho
    obtain ⟨⟨m, _⟩, hm, rfl⟩ := Option.map_eq_some_iff.mp (List.getElem?_map ▸ hp.books.getElem?_handled hb hs)
    obtain hn | ⟨p, hc, rfl⟩ | ⟨v, who, hc, hn⟩ :=
      Exchange.voices_of_mem_journal hp.books.roster (hp.books.admits hb) ho
    case inl => exact .inl hn
    case inr.inl => exact h.explains_post hm hc
    case inr.inr => exact h.explains_concerns hp hm hs hb hc hn

end Vouched

theorem Step.explains (st : Step s t) (hst : ¬ st.IsForeign) (h : s.Vouched letters)
    (ha : s.Answers heard) (hp : s.Proper (letters.map (·.2))) :
    ∃ ns, t.queue k <:+ s.queue k ++ ns ∧ ∀ n ∈ ns, st.Explains letters heard n := by
  have hnone (hq : t.queue k <:+ s.queue k) :
      ∃ ns, t.queue k <:+ s.queue k ++ ns ∧ ∀ n ∈ ns, st.Explains letters heard n :=
    ⟨[], (List.append_nil (s.queue k)).symm ▸ hq, List.forall_mem_nil _⟩
  cases st
  case desk hd =>
    obtain ⟨ns, hq, hn⟩ := suffix_desk (k := k) hd
    refine ⟨ns, hq, fun n hm => ?_⟩
    obtain ⟨_, _, ho⟩ := hn n hm
    exact h.explains_desk hp ho
  case session i m hm =>
    cases m
    case courier =>
      obtain ⟨c, ns, hc, hq, hn⟩ := queue_courier (k := k) hm
      refine ⟨ns, hq ▸ List.suffix_rfl, fun n hm => ?_⟩
      obtain ⟨next, hk⟩ := hn n hm
      obtain ⟨r, hr, ⟨_, _, _, _, _, rfl⟩, hreply⟩ := ha i c n next hc hk
      obtain ⟨_, hs⟩ | ⟨hk' | hk', hn⟩ := Session.Reaction.reply_cases hreply
      case inl => exact .inl hs
      all_goals exact Step.Heeds.explains (.answer hc hk hr hreply) (List.mem_of_getElem? hc) (hk' ▸ trivial) hn
    case read => exact hnone (queue_read hm ▸ List.suffix_rfl)
    case serve | notice | expire | finish =>
      obtain ⟨_, _, hm⟩ := Option.bind_eq_some_iff.mp hm
      split at hm <;> cases hm
      exact hnone List.suffix_rfl
    case write => exact hnone (suffix_writer hm hp)
    case refuse => exact hnone (suffix_refusing hm)
  case connect => exact hnone suffix_connect
  case visit _ hs => exact hnone (queue_submit hs ▸ List.suffix_rfl)
  case shutdown => exact hnone suffix_shutdown
  case openMailbox => exact hnone suffix_openMailbox
  case mailbox => exact (hst trivial).elim
  case link i f =>
    have hq : (s.changeLink i f).queue k = s.queue k := by
      simp only [changeLink]
      split <;> rfl
    exact hnone (hq ▸ List.suffix_rfl)
  case pass | collect | desert => exact hnone List.suffix_rfl

-- Wherever a run leads in which everyone has an identity that clients are admitted with, nothing is put into a mailbox
-- but what the server says in its own name, what someone other than a session has posted, and what comes of something
-- that the client of a connection has said, or of the connection's coming or going; and that goes by the name of the
-- connection.  Nobody but the server goes by its name, however written.  Mailboxes that are changed by others are left
-- out.
theorem Run.names_cause {farewell : String} {capacity : Nat} (run : Run (.new farewell capacity) s)
    (hid : ∀ v who, s.HasConnection run.letters v who → Admission.IsAdmissible who) (st : Step s t)
    (hst : ¬ st.IsForeign) (k : Nat) :
    ∃ ns, t.queue k <:+ s.queue k ++ ns ∧ ∀ n ∈ ns, ¬ st.Quotes run.letters n →
      (¬ n.kind.IsOfServer →
        ∃ v who, s.HasConnection run.letters v who ∧ st.Causes run.letters run.Heard n v who ∧ n.Names who) ∧
      (Text.SameLetters n.username systemName → n.kind.IsOfServer) := by
  obtain ⟨hp, hv⟩ := run.vouched proper_new vouched_new
  have ha : s.Answers run.Heard := run.answers proper_new answers_new
  obtain ⟨ns, hq, hn⟩ := st.explains (k := k) hst hv ha hp
  refine ⟨ns, hq, fun n hm hposted => ?_⟩
  obtain hs | hposted' | ⟨v, who, hc, hcause, hnames⟩ := hn n hm
  case inl => exact ⟨fun hk => absurd hs.kind hk, fun _ => hs.kind⟩
  case inr.inl => exact absurd hposted' hposted
  case inr.inr =>
    refine ⟨fun _ => ⟨v, who, hc, hcause, hnames⟩, fun hsys => ?_⟩
    exact absurd (hnames.username ▸ hsys) (hid v who hc).not_isReserved

-- Ann is told of Bob, who comes after her.
theorem Run.names_cause_arrival :
    ∃ (s t : Service) (run : Run (.new "bye") s) (st : Step s t), ∃ n ∈ t.queue 0, n.kind = .userConnected ∧
      ∃ v who, s.HasConnection run.letters v who ∧ st.Causes run.letters run.Heard n v who ∧ n.Names who := by
  let ann : Identity := ⟨7, "ann"⟩
  let bob : Identity := ⟨8, "bob"⟩
  let limits := Session.Limits.default
  let link := Session.Link.new 8
  let c₁ : Session := .new ⟨1⟩ ann limits 0 link
  let c₂ : Session := .new ⟨2⟩ bob limits 1 link
  let registration₁ : Command := .register ⟨⟨1⟩, ann, 0⟩
  let registration₂ : Command := .register ⟨⟨2⟩, bob, 1⟩
  let x := Exchange.empty.openMailbox 0 256
  let y := (x.handle .ascending registration₁).openMailbox 1 256
  let z := y.handle .ascending registration₂
  let service (x : Exchange) (backlog : List Errand) (handled mailboxes : Nat) (cs : List Session) : Service :=
    ⟨⟨x, Desk.defaultCapacity, backlog, handled, none, false, "bye"⟩, cs, mailboxes, true, []⟩
  let s₁ := service x [⟨registration₁, some (.session 0)⟩] 0 1 [c₁]
  let s₂ := service (x.handle .ascending registration₁) [] 1 1 [c₁.welcome]
  let s₃ := service y [⟨registration₂, some (.session 1)⟩] 1 2 [c₁.welcome, c₂]
  let s₄ := service z [] 2 2 [c₁.welcome, c₂.welcome]
  have hx : x.handle .ascending registration₁ = x.perform .ascending registration₁ :=
    Exchange.handle_eq_perform (by decide)
  have hy : y = (x.perform .ascending registration₁).openMailbox 1 256 := by simp only [y, hx]
  have hz : z = y.perform .ascending registration₂ := Exchange.handle_eq_perform (by rw [hy]; decide)
  have hnew₁ : IsNew (.new "bye") ⟨1⟩ := ⟨by decide, List.forall_mem_nil _, List.forall_mem_nil _⟩
  have hnew₂ : s₂.IsNew ⟨2⟩ := ⟨by simp only [s₂, hx]; decide, List.forall_mem_nil _, by decide⟩
  let run₁ : Run (.new "bye") s₁ := .step .refl (.connect ⟨1⟩ ann limits link hnew₁)
  let run₂ : Run (.new "bye") s₂ := .step run₁ (.desk .ascending rfl)
  let run₃ : Run (.new "bye") s₃ := .step run₂ (.connect ⟨2⟩ bob limits link hnew₂)
  let st : Step s₃ s₄ := .desk .ascending rfl
  have hletters : run₃.letters =
      [(some 0, ⟨registration₁, some (.session 0)⟩), (some 1, ⟨registration₂, some (.session 1)⟩)] := rfl
  have hcards : s₃.cards = [(⟨1⟩, ann), (⟨2⟩, bob)] := rfl
  have hid v who (h : s₃.HasConnection run₃.letters v who) : Admission.IsAdmissible who := by
    have hann : Admission.IsAdmissible ann := ⟨{}, [], ⟨some "7", some "ann"⟩, by decide⟩
    have hbob : Admission.IsAdmissible bob := ⟨{}, [], ⟨some "8", some "bob"⟩, by decide⟩
    cases h
    case session hm =>
      rw [hcards] at hm
      simp only [List.mem_cons, Prod.mk.injEq, List.not_mem_nil, or_false] at hm
      obtain ⟨_, rfl⟩ | ⟨_, rfl⟩ := hm
      · exact hann
      · exact hbob
    case visitor hm _ _ _ _ =>
      rw [hletters] at hm
      simp at hm
  have hposted n : ¬ st.Quotes run₃.letters n := by
    refine Step.not_quotes fun e hm => ?_
    rw [hletters] at hm
    cases hm
  obtain ⟨ns, hq, hn⟩ := run₃.names_cause hid st (fun h => h) 0
  -- What is new in her mailbox is of another kind than what was there.
  have hold : Notice.Kind.userConnected ∉ (s₃.queue 0).map (·.kind) := by
    rw [queue]
    simp only [s₃, hy]
    decide
  have hnew : Notice.Kind.userConnected ∈ (s₄.queue 0).map (·.kind) := by
    simp only [s₄, hz, hy]
    decide
  obtain ⟨n, hm, hk⟩ := List.mem_map.mp hnew
  have hns : n ∈ ns :=
    (List.mem_append.mp (hq.subset hm)).resolve_left fun hm => hold (List.mem_map.mpr ⟨n, hm, hk⟩)
  exact ⟨s₃, s₄, run₃, st, n, hm, hk, (hn n hns (hposted n)).1 (by rw [hk]; exact id)⟩

end Service
end Parley
