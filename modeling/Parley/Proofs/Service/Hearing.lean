import Parley.Proofs.Message.Request
import Parley.Proofs.Service.Lending
import Parley.Proofs.Session.Deed

namespace Parley

open Std

namespace Service

open Session (Deed Does Reaction Reader)

-- What a service is once session `i` has heard what its client has said.  All that the exchange can tell of it is that
-- a stamp was given out; for an answer, the mailbox is asked for a writing end.
structure Reacts (s t : Service) (i : Nat) (c : Session) (link : Session.Link) (r : Reaction) : Prop where
  sessions : t.sessions =
    s.sessions.set i ({ c with link }.sendFromReader (r.courier (r.lent (s.mailbox c.mailbox)).loan))
  exchange : t.desk.exchange =
    { s.desk.exchange.changeMailbox c.mailbox r.lent with supply := s.desk.exchange.supply.next }
  desk     : t.desk = { s.desk with exchange := t.desk.exchange }
  rest     : t = { s with desk := t.desk, sessions := t.sessions }
  pipes    : ∀ k : Nat,
    (t.desk.exchange.mailboxes[k]?).map Mailbox.pipe = (s.desk.exchange.mailboxes[k]?).map Mailbox.pipe

-- What a service is once the courier of session `i` has offered an answer.  Nobody but the owner of the mailbox can
-- tell that it was; an answer that there is no room for is lost, and nobody is the worse for it.
structure Offered (s t : Service) (i k : Nat) (n : Notice) : Prop where
  exchange : t.desk.exchange = { s.desk.exchange with mailboxes := t.desk.exchange.mailboxes }
  desk     : t.desk = { s.desk with exchange := t.desk.exchange }
  rest     : t = { s with desk := t.desk, sessions := t.sessions }
  others   : ∀ j : Nat, j ≠ k → t.desk.exchange.mailboxes[j]? = s.desk.exchange.mailboxes[j]?
  sessions : ∀ j, j ≠ i → t.sessions[j]? = s.sessions[j]?
  kept     : (s.mailbox k).Keeps → t.desk.exchange.mailboxes[k]? = (s.desk.exchange.mailboxes[k]?).map fun m =>
    { m with pipe := { m.pipe with queue := m.pipe.queue ++ [n] }, loan := .spent }
  lost     : ¬ (s.mailbox k).Keeps →
    (t.desk.exchange.mailboxes[k]?).map Mailbox.pipe = (s.desk.exchange.mailboxes[k]?).map Mailbox.pipe

-- The steps of a session that its reader takes.
def Move.IsReading : Move → Prop
  | courier | notice | read | expire => True
  | serve | write | refuse | finish  => False

-- The courier of the reader of session `i` gets on.
def Step.Forwards {s t : Service} (i : Nat) : Step s t → Prop
  | session j m _ => j = i ∧ m = .courier
  | _             => False

-- In a run, the courier of the reader of session `i` does not get on.
def Run.Spares {s t : Service} (i : Nat) : Run s t → Prop
  | refl        => True
  | step run st => run.Spares i ∧ ¬ st.Forwards i

def HasReader (s : Service) (i : Nat) (reader : Reader) : Prop :=
  ∃ c, s.sessions[i]? = some c ∧ c.reader = reader

-- How the reader of session `i` goes on: at once, if the exchange is not asked for anything.  Otherwise, whatever
-- happens meanwhile, it waits until its courier has left the command at the desk, which it can do as long as the
-- exchange takes commands, and until there is room for it.
def Delivers (s : Service) (i : Nat) (reader : Reader) : Option Command → Prop
  | none         => s.HasReader i reader
  | some command => ∀ t (later : Run s t), later.Spares i →
    t.HasReader i { reader with courier := .carrying command } ∧
    (t.desk.stopped = false → ∃ u, t.stepCourier i = some u ∧
      u.desk = { t.desk with backlog := t.desk.backlog ++ [⟨command, none⟩] } ∧
      ∀ v (later : Run u v), later.Spares i → v.HasReader i { reader with courier := .waiting t.desk.number } ∧
        (v.desk.HasRoom t.desk.number → ∃ w, v.stepCourier i = some w ∧ w.desk = v.desk ∧ w.HasReader i reader))

-- How the reader of session `i` goes on once a writing end of the mailbox was lent to it for an answer.  Whatever
-- happens meanwhile, even if the exchange lets go of the mailbox, the courier can offer the answer once; then it can
-- give back the writing end, and sees to the command.
def Offers (s : Service) (i k : Nat) (reader : Reader) (n : Notice) (next : Option Command) : Prop :=
  ∀ t (later : Run s t), later.Spares i →
    t.HasReader i { reader with courier := .answering (some n) next } ∧
    (later.IsUntampered k → (t.mailbox k).loan = .fresh) ∧
    ∃ u, t.stepCourier i = some u ∧ t.Offered u i k n ∧
      ∀ v (later : Run u v), later.Spares i → v.HasReader i { reader with courier := .answering none next } ∧
        ∃ w, v.stepCourier i = some w ∧ w.desk = (v.changeMailbox k Mailbox.giveBack).desk ∧ w.Delivers i reader next

-- How the reader of session `i` goes on: an answer that no writing end was lent for is lost.
structure GoesOn (s : Service) (i k : Nat) (reader : Reader) (r : Reaction) : Prop where
  answer  : ∀ n, r.reply = some n → (s.mailbox k).loan = .fresh → s.Offers i k reader n r.command
  command : r.reply = none ∨ (s.mailbox k).loan ≠ .fresh → s.Delivers i reader r.command

variable {s t u v : Service} {i j k : Nat} {c c' : Session} {link : Session.Link} {f : Frame} {r : Reaction}
  {left : List Errand} {reader : Reader} {p : Except Request.Unreadable Request} {command : Command} {n : Notice}
  {next : Option Command}

theorem reacts_react :
    Reacts s ((s.setSession i { c with link }).react i { c with link } r) i c link r := by
  refine ⟨sessions_react, rfl, rfl, rfl, fun k => ?_⟩
  rw [getElem?_mailboxes_react]
  split
  case isFalse => rfl
  case isTrue => rw [Option.map_map]; exact congrArg (Option.map · _) (funext fun _ => Mailbox.pipe_lent)

-- The mailbox has lent a writing end if it could.
theorem mailbox_react {m : Mailbox} (hm : s.desk.exchange.mailboxes[c.mailbox]? = some m) :
    (s.react i c r).mailbox c.mailbox = r.lent m :=
  mailbox_eq (by rw [getElem?_mailboxes_react, if_pos rfl, hm, Option.map_some])

theorem judge_of_reading {l : Session.Limits} (hp : f.reading? = some p) (hs : f.size ≤ l.frameSize) :
    Reader.judge l f = .payload p := by
  have ho : oversize? f.size l.frameSize = none := dif_neg (Nat.not_lt.mpr hs)
  cases f <;> cases hp <;> simp [Reader.judge, ho]

-- A reader that listens takes what comes next.
theorem stepRead_eq (hi : s.sessions[i]? = some c) (hl : c.reader.IsListening)
    (hf : c.link.read = (.frame f, link)) (hp : f.reading? = some p) (hs : f.size ≤ c.limits.frameSize) :
    s.stepRead i = some ((s.setSession i { c with link }).react i { c with link }
      (.ofPayload s.stamp c.id c.identity p)) := by
  have hj : Reader.judge c.limits f = .payload p := judge_of_reading hp hs
  have ha : c.reader.after c.limits s.now f = c.reader := by simp only [Reader.after, hj]
  simp only [stepRead, hi, Option.bind_eq_bind, Option.bind_some, hl, not_true, if_false, hf, hj, ha]
  rfl

-- Whatever else a session that is served does has no bearing on its reader.
theorem hasReader_of_not_reading {m : Move} (h : m.apply? s i = some t) (hm : ¬ m.IsReading)
    (hi : s.sessions[i]? = some c) (hs : c.stage ≠ .admitted) : t.HasReader i c.reader := by
  have ⟨hlt, _⟩ := List.getElem?_eq_some_iff.mp hi
  have hset {u : Service} {c' : Session} (hs : u.sessions = s.sessions.set i c') (hr : c'.reader = c.reader) :
      u.HasReader i c.reader :=
    ⟨c', hs ▸ List.getElem?_set_self hlt, hr⟩
  cases m
  case courier | notice | read | expire => exact absurd trivial hm
  all_goals
    obtain ⟨c₀, hc, h⟩ := Option.bind_eq_some_iff.mp h
    cases Option.some.inj (hi.symm.trans hc)
  case serve =>
    split at h
    case isTrue hs' => exact absurd hs' hs
    case isFalse => cases h
  case refuse =>
    split at h
    case h_1 =>
      split at h
      case isTrue => split at h <;> cases h; exact hset rfl rfl
      case isFalse => cases h; exact hset rfl rfl
    case h_2 =>
      split at h <;> cases h
      exact hset rfl rfl
    case h_3 => cases h
  case finish =>
    split at h <;> cases h
    exact hset rfl rfl
  case write =>
    have htake {f : Frame} : (s.takeFrame i c f).HasReader i c.reader := by
      cases f <;> exact hset rfl rfl
    simp only at h
    split at h
    case h_1 | h_2 =>
      split at h
      case h_1 => cases h; exact hset rfl rfl
      case h_2 => cases h; exact htake
      case h_3 => cases h <;> exact hset rfl rfl
    case h_3 =>
      obtain ⟨w, _, h⟩ := Option.bind_eq_some_iff.mp h
      cases h
      exact hset rfl rfl
    case h_4 =>
      split at h <;> cases h
      exact hset rfl rfl
    case h_5 => cases h; exact hset rfl rfl
    case h_6 =>
      obtain ⟨⟨_, u⟩, hf, h⟩ := Option.bind_eq_some_iff.mp h
      cases h
      exact hset (congrArg (List.set · i _) (forward_cases hf).1) rfl
    case h_7 => cases h

-- As long as its courier is away, a session that is served does nothing with its reader.
theorem hasReader_move {m : Move} (h : m.apply? s i = some t) (hm : m ≠ .courier) (hi : s.sessions[i]? = some c)
    (hk : c.reader.courier ≠ .idle) (hs : c.stage ≠ .admitted) : t.HasReader i c.reader := by
  by_cases hr : m.IsReading
  case neg => exact hasReader_of_not_reading h hr hi hs
  case pos =>
    have hlisten : ¬ c.reader.IsListening := fun hl => hk hl.2
    cases m
    case courier => exact absurd rfl hm
    case serve | write | refuse | finish => exact hr.elim
    all_goals
      obtain ⟨c₀, hc, h⟩ := Option.bind_eq_some_iff.mp h
      cases Option.some.inj (hi.symm.trans hc)
    case notice | expire =>
      split at h
      case isTrue hl => exact absurd hl.1 hlisten
      case isFalse => cases h
    case read =>
      rw [if_pos hlisten] at h
      cases h

-- A reader whose courier is away stays as it is until the courier gets on.
theorem Step.hasReader (st : Step s t) (hst : ¬ st.Forwards i) (hp : s.Proper left) (h : s.HasReader i reader)
    (hk : reader.courier ≠ .idle) : t.HasReader i reader := by
  obtain ⟨c, hi, rfl⟩ := h
  have hserved (hs : c.stage.IsOutside) : False :=
    hk ((hp.keeps c (List.mem_of_getElem? hi)).of_isOutside hs).2.2.1
  by_cases hby : st.IsBy i
  case neg =>
    obtain ⟨_, hi', hc⟩ := st.suffers hby hp hi
    obtain ⟨_, rfl⟩ := hc.exists_link fun hr => hserved (hr ▸ trivial)
    exact ⟨_, hi', rfl⟩
  case pos =>
    cases st
    case session j m hm =>
      obtain rfl : j = i := hby
      exact hasReader_move hm (fun hm => hst ⟨rfl, hm⟩) hi hk fun hs => hserved (hs ▸ trivial)
    all_goals exact hby.elim

theorem Run.isSame (later : Run s t) (hs : s.Settled left) (hi : s.sessions[i]? = some c) :
    ∃ c', t.sessions[i]? = some c' ∧ c.IsSame c' := by
  induction later
  case refl => exact ⟨c, hi, .refl⟩
  case step later st hind =>
    obtain ⟨_, hs⟩ := later.settled hs
    obtain ⟨c₁, hi₁, hsame⟩ := hind
    obtain ⟨c', hi', hb⟩ := st.befalls hs.proper hi₁
    exact ⟨c', hi', hsame.trans hb.isSame⟩

theorem Run.hasReader (later : Run s t) (hrun : later.Spares i) (hs : s.Settled left) (h : s.HasReader i reader)
    (hk : reader.courier ≠ .idle) : t.HasReader i reader := by
  induction later
  case refl => exact h
  case step later st hind =>
    obtain ⟨_, hs⟩ := later.settled hs
    exact st.hasReader hrun.2 hs.proper (hind hrun.1) hk

-- A command that is taken is left at the desk as it is.
theorem exists_stepCourier_carrying (h : s.HasReader i reader) (hk : reader.courier = .carrying command)
    (hc : command.IsRequest) (hs : s.desk.stopped = false) :
    ∃ t, s.stepCourier i = some t ∧ t.desk = { s.desk with backlog := s.desk.backlog ++ [⟨command, none⟩] } ∧
      t.HasReader i { reader with courier := .waiting s.desk.number } := by
  obtain ⟨c, hi, rfl⟩ := h
  have ⟨hlt, _⟩ := List.getElem?_eq_some_iff.mp hi
  have hr : s.desk.refusal? command = none := by
    cases command <;> first | exact hc.elim | simp [Desk.refusal?, hs]
  let t : Service := { s with desk := { s.desk with backlog := s.desk.backlog ++ [⟨command, none⟩] } }
  have hsubmit : s.submit ⟨command, none⟩ = .ok t := by simp only [submit, Desk.submit, hr, Except.map, t]
  refine ⟨t.setSession i (c.sendFromReader (.waiting s.desk.number)), ?_, rfl, _, List.getElem?_set_self hlt, rfl⟩
  simp only [stepCourier, hi, hk, forward, hsubmit, Option.bind_eq_bind, Option.bind_some]
  rfl

-- Once there is room for it, the courier is back.
theorem exists_stepCourier_waiting {number : Nat} (h : s.HasReader i reader) (hk : reader.courier = .waiting number)
    (hr : s.desk.HasRoom number) :
    ∃ t, s.stepCourier i = some t ∧ t.desk = s.desk ∧ t.HasReader i { reader with courier := .idle } := by
  obtain ⟨c, hi, rfl⟩ := h
  have ⟨hlt, _⟩ := List.getElem?_eq_some_iff.mp hi
  refine ⟨s.setSession i (c.sendFromReader .idle), ?_, rfl, _, List.getElem?_set_self hlt, rfl⟩
  simp only [stepCourier, hi, hk, forward, if_pos hr, Option.bind_eq_bind, Option.bind_some]
  rfl

theorem offered_reply {c' : Session} :
    s.Offered ((s.changeMailbox k (·.reply n)).setSession i c') i k n := by
  have hk : (s.changeMailbox k (·.reply n)).desk.exchange.mailboxes[k]? =
      (s.desk.exchange.mailboxes[k]?).map (·.reply n) := getElem?_changeMailbox.trans (if_pos rfl)
  refine ⟨rfl, rfl, rfl, fun j hj => getElem?_changeMailbox.trans (if_neg hj.symm),
    fun j hj => List.getElem?_set_ne hj.symm, fun hm => hk.trans ?kept,
    fun hm => (congrArg (Option.map Mailbox.pipe) hk).trans ?lost⟩
  all_goals cases hm' : s.desk.exchange.mailboxes[k]?
  case kept.none | lost.none => rfl
  case kept.some m =>
    rw [mailbox_eq hm'] at hm
    exact congrArg some (Mailbox.reply_of_keeps hm)
  case lost.some m =>
    rw [mailbox_eq hm'] at hm
    exact congrArg some (Mailbox.pipe_reply_of_not_keeps hm)

-- An answer can be offered at any time.
theorem stepCourier_offering (hi : s.sessions[i]? = some c) (hk : c.reader.courier = .answering (some n) next) :
    s.stepCourier i =
      some ((s.changeMailbox c.mailbox (·.reply n)).setSession i (c.sendFromReader (.answering none next))) := by
  simp only [stepCourier, hi, hk, forward, Option.bind_eq_bind, Option.bind_some]
  rfl

-- So can the writing end be given back.
theorem stepCourier_returning (hi : s.sessions[i]? = some c) (hk : c.reader.courier = .answering none next) :
    s.stepCourier i =
      some ((s.changeMailbox c.mailbox Mailbox.giveBack).setSession i (c.sendFromReader (.bearing next))) := by
  simp only [stepCourier, hi, hk, forward, Option.bind_eq_bind, Option.bind_some]
  rfl

-- A reader that has sent its courier for nothing but what its client has asked for goes on once that is done.
theorem delivers_of_bearing (hs : s.Settled left) (hl : reader.courier = .idle)
    (h : s.HasReader i { reader with courier := .bearing next })
    (hr : ∀ command, next = some command → command.IsRequest) : s.Delivers i reader next := by
  have hidle : { reader with courier := .idle } = reader := by rw [← hl]
  cases next
  case none => exact hidle ▸ h
  case some command =>
    intro t later hspares
    have hcarrying := later.hasReader hspares hs h nofun
    obtain ⟨_, hst⟩ := later.settled hs
    refine ⟨hcarrying, fun hopen => ?_⟩
    obtain ⟨u, hu, hd, hwaiting⟩ := exists_stepCourier_carrying hcarrying rfl (hr command rfl) hopen
    have hsu := hst.step (.session i .courier hu)
    refine ⟨u, hu, hd, fun v later hspares => ?_⟩
    have hwaiting := later.hasReader hspares hsu hwaiting nofun
    refine ⟨hwaiting, fun hroom => ?_⟩
    obtain ⟨w, hw, hd, hback⟩ := exists_stepCourier_waiting hwaiting rfl hroom
    exact ⟨w, hw, hd, hidle ▸ hback⟩

theorem offers_of_answering (hs : s.Settled left) (hl : reader.courier = .idle) (hi : s.sessions[i]? = some c)
    (hc : c.reader = { reader with courier := .answering (some n) next })
    (hloan : (s.mailbox c.mailbox).loan = .fresh) (hr : ∀ command, next = some command → command.IsRequest) :
    s.Offers i c.mailbox reader n next := by
  have hlent : s.Lent c.mailbox := by
    obtain ⟨m, hm, _⟩ := hs.boxed c (List.mem_of_getElem? hi)
    rw [mailbox_eq hm] at hloan
    exact hs.lent hi ⟨m, hm, hc ▸ hloan⟩
  intro t later hspares
  obtain ⟨_, hst⟩ := later.settled hs
  obtain ⟨c₁, hi₁, hsame⟩ := later.isSame hs hi
  have hanswering := later.hasReader hspares hs ⟨c, hi, hc⟩ nofun
  have hc₁ : c₁.reader = { reader with courier := .answering (some n) next } := by
    obtain ⟨_, hi', hr⟩ := hanswering
    cases Option.some.inj (hi₁.symm.trans hi')
    exact hr
  refine ⟨hanswering, fun hrun => ?_, ?_⟩
  case refine_1 =>
    have hkept := (later.lent hrun hs hlent).loan_eq (List.mem_of_getElem? hi₁) hsame.mailbox
    rw [hkept, hc₁]
    rfl
  case refine_2 =>
    have hu := stepCourier_offering hi₁ (congrArg Reader.courier hc₁)
    have ⟨hlt, _⟩ := List.getElem?_eq_some_iff.mp hi₁
    have hi₂ := List.getElem?_set_self (a := c₁.sendFromReader (.answering none next)) hlt
    have hsu := hst.step (.session i .courier hu)
    refine ⟨_, hu, hsame.mailbox ▸ offered_reply, fun v later hspares => ?_⟩
    obtain ⟨_, hsv⟩ := later.settled hsu
    obtain ⟨c₃, hi₃, hsame'⟩ := later.isSame hsu hi₂
    have hanswering := later.hasReader hspares hsu
      ⟨_, hi₂, (congrArg (fun r : Reader => { r with courier := .answering none next }) hc₁ :)⟩ nofun
    have hc₃ : c₃.reader = { reader with courier := .answering none next } := by
      obtain ⟨_, hi', hr⟩ := hanswering
      cases Option.some.inj (hi₃.symm.trans hi')
      exact hr
    refine ⟨hanswering, ?_⟩
    have hw := stepCourier_returning hi₃ (congrArg Reader.courier hc₃)
    have ⟨hlt, _⟩ := List.getElem?_eq_some_iff.mp hi₃
    have hi₄ := List.getElem?_set_self (a := c₃.sendFromReader (.bearing next)) hlt
    have hsw := hsv.step (.session i .courier hw)
    have hmailbox : c₃.mailbox = c.mailbox := hsame'.mailbox.trans hsame.mailbox
    refine ⟨_, hw, hmailbox ▸ rfl, delivers_of_bearing hsw hl ⟨_, hi₄, ?_⟩ hr⟩
    exact congrArg (fun r : Reader => { r with courier := .bearing next }) hc₃

-- Wherever a run leads in which a reader listens and its client has sent a frame that it may send: the reader takes it
-- and does one thing about it, which is told by what the frame says, and by nothing else.  Whatever the mailbox of the
-- session is like, nothing else changes that the exchange knows of.  Then the reader goes on.  A writing end for an
-- answer is lent to it as long as the exchange has not let go of the mailbox, unless someone else has changed it.
theorem Run.does_once {farewell : String} {capacity : Nat} (run : Run (.new farewell capacity) s)
    (hi : s.sessions[i]? = some c) (hl : c.reader.IsListening) (hf : c.link.read = (.frame f, link))
    (hp : f.reading? = some p) (hs : f.size ≤ c.limits.frameSize) :
    ∃ t r deed, s.stepRead i = some t ∧ Does s.stamp c.id c.identity p deed r ∧
      (∀ deed' r', Does s.stamp c.id c.identity p deed' r' → deed' = deed) ∧ s.Reacts t i c link r ∧
      t.GoesOn i c.mailbox c.reader r ∧
      (run.IsUntampered c.mailbox → r.reply.isSome →
        ((t.mailbox c.mailbox).loan = .fresh ↔ (s.mailbox c.mailbox).pipe.writable)) := by
  obtain ⟨_, hsettled⟩ := run.settled settled_new
  have ht := stepRead_eq hi hl hf hp hs
  let r := Reaction.ofPayload s.stamp c.id c.identity p
  have hreacts : s.Reacts _ i c link r := reacts_react
  have ⟨deed, hdoes⟩ : ∃ deed, Does s.stamp c.id c.identity p deed r := Does.exists_ofPayload
  have ⟨hlt, _⟩ := List.getElem?_eq_some_iff.mp hi
  have hsettled' := hsettled.step (.session i .read ht)
  have hto : r.IsTo c.id c.identity := ⟨c.limits, f, s.stamp, p, judge_of_reading hp hs, rfl⟩
  have hi' := hreacts.sessions ▸ List.getElem?_set_self hlt
  obtain ⟨m, hm, _⟩ := hsettled.boxed c (List.mem_of_getElem? hi)
  have hmailbox : _ = r.lent (s.mailbox c.mailbox) := mailbox_eq hm ▸ mailbox_react (i := i) (c := { c with link }) hm
  have hcommand (command : Command) : r.command = some command → command.IsRequest := hto.isRequest
  refine ⟨_, r, deed, ht, hdoes, fun _ _ h => h.unique hdoes, hreacts, ⟨fun n hn hloan => ?answer, fun hn => ?command⟩,
    fun hrun hr => ?lent⟩
  case answer =>
    have hk : r.courier (r.lent (s.mailbox c.mailbox)).loan = .answering (some n) r.command :=
      Reaction.courier_of_fresh hn (hmailbox ▸ hloan)
    exact offers_of_answering (c := { c with link }.sendFromReader _) hsettled' hl.2 hi'
      (congrArg (fun k => { c.reader with courier := k }) hk) hloan hcommand
  case command =>
    have hk : r.courier (r.lent (s.mailbox c.mailbox)).loan = .bearing r.command :=
      Reaction.courier_of_lost (hmailbox ▸ hn)
    exact delivers_of_bearing hsettled' hl.2 ⟨_, hi', hk ▸ rfl⟩ hcommand
  case lent =>
    have hlent := run.lent hrun settled_new (List.forall_mem_nil _)
    have habsent := hlent.loan_eq (List.mem_of_getElem? hi) rfl
    rw [hl.2] at habsent
    exact hmailbox ▸ Reaction.loan_lent_eq_fresh_iff hr habsent

-- Ann has something to say to Bob, and gets a copy.
theorem Run.does_once_whisper :
    ∃ (s : Service) (_ : Run (.new "bye") s) (c : Session) (q : Request) (t : Service) (r : Reaction),
      s.sessions[0]? = some c ∧ c.reader.IsListening ∧ s.stepRead 0 = some t ∧
        Does s.stamp c.id c.identity (.ok q) .whisper r ∧ t.GoesOn 0 c.mailbox c.reader r ∧ r.reply.isSome ∧
        (t.mailbox c.mailbox).loan = .fresh := by
  let q : Request := ⟨"private_message", some "hi", none, some "bob"⟩
  let link : Session.Link := { Session.Link.new 8 with inbound := (Pipe.new 8).send (.text q.text) }
  let begun : Session := .new ⟨1⟩ ⟨7, "ann"⟩ .default 0 link
  let registration : Command := .register ⟨⟨1⟩, ⟨7, "ann"⟩, 0⟩
  let x := Exchange.empty.openMailbox 0 256
  let y := x.perform .ascending registration
  have hy : x.handle .ascending registration = y := Exchange.handle_eq_perform (by decide)
  let c : Session := begun.welcome.serve 0
  let service (x : Exchange) (backlog : List Errand) (handled : Nat) (c : Session) : Service :=
    ⟨⟨x, Desk.defaultCapacity, backlog, handled, none, false, "bye"⟩, [c], 1, true, []⟩
  let s₁ := service x [⟨registration, some (.session 0)⟩] 0 begun
  let s₂ := service y [] 1 begun.welcome
  let s₃ := service y [] 1 c
  have hnew : IsNew (.new "bye") ⟨1⟩ := ⟨by decide, List.forall_mem_nil _, List.forall_mem_nil _⟩
  let run₁ : Run (.new "bye") s₁ := .step .refl (.connect ⟨1⟩ ⟨7, "ann"⟩ .default link hnew)
  have hd : s₁.stepDesk .ascending = some (service y [] 1 begun.welcome) := hy ▸ rfl
  let run₂ : Run (.new "bye") s₂ := .step run₁ (.desk .ascending hd)
  let run₃ : Run (.new "bye") s₃ := .step run₂ (.session 0 .serve rfl)
  have hq : (Frame.text q.text).reading? = some (.ok q) := congrArg some Request.represents_text.ofText_eq
  obtain ⟨t, r, deed, ht, hdoes, honly, _, hgo, hlent⟩ :=
    run₃.does_once (i := 0) (c := c) rfl ⟨rfl, rfl⟩ rfl hq (by decide)
  have hwhisper : Does s₃.stamp ⟨1⟩ ⟨7, "ann"⟩ (.ok q) .whisper _ :=
    .whisper rfl rfl (by decide) rfl (by decide) rfl
  obtain rfl := honly _ _ hwhisper
  have hreply : r.reply.isSome := by
    cases hdoes
    rfl
  have huntampered : run₃.IsUntampered 0 := ⟨⟨⟨trivial, id⟩, id⟩, id⟩
  exact ⟨s₃, run₃, c, q, t, r, rfl, ⟨rfl, rfl⟩, ht, hdoes, hgo, hreply, (hlent huntampered hreply).mpr rfl⟩

end Service
end Parley
