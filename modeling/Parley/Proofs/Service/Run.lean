import Parley.Proofs.Desk.Run
import Parley.Proofs.Session.Turn
import Parley.Service

namespace Parley

open Std

-- Who comes with an errand, if it is a registration.
def Errand.newcomer? (e : Errand) : Option ConnectionId :=
  match e.command with
  | .register r => some r.id
  | _           => none

namespace Desk

-- Some errands were left at a desk; otherwise nothing has happened that anyone but the mailboxes can tell.
structure Takes (d d' : Desk) (new : List Errand) : Prop where
  backlog  : d'.backlog = d.backlog ++ new
  handled  : d'.handled = d.handled
  capacity : d'.capacity = d.capacity
  stopped  : d'.stopped = d.stopped
  roster   : d'.exchange.roster = d.exchange.roster
  closed   : d.stopped = true → new = []

variable {d d' d'' : Desk} {new new' : List Errand} {e : Errand} {x : Exchange} {l : Listing} {attended : Bool}
  {rs : Replies}

theorem takes_of_roster_eq (h : x.roster = d.exchange.roster) : d.Takes { d with exchange := x } [] :=
  ⟨(List.append_nil _).symm, rfl, rfl, rfl, h, fun _ => rfl⟩

theorem Takes.refl : d.Takes d [] :=
  takes_of_roster_eq rfl

theorem takes_of_submit (h : d.submit e = .ok d') : d.Takes d' [e] := by
  simp only [submit] at h
  split at h
  case h_1 => cases h
  case h_2 hr =>
    cases h
    refine ⟨rfl, rfl, rfl, rfl, rfl, fun hs => ?_⟩
    simp only [refusal?, hs, if_true] at hr
    split at hr
    case h_1 => split at hr <;> cases hr
    case h_2 => cases hr

theorem Takes.trans (h : d.Takes d' new) (h' : d'.Takes d'' new') : d.Takes d'' (new ++ new') where
  backlog := by rw [h'.backlog, h.backlog, List.append_assoc]
  handled := h'.handled.trans h.handled
  capacity := h'.capacity.trans h.capacity
  stopped := h'.stopped.trans h.stopped
  roster := h'.roster.trans h.roster
  closed hs := by rw [h.closed hs, h'.closed (h.stopped.trans hs), List.nil_append]

theorem Takes.precedes (h : d.Takes d' new) : d.Precedes d' :=
  ⟨Nat.le_of_eq h.handled.symm, h.capacity, fun hs => h.stopped.trans hs⟩

-- Whoever gets a reply waited for it, and waits no more.
theorem exists_caller (h : d.step l attended = some (rs, d')) {r : Caller × Reply} (hr : r ∈ rs) :
    ∃ e ∈ d.backlog, e.caller = some r.1 ∧ (d.backlog = e :: d'.backlog ∨ d'.backlog = []) := by
  obtain ⟨_, ⟨e, _, _, hb, rfl, rfl⟩ | ⟨_, h⟩⟩ := step_eq_some h
  case inl =>
    have ⟨c, hc, hr⟩ := Option.bind_eq_some_iff.mp (Option.mem_toList.mp hr)
    have ⟨_, _, hr⟩ := Option.map_eq_some_iff.mp hr
    exact ⟨e, hb ▸ List.mem_cons_self, hr ▸ hc, .inl hb⟩
  case inr =>
    cases h
    have ⟨e, he, hr⟩ := List.mem_filterMap.mp hr
    refine ⟨e, he, ?_, .inr rfl⟩
    split at hr <;> cases hr <;> assumption

theorem precedes_step (h : d.step l attended = some (rs, d')) : d.Precedes d' := by
  obtain ⟨hs, ⟨_, _, _, _, _, rfl⟩ | ⟨_, h⟩⟩ := step_eq_some h
  case inl => exact ⟨Nat.le_succ _, rfl, id⟩
  case inr =>
    cases h
    exact ⟨Nat.le_refl _, rfl, fun _ => rfl⟩

theorem backlog_step (h : d.step l attended = some (rs, d')) : d'.backlog <:+ d.backlog := by
  obtain ⟨_, ⟨_, _, _, hb, _, rfl⟩ | ⟨_, h⟩⟩ := step_eq_some h
  case inl => exact hb ▸ List.suffix_cons ..
  case inr =>
    cases h
    exact List.nil_suffix

end Desk

namespace Service

-- What a session may do by itself.
inductive Move where
  | serve
  | courier
  | write
  | notice
  | read
  | expire
  | refuse
  | finish

def Move.apply? (s : Service) (i : Nat) : Move → Option Service
  | serve   => s.stepServe i
  | courier => s.stepCourier i
  | write   => s.stepWriter i
  | notice  => s.stepCancelled i
  | read    => s.stepRead i
  | expire  => s.stepOverdue i
  | refuse  => s.stepRefusing i
  | finish  => s.stepFinish i

-- An id that nobody has, or is about to have.
structure IsNew (s : Service) (id : ConnectionId) : Prop where
  gone     : ¬ s.desk.exchange.roster.IsLive id
  pending  : ∀ e ∈ s.desk.backlog, e.newcomer? ≠ some id
  sessions : ∀ c ∈ s.sessions, c.id ≠ id

-- Sessions come and go, each of them takes its steps whenever it can, the exchange takes its own, and visitors do
-- what they like.  Mailboxes and transports may be changed by anyone in any way.
inductive Step : Service → Service → Type
  | connect {s} (id : ConnectionId) (identity : Identity) (limits : Session.Limits) (link : Session.Link)
      (h : s.IsNew id) : Step s (s.connect id identity limits link)
  | session {s t} (i : Nat) (m : Move) (h : m.apply? s i = some t) : Step s t
  | desk {s t} (l : Listing) (h : s.stepDesk l = some t) : Step s t
  | visit {s t} (ticket : Nat) (c : Command) (h : s.submit ⟨c, some (.visitor ticket)⟩ = .ok t)
      (hn : ∀ r, c = .register r → s.IsNew r.id) : Step s t
  | shutdown {s} : Step s s.shutdown
  | pass {s} (time : Nat) : Step s (s.passTo time)
  | openMailbox {s} (capacity : Nat) : Step s (s.openMailbox capacity).2
  | mailbox {s} (k : Nat) (f : Mailbox → Mailbox) : Step s (s.changeMailbox k f)
  | link {s} (i : Nat) (f : Session.Link → Session.Link) : Step s (s.changeLink i f)
  | collect {s} : Step s { s with replies := [] }
  | desert {s} : Step s { s with attended := false }

inductive Run : Service → Service → Type
  | refl {s} : Run s s
  | step {s t u} : Run s t → Step t u → Run s u

-- The errands that were left at the desk between two states with nothing, or one handled, in between.
def left (s t : Service) : List Errand := t.desk.backlog.drop s.desk.backlog.length

-- All errands that were left at the desk, each at the place of its number.
def Run.left {s t : Service} : Run s t → List Errand
  | refl                    => []
  | @step _ t u run _ => run.left ++ t.left u

variable {s t : Service} {i j : Nat} {k : Session.Courier} {new : List Errand}
  {news : Except Refusal Session.Courier} {e : Errand} {number : Nat} {f : Mailbox → Mailbox} {c c' c'' : Session}

theorem left_of_takes (h : s.desk.Takes t.desk new) : s.left t = new := by
  rw [left, h.backlog, List.drop_left]

-- What a step of a session makes of the service.
structure Turns (s t : Service) (i : Nat) (c c' : Session) (new : List Errand) : Prop where
  before   : s.sessions[i]? = some c
  sessions : t.sessions = s.sessions.set i c'
  takes    : s.desk.Takes t.desk new
  turn     : Session.Turn s.desk c c' new

theorem Turns.self (h : Turns s t i c c' new) : t.sessions[i]? = some c' := by
  have ⟨hlt, _⟩ := List.getElem?_eq_some_iff.mp h.before
  rw [h.sessions, List.getElem?_set_self hlt]

theorem Turns.other (h : Turns s t i c c' new) (hij : i ≠ j) : t.sessions[j]? = s.sessions[j]? := by
  rw [h.sessions, List.getElem?_set_ne hij]

-- Another session in the place of the one that has taken its turn, or one that has not.
theorem Turns.cases (h : Turns s t i c c' new) (hc : t.sessions[j]? = some c'') :
    (i = j ∧ c'' = c') ∨ (i ≠ j ∧ s.sessions[j]? = some c'') := by
  by_cases hij : i = j
  case pos =>
    subst hij
    exact .inl ⟨rfl, Option.some.inj (hc.symm.trans h.self)⟩
  case neg => exact .inr ⟨hij, (h.other hij).symm.trans hc⟩

theorem takes_changeMailbox : s.desk.Takes (s.changeMailbox number f).desk [] :=
  Desk.takes_of_roster_eq rfl

theorem takes_submit (h : s.submit e = .ok t) : s.desk.Takes t.desk [e] ∧ t.sessions = s.sessions := by
  cases hd : s.desk.submit e <;> simp only [submit, hd, Except.map] at h <;> cases h
  case ok => exact ⟨Desk.takes_of_submit hd, rfl⟩

theorem exchange_submit (h : s.submit e = .ok t) : t.desk.exchange = s.desk.exchange := by
  cases hd : s.desk.submit e <;> simp only [submit, hd, Except.map] at h <;> cases h
  case ok => exact (Desk.exchange_submit hd).1

-- On its way to the desk, a courier sees to nothing but the mailbox of its session.
theorem exchange_forward (h : s.forward number k = some (news, t)) :
    t.desk.exchange = s.desk.exchange.changeMailbox number k.tend := by
  have hsame : s.desk.exchange = s.desk.exchange.changeMailbox number (fun m => m) :=
    (Exchange.changeMailbox_of_eq fun _ => rfl).symm
  simp only [forward] at h
  split at h
  case h_1 => cases h
  case h_2 | h_3 => cases h; rfl
  case h_4 =>
    split at h
    case h_1 ht => cases h; exact (exchange_submit ht).trans hsame
    case h_2 => cases h; exact hsame
  case h_5 =>
    split at h
    case isTrue => cases h; exact hsame
    case isFalse => split at h <;> cases h; exact hsame

-- A courier gets on, or is turned away.
theorem forward_cases (h : s.forward number k = some (news, t)) :
    t.sessions = s.sessions ∧
    ((∃ k' new, news = .ok k' ∧ k.Forwards s.desk k' new ∧ s.desk.Takes t.desk new) ∨
      (∃ r, news = .error r ∧ k.Refused s.desk ∧ s.desk.Takes t.desk [])) := by
  simp only [forward] at h
  split at h
  case h_1 => cases h
  case h_2 =>
    cases h
    exact ⟨rfl, .inl ⟨_, _, rfl, .offered, takes_changeMailbox⟩⟩
  case h_3 =>
    cases h
    exact ⟨rfl, .inl ⟨_, _, rfl, .returned, takes_changeMailbox⟩⟩
  case h_4 c =>
    split at h
    case h_1 ht =>
      cases h
      have ⟨hd, hs⟩ := takes_submit ht
      refine ⟨hs, .inl ⟨_, _, rfl, .left ?_, hd⟩⟩
      cases hr : s.desk.refusal? c
      case none => rfl
      case some => simp [submit, Desk.submit, hr, Except.map] at ht
    case h_2 r hr =>
      cases h
      refine ⟨rfl, .inr ⟨r, rfl, ?_, Desk.takes_of_roster_eq rfl⟩⟩
      cases hr' : s.desk.refusal? c
      case none => simp [submit, Desk.submit, hr', Except.map] at hr
      case some => exact .carrying hr'
  case h_5 n =>
    split at h
    case isTrue hr =>
      cases h
      exact ⟨rfl, .inl ⟨_, _, rfl, .arrived hr, Desk.takes_of_roster_eq rfl⟩⟩
    case isFalse =>
      split at h
      case isFalse => cases h
      case isTrue hs =>
        cases h
        exact ⟨rfl, .inr ⟨_, rfl, .waiting hs, Desk.takes_of_roster_eq rfl⟩⟩

theorem turns_serve (h : s.stepServe i = some t) : ∃ c c', Turns s t i c c' [] := by
  have ⟨c, hc, h⟩ := Option.bind_eq_some_iff.mp h
  split at h
  case isFalse => cases h
  case isTrue hs =>
    cases h
    exact ⟨c, _, hc, rfl, .refl, .serve _ hs⟩

theorem turns_courier (h : s.stepCourier i = some t) : ∃ c c' new, Turns s t i c c' new := by
  have ⟨c, hc, h⟩ := Option.bind_eq_some_iff.mp h
  have ⟨(news, u), hf, h⟩ := Option.bind_eq_some_iff.mp h
  obtain ⟨hs, ⟨k, new, rfl, hk, hd⟩ | ⟨r, rfl, hk, hd⟩⟩ := forward_cases hf
  case inl =>
    cases h
    exact ⟨c, _, new, hc, hs ▸ rfl, hd, .readerForwards hk⟩
  case inr =>
    simp only at h
    split at h
    case isTrue hr =>
      cases h
      exact ⟨c, _, [], hc, hs ▸ rfl, hd, .readerGivesUp hk hr⟩
    case isFalse hr =>
      cases h
      exact ⟨c, _, [], hc, hs ▸ rfl, hd, .readerRefused hk (Bool.eq_false_iff.mpr hr)⟩

-- A writer that has chosen something goes on.
theorem turns_takeFrame {f : Frame} (hc : s.sessions[i]? = some c) (hp : c.writer.phase.IsAtWork) :
    ∃ c', Turns s (s.takeFrame i c f) i c c' [] := by
  have ha : c.Alike { c with writer := c.writer.take c.limits s.now f } := Session.alike_of_atWork hp trivial
  cases f
  case text => exact ⟨_, hc, rfl, takes_changeMailbox, .stay ha⟩
  all_goals exact ⟨_, hc, rfl, .refl, .stay ha⟩

theorem turns_writer (h : s.stepWriter i = some t) : ∃ c c' new, Turns s t i c c' new := by
  have ⟨c, hc, h⟩ := Option.bind_eq_some_iff.mp h
  have hwork {p : Session.Writer.Phase} (hp : c.writer.phase = p) (hw : p.IsAtWork) : c.writer.phase.IsAtWork :=
    hp ▸ hw
  simp only at h
  split at h
  case h_1 hp | h_2 hp =>
    have hp := hwork hp trivial
    split at h
    case h_1 =>
      cases h
      exact ⟨c, _, [], hc, rfl, .refl, .stay (Session.alike_of_atWork hp trivial)⟩
    case h_2 f _ =>
      cases h
      have ⟨c', ht⟩ := turns_takeFrame (f := f) hc hp
      exact ⟨c, c', [], ht⟩
    case h_3 =>
      cases h <;> exact ⟨c, _, [], hc, rfl, .refl, .stay (Session.alike_of_atWork hp trivial)⟩
  case h_3 hp =>
    have ⟨w, hw, h⟩ := Option.bind_eq_some_iff.mp h
    cases h
    have hsent := Session.Writer.atWork_of_sent? hw
    exact ⟨c, _, [], hc, rfl, .refl, .stay (Session.alike_of_atWork (hwork hp trivial) hsent)⟩
  case h_4 hp =>
    split at h
    case isTrue => cases h
    case isFalse =>
      cases h
      exact ⟨c, _, [], hc, rfl, takes_changeMailbox, .writerStops (hwork hp trivial)⟩
  case h_5 hp =>
    cases h
    exact ⟨c, _, [], hc, rfl, takes_changeMailbox, .writerEnds hp⟩
  case h_6 k _ hp =>
    have ⟨(news, u), hf, h⟩ := Option.bind_eq_some_iff.mp h
    cases h
    obtain ⟨hs, ⟨k', new, rfl, hk, hd⟩ | ⟨r, rfl, hk, hd⟩⟩ := forward_cases hf
    case inl => exact ⟨c, _, new, hc, hs ▸ rfl, hd, .writerForwards hp hk⟩
    case inr => exact ⟨c, _, [], hc, hs ▸ rfl, hd, .writerRefused hp hk⟩
  case h_7 => cases h

theorem turns_cancelled (h : s.stepCancelled i = some t) : ∃ c c', Turns s t i c c' [] := by
  have ⟨c, hc, h⟩ := Option.bind_eq_some_iff.mp h
  split at h
  case isFalse => cases h
  case isTrue hl =>
    cases h
    exact ⟨c, _, hc, rfl, .refl, .readerStops .refl hl.1⟩

theorem turns_overdue (h : s.stepOverdue i = some t) : ∃ c c', Turns s t i c c' [] := by
  have ⟨c, hc, h⟩ := Option.bind_eq_some_iff.mp h
  split at h
  case isFalse => cases h
  case isTrue hl =>
    cases h
    exact ⟨c, _, hc, rfl, .refl, .readerStops .refl hl.1⟩

-- Nobody at the desk can tell what a client has asked for before the courier arrives.
theorem takes_react {r : Session.Reaction} : s.desk.Takes (s.react i c r).desk [] :=
  Desk.takes_of_roster_eq rfl

theorem turns_read (h : s.stepRead i = some t) : ∃ c c', Turns s t i c c' [] := by
  have ⟨c, hc, h⟩ := Option.bind_eq_some_iff.mp h
  split at h
  case isTrue => cases h
  case isFalse hl =>
    have hl := Decidable.not_not.mp hl
    simp only at h
    split at h
    case h_2 | h_3 =>
      cases h
      exact ⟨c, _, hc, rfl, .refl, .readerStops .refl hl⟩
    case h_4 => cases h
    case h_1 f link _ =>
      let c' : Session := { c with link, reader := c.reader.after c.limits s.now f }
      have hset c'' : (s.sessions.set i c').set i c'' = s.sessions.set i c'' := List.set_set ..
      split at h
      case h_1 p hj =>
        cases h
        have ha : c.Alike c' := by
          refine ⟨rfl, rfl, rfl, ?_, ?_, rfl, .inl rfl⟩ <;> simp [c', Session.Reader.after, hj]
        exact ⟨c, _, hc, hset _, takes_react (i := i), .request ha hl ⟨c.limits, f, _, p, hj, rfl⟩ _⟩
      case h_2 hj =>
        cases h
        have hr : c'.readerDone = Session.readerDone { c with link } := by
          simp only [c', Session.Reader.after, hj]
          rfl
        exact ⟨c, _, hc, hset _, .refl, hr ▸ .readerStops (Session.alike_of_link link) hl⟩
      case h_3 hj | h_4 hj =>
        cases h
        have ha : c.Alike { c' with link := link.goOn f } := by
          refine ⟨rfl, rfl, rfl, ?_, ?_, rfl, .inl rfl⟩ <;> simp [c', Session.Reader.after, hj]
        exact ⟨c, _, hc, hset _, .refl, .stay ha⟩

theorem turns_refusing (h : s.stepRefusing i = some t) : ∃ c c', Turns s t i c c' [] := by
  have ⟨c, hc, h⟩ := Option.bind_eq_some_iff.mp h
  have ha {stage : Session.Stage} {link : Session.Link} : Session.Alike { c with stage } { c with stage, link } :=
    Session.alike_of_link link
  split at h
  case h_1 r asked hs =>
    have hr : c.stage.IsRefusal := hs ▸ trivial
    have hc' : c.stage.lifecycle ≠ .closed := hs ▸ nofun
    split at h
    case isTrue =>
      split at h
      case isTrue => cases h
      case isFalse =>
        cases h
        exact ⟨c, _, hc, rfl, .refl, .refuse hr trivial hc' ha⟩
    case isFalse =>
      cases h
      exact ⟨c, _, hc, rfl, .refl, .refuse hr trivial hc' ha⟩
  case h_2 r hs =>
    split at h
    case isTrue => cases h
    case isFalse =>
      cases h
      have hr : c.stage.IsRefusal := hs ▸ trivial
      exact ⟨c, _, hc, rfl, takes_changeMailbox, .refuse hr trivial (hs ▸ nofun) ha⟩
  case h_3 => cases h

theorem turns_finish (h : s.stepFinish i = some t) : ∃ c c', Turns s t i c c' [] := by
  have ⟨c, hc, h⟩ := Option.bind_eq_some_iff.mp h
  split at h
  case isFalse => cases h
  case isTrue hf =>
    cases h
    exact ⟨c, _, hc, rfl, .refl, .finish hf.1 hf.2.1 hf.2.2⟩

-- Whatever a session does by itself is one of its turns.
theorem Turns.of_move {m : Move} (h : m.apply? s i = some t) : ∃ c c' new, Turns s t i c c' new := by
  have hnone (h : ∃ c c', Turns s t i c c' []) : ∃ c c' new, Turns s t i c c' new :=
    have ⟨c, c', h⟩ := h
    ⟨c, c', [], h⟩
  cases m
  case serve => exact hnone (turns_serve h)
  case courier => exact turns_courier h
  case write => exact turns_writer h
  case notice => exact hnone (turns_cancelled h)
  case read => exact hnone (turns_read h)
  case expire => exact hnone (turns_overdue h)
  case refuse => exact hnone (turns_refusing h)
  case finish => exact hnone (turns_finish h)

theorem handOver_cases (r : Caller × Reply) :
    s.desk.Takes (s.handOver r).desk [] ∧
    ((s.handOver r).sessions = s.sessions ∨
      ∃ i c c', r.1 = .session i ∧ s.sessions[i]? = some c ∧ c.Told c' ∧
        (s.handOver r).sessions = s.sessions.set i c') := by
  simp only [handOver]
  split
  case h_1 => exact ⟨.refl, .inl rfl⟩
  case h_2 i _ =>
    split
    case h_1 => exact ⟨.refl, .inl rfl⟩
    case h_2 c hc =>
      split
      case h_1 r => exact ⟨takes_changeMailbox, .inr ⟨i, c, _, rfl, hc, .refuse r, rfl⟩⟩
      case h_2 => exact ⟨.refl, .inr ⟨i, c, _, rfl, hc, .welcome, rfl⟩⟩

-- Nobody learns anything but those who waited for a reply.
theorem foldl_handOver (rs : Desk.Replies) :
    s.desk.Takes (rs.foldl handOver s).desk [] ∧
    (rs.foldl handOver s).sessions.length = s.sessions.length ∧
    ∀ i c', (rs.foldl handOver s).sessions[i]? = some c' →
      ∃ c, s.sessions[i]? = some c ∧ (c' = c ∨ c.Told c' ∧ ∃ r ∈ rs, r.1 = .session i) := by
  induction rs generalizing s
  case nil => exact ⟨.refl, rfl, fun _ c' hc => ⟨c', hc, .inl rfl⟩⟩
  case cons r rs hi =>
    have ⟨hd, hl, hc⟩ := hi (s := s.handOver r)
    have ⟨hd', hs⟩ := handOver_cases (s := s) r
    refine ⟨hd'.trans hd, ?_, fun i c' hc' => ?_⟩
    case refine_1 =>
      rw [List.foldl_cons, hl]
      obtain hs | ⟨_, _, _, _, _, _, hs⟩ := hs <;> rw [hs]
      exact List.length_set
    case refine_2 =>
      have ⟨c₁, hc₁, ht⟩ := hc i c' hc'
      -- What a session learns later stands.
      have hlater (hs : s.sessions[i]? = some c₁) :
          ∃ c, s.sessions[i]? = some c ∧ (c' = c ∨ c.Told c' ∧ ∃ r' ∈ r :: rs, r'.1 = .session i) := by
        refine ⟨c₁, hs, ht.imp_right fun ⟨ht, r', hm, hr⟩ => ⟨ht, r', List.mem_cons_of_mem _ hm, hr⟩⟩
      obtain hs | ⟨j, c, c'', hr, hj, hn, hs⟩ := hs
      case inl => exact hlater (hs ▸ hc₁)
      case inr =>
        rw [hs, List.getElem?_set] at hc₁
        split at hc₁
        case isFalse => exact hlater hc₁
        case isTrue hij =>
          subst hij
          split at hc₁
          case isFalse => cases hc₁
          case isTrue =>
            cases hc₁
            refine ⟨c, hj, .inr ⟨?_, r, List.mem_cons_self, hr⟩⟩
            obtain rfl | ⟨ht, _⟩ := ht
            · exact hn
            · exact hn.trans ht

theorem stepDesk_cases {l : Listing} (h : s.stepDesk l = some t) :
    ∃ rs d, s.desk.step l s.IsAttended = some (rs, d) ∧ d.Takes t.desk [] ∧
      t.sessions.length = s.sessions.length ∧
      ∀ i c', t.sessions[i]? = some c' →
        ∃ c, s.sessions[i]? = some c ∧ (c' = c ∨ c.Told c' ∧ ∃ r ∈ rs, r.1 = .session i) := by
  have ⟨(rs, d), hd, ht⟩ := Option.map_eq_some_iff.mp h
  exact ⟨rs, d, hd, ht ▸ foldl_handOver (s := { s with desk := d }) rs⟩

theorem left_desk {l : Listing} (h : s.stepDesk l = some t) : s.left t = [] := by
  have ⟨rs, d, hd, ht, _⟩ := stepDesk_cases h
  refine List.drop_eq_nil_of_le ?_
  rw [ht.backlog, List.append_nil]
  exact (Desk.backlog_step hd).length_le

-- A session that begins asks to be registered, unless it is over at once.
theorem connect_cases (id : ConnectionId) (identity : Identity) (limits : Session.Limits) (link : Session.Link) :
    ∃ c new, c.Begins id identity ∧ (s.connect id identity limits link).sessions = s.sessions ++ [c] ∧
      s.desk.Takes (s.connect id identity limits link).desk new ∧
      (new = [] ∨ c.stage = .registering ∧
        new = [⟨.register ⟨id, identity, s.mailboxes⟩, some (.session s.sessions.length)⟩]) := by
  have hset (c c' : Session) : (s.sessions ++ [c]).set s.sessions.length c' = s.sessions ++ [c'] := by simp
  have hopen : s.desk.Takes (s.openMailbox limits.outboundCapacity).2.desk [] := Desk.takes_of_roster_eq rfl
  let c := Session.new id identity limits s.mailboxes link
  simp only [connect]
  split
  case isTrue => exact ⟨c.break_, [], ⟨rfl, rfl, trivial, rfl, rfl, rfl⟩, hset .., hopen, .inl rfl⟩
  case isFalse =>
    split
    case h_1 t ht =>
      have ⟨hd, hs⟩ := takes_submit ht
      exact ⟨c, _, ⟨rfl, rfl, trivial, rfl, rfl, rfl⟩, hs, hopen.trans hd, .inr ⟨rfl, rfl⟩⟩
    case h_2 r _ =>
      refine ⟨c.refuse r, [], ⟨rfl, rfl, trivial, rfl, rfl, rfl⟩, hset .., ?_, .inl rfl⟩
      exact Desk.takes_of_roster_eq rfl

theorem shutdown_cases : s.desk.Takes s.shutdown.desk [] ∧ s.shutdown.sessions = s.sessions := by
  have hfold (cs : List Session) (t : Service) :
      let u := cs.foldl (fun t c => t.changeMailbox c.mailbox (·.cancel s.now)) t
      t.desk.Takes u.desk [] ∧ u.sessions = t.sessions := by
    induction cs generalizing t
    case nil => exact ⟨.refl, rfl⟩
    case cons c cs hi =>
      have ⟨hd, hs⟩ := hi (t.changeMailbox c.mailbox (·.cancel s.now))
      exact ⟨takes_changeMailbox.trans hd, hs⟩
  have ⟨hd, hs⟩ := hfold s.sessions { s with desk := s.desk.shutdown }
  exact ⟨⟨hd.backlog, hd.handled, hd.capacity, hd.stopped, hd.roster, hd.closed⟩, hs⟩

-- A change of a transport goes unnoticed.
theorem changeLink_cases (f : Session.Link → Session.Link) :
    s.changeLink i f = s ∨ ∃ c c', Turns s (s.changeLink i f) i c c' [] := by
  simp only [changeLink]
  split
  case h_2 => exact .inl rfl
  case h_1 c hc => exact .inr ⟨c, _, hc, rfl, .refl, .stay (Session.alike_of_link _)⟩

end Service
end Parley
