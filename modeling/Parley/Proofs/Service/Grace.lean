import Parley.Proofs.Service.Prompt

namespace Parley

open Std

namespace Session

variable {d : Desk} {m m' : Mailbox} {c c' : Session} {left : List Errand}

theorem Stride.isRegistered (h : c.Stride d m c' m') (hs : c.stage.IsRegistered) : c'.stage.IsRegistered := by
  cases h
  case serve | stop | reject | finish => trivial
  case retreat =>
    unfold rebuff
    split
    · trivial
    · exact hs
  case ask hr _ | dismiss hr _ | leave hr _ =>
    rw [hr] at hs
    exact hs.elim
  all_goals exact hs

theorem Stage.IsRegistered.ne_registering {stage : Stage} (h : stage.IsRegistered) : stage ≠ .registering := by
  rintro rfl
  exact h

theorem Stage.IsRegistered.eq_finished {stage : Stage} (h : stage.IsRegistered) (hr : 3 ≤ stage.lifecycle.rank) :
    stage = .finished none := by
  cases stage
  case finished r =>
    cases r
    case none => rfl
    case some => exact h.elim
  case refusing | leaving => exact h.elim
  all_goals exact absurd hr (by decide)

-- A writer that is over does nothing more.
theorem Keeps.phase_of_finished (h : Keeps d left c) (hs : c.stage = .finished none) : c.writer.phase = .done := by
  cases h
  case finished hp _ => exact hp
  case outside ho _ _ _ _ _ => exact (hs ▸ ho : Stage.IsOutside (.finished none)).elim
  all_goals rename c.stage = _ => hq; rw [hs] at hq; cases hq

theorem Keeps.running_of_serving (h : Keeps d left c) (hs : c.stage = .serving) : c.reader.running = true := by
  cases h
  case serving hr _ _ _ | writerGone hr _ _ _ => exact hr
  case outside ho _ _ _ _ _ => exact (hs ▸ ho : Stage.IsOutside .serving).elim
  all_goals rename c.stage = _ => hq; rw [hs] at hq; cases hq

-- What a session waits for, and until when, after it was told to stop: the end of the time of grace, or that of the
-- time that its transport has to close.
inductive Waits (c : Session) (t₀ : Nat) : Nat → Prop
  | writing (h : c.writer.phase.IsWriting) : Waits c t₀ (t₀ + c.limits.writeGrace)
  | closing {since} (h : c.writer.phase = .closing since) : Waits c t₀ (since + c.limits.writeGrace)

end Session

namespace Service

-- No transport is being closed since a time to come.
def IsTimely (s : Service) : Prop :=
  ∀ c ∈ s.sessions, ∀ since, c.writer.phase = .closing since → since ≤ s.now

-- How far a session has got whose connection was told to stop at a time.
structure Winds (s : Service) (i t₀ : Nat) (c : Session) : Prop where
  session   : s.sessions[i]? = some c
  stage     : c.stage.IsRegistered
  cancelled : s.desk.exchange.CancelledAt c.mailbox t₀
  writing   : c.IsWriting → s.now ≤ t₀ + c.limits.writeGrace
  closing   : ∀ since, c.writer.phase = .closing since → since ≤ t₀ + c.limits.writeGrace
  closed    : c.stage ≠ .finished none → s.now ≤ t₀ + 2 * c.limits.writeGrace

variable {s t u : Service} {i t₀ : Nat} {c c' : Session} {left : List Errand}

theorem Befalls.isWriting (h : s.Befalls t i c c') (hs : c.stage.IsRegistered) (hc : c'.IsWriting) : c.IsWriting := by
  cases h
  case strides h => exact h.stride.isWriting hc
  case suffers h =>
    obtain ⟨_, rfl⟩ := h.exists_link hs.ne_registering
    exact hc

theorem Befalls.closing {since : Nat} (h : s.Befalls t i c c') (hs : c.stage.IsRegistered)
    (hc : c'.writer.phase = .closing since) :
    c.writer.phase = .closing since ∨ c.IsWriting ∧ since = s.now := by
  cases h
  case strides h => exact h.stride.closing hc
  case suffers h =>
    obtain ⟨_, rfl⟩ := h.exists_link hs.ne_registering
    exact .inl hc

theorem Befalls.isRegistered (h : s.Befalls t i c c') (hs : c.stage.IsRegistered) : c'.stage.IsRegistered := by
  cases h
  case strides h => exact h.stride.isRegistered hs
  case suffers h =>
    obtain ⟨_, rfl⟩ := h.exists_link hs.ne_registering
    exact hs

-- A session that rests after it was told to stop is over, or waits for one of its own timers.
theorem Rests.waits (h : s.Rests i) (hk : Session.Keeps s.desk left c) (hi : s.sessions[i]? = some c)
    (hs : c.stage.IsRegistered) (hc : s.desk.exchange.CancelledAt c.mailbox t₀) :
    c.stage = .finished none ∨
      ∃ due ∈ c.timers (s.mailbox c.mailbox), s.now < due ∧ c.Waits t₀ due := by
  have hc := cancelledAt_iff.mp hc
  have hrun := h.not_running hi (hc ▸ rfl)
  have hexpired {now : Nat} (hn : ¬ Session.Writer.IsExpired c.limits (s.mailbox c.mailbox).cancelledAt now) :
      now < t₀ + c.limits.writeGrace := by
    simpa [Session.Writer.IsExpired, hc] using hn
  cases hq : c.stage
  case registering | refusing | leaving | broken =>
    rw [hq] at hs
    exact hs.elim
  case admitted => exact absurd hq (h.not_admitted hi)
  case serving => exact nomatch hrun.symm.trans (hk.running_of_serving hq)
  case finished r =>
    rw [hq] at hs
    exact .inl (hs.eq_finished (Nat.le_refl _))
  case draining =>
    refine .inr ?_
    obtain ⟨probing, hp, hw⟩ | ⟨f, asked, hp, hw⟩ | ⟨since, hp, _, hstuck⟩ | hp := h.writer_cases hi
    case inl =>
      have hlt : s.now < t₀ + c.limits.writeGrace := by
        refine hexpired fun he => ?_
        rw [Session.Writer.await, if_pos he] at hw
        cases hw
      exact ⟨_, by simp [Session.timers, hp, hc], hlt, .writing (hp ▸ trivial)⟩
    case inr.inl =>
      have hlt : s.now < t₀ + c.limits.writeGrace := by
        refine hexpired fun he => ?_
        simp only [Session.Writer.sent?] at hw
        split at hw
        case h_1 | h_2 => cases hw
        case h_3 =>
          rw [if_pos he] at hw
          cases hw
      exact ⟨_, by simp [Session.timers, hp, hc], hlt, .writing (hp ▸ trivial)⟩
    case inr.inr.inl =>
      exact ⟨_, by simp [Session.timers, hp], Nat.not_le.mp hstuck, .closing hp⟩
    case inr.inr.inr =>
      -- Nothing is left to be done.
      have hn : s.stepFinish i = none := h.idle .finish
      simp [stepFinish, hi, hq, hp, h.courier_eq hi] at hn

namespace Winds

variable (h : s.Winds i t₀ c)

include h

theorem due_le {due : Nat} (hw : c.Waits t₀ due) : due ≤ t₀ + 2 * c.limits.writeGrace := by
  cases hw
  case writing => omega
  case closing hp =>
    have := h.closing _ hp
    omega

theorem step (st : Step s t) (hst : st.IsPrompt i) (hp : s.Proper left) (hh : s.IsHoused) :
    ∃ c', t.Winds i t₀ c' ∧ c.IsSame c' := by
  have hm := List.mem_of_getElem? h.session
  have hk := hp.keeps c hm
  obtain ⟨c', hi, hb⟩ := st.befalls hp h.session
  have hsame := hb.isSame
  have hstage := hb.isRegistered h.stage
  have hfinished (hs : c.stage = .finished none) : c'.stage = .finished none := by
    obtain ⟨c₀, hc, _, hr⟩ := (st.proper hp).2.sessions i c h.session
    cases Option.some.inj (hi.symm.trans hc)
    rw [hs] at hr
    exact hstage.eq_finished hr
  refine ⟨c', ⟨hi, hstage, ?cancelled, fun hw => ?writing, fun since hc => ?closing, fun hf => ?closed⟩, hsame⟩
  case cancelled =>
    rw [hsame.mailbox]
    exact (st.outlasts_cancelled (hst.own c h.session)).has (hh c hm) h.cancelled
  case closing =>
    rw [hsame.limits]
    obtain hc | ⟨hw, rfl⟩ := hb.closing h.stage hc
    · exact h.closing since hc
    · exact h.writing hw
  -- Time passes only up to the next timer.
  case writing =>
    rw [hsame.limits]
    have hw := hb.isWriting h.stage hw
    by_cases hlt : s.now < t.now
    case neg => exact Nat.le_trans (Nat.not_lt.mp hlt) (h.writing hw)
    case pos =>
      have hl := hst.lingers hlt
      have hphase : c.writer.phase.IsWriting := hw.resolve_left (hl.not_admitted h.session)
      obtain hf | ⟨due, hmem, hlt', hwait⟩ := hl.waits hk h.session h.stage h.cancelled
      case inl =>
        rw [hk.phase_of_finished hf] at hphase
        exact hphase.elim
      case inr =>
        have hle := hl.timers c h.session due hmem hlt'
        cases hwait
        case writing => exact hle
        case closing hc =>
          rw [hc] at hphase
          exact hphase.elim
  case closed =>
    rw [hsame.limits]
    have hf : c.stage ≠ .finished none := fun hs => hf (hfinished hs)
    by_cases hlt : s.now < t.now
    case neg => exact Nat.le_trans (Nat.not_lt.mp hlt) (h.closed hf)
    case pos =>
      have hl := hst.lingers hlt
      obtain ⟨due, hmem, hlt', hwait⟩ := (hl.waits hk h.session h.stage h.cancelled).resolve_left hf
      exact Nat.le_trans (hl.timers c h.session due hmem hlt') (h.due_le hwait)

theorem prompt (later : s.Prompt i t) (hp : s.Proper left) (hh : s.IsHoused) :
    ∃ c', t.Winds i t₀ c' ∧ c.IsSame c' := by
  induction later
  case refl => exact ⟨c, h, .refl⟩
  case step later st hst hi =>
    obtain ⟨_, hp'⟩ := later.proper hp
    obtain ⟨c₁, h₁, hs₁⟩ := hi
    obtain ⟨c₂, h₂, hs₂⟩ := h₁.step st hst hp' (later.isHoused hp hh)
    exact ⟨c₂, h₂, hs₁.trans hs₂⟩

end Winds

-- What comes of it when a session takes some steps in a row, and nobody does anything in between.
def moves? (s : Service) (i : Nat) (ms : List Move) : Option Service :=
  ms.foldlM (fun s m => m.apply? s i) s

-- A session that was told to stop comes to rest if it is left to itself.
theorem length_le_toil {ms : List Move} (hi : s.sessions[i]? = some c)
    (hc : s.desk.exchange.CancelledAt c.mailbox t₀) (h : s.moves? i ms = some t) :
    ms.length ≤ c.toil (s.mailbox c.mailbox) := by
  induction ms generalizing s c
  case nil => exact Nat.zero_le _
  case cons m ms hind =>
    rw [moves?, List.foldlM_cons] at h
    obtain ⟨u, hm, h⟩ := Option.bind_eq_some_iff.mp h
    obtain ⟨c₀, c', m', hs⟩ := Strides.of_move hm
    cases Option.some.inj (hi.symm.trans hs.before)
    have hlt := hs.stride.toil_lt (cancelledAt_iff.mp hc ▸ rfl)
    have hsame := hs.stride.isSame
    have hc' := hs.cancelledAt hc
    have hbox : u.mailbox c'.mailbox = m' := by
      obtain ⟨m, hm, _⟩ := hc
      refine mailbox_eq ?_
      rw [hsame.mailbox, hs.mailboxes, if_pos rfl, hm, Option.map_some]
    have hle := hind hs.self (hsame.mailbox ▸ hc') h
    rw [hbox] at hle
    exact Nat.lt_of_le_of_lt hle hlt

theorem Step.isTimely (st : Step s t) (hp : s.Proper left) (h : s.IsTimely) : t.IsTimely := by
  intro c' hm since hc
  obtain ⟨i, hi⟩ := List.mem_iff_getElem?.mp hm
  obtain ⟨c, hold, hb⟩ | ⟨_, ho⟩ := st.origin hp hi
  case inr =>
    rw [ho.writer] at hc
    cases hc
  case inl =>
    have ⟨_, _, hlasts⟩ := st.exists_outlasts
    refine Nat.le_trans ?_ hlasts.now
    cases hb
    case strides hs =>
      obtain hc | ⟨_, rfl⟩ := hs.stride.closing hc
      · exact h c (List.mem_of_getElem? hold) since hc
      · exact Nat.le_refl _
    case suffers hc' => exact h c (List.mem_of_getElem? hold) since (hc'.writer_eq ▸ hc)

theorem Run.isTimely (run : Run s t) (hp : s.Proper []) (h : s.IsTimely) : t.IsTimely := by
  induction run
  case refl => exact h
  case step run st hi => exact st.isTimely (run.proper hp).1 hi

-- Wherever a run leads in which a connection was registered, if it is told to stop then, and from then on its session
-- is prompt, whatever else happens, and whatever its transport does: its writer has left its loop when the time of
-- grace is over, and the session is over when the time of grace has passed twice.  If it rests before that, one of its
-- own timers is still to fire, and it comes to rest after only so many steps of its own.
theorem Run.closes_in_time {farewell : String} {capacity : Nat} (run : Run (.new farewell capacity) s)
    (hi : s.sessions[i]? = some c) (hs : c.stage.IsRegistered)
    (hc : (s.mailbox c.mailbox).cancelledAt = some s.now) (later : s.Prompt i u) :
    ∃ c', u.sessions[i]? = some c' ∧ c'.limits = c.limits ∧
      (s.now + c.limits.writeGrace < u.now → ¬ c'.IsWriting) ∧
      (s.now + 2 * c.limits.writeGrace < u.now → c'.stage = .finished none) ∧
      (u.Rests i →
        (s.now + c.limits.writeGrace ≤ u.now → ¬ c'.IsWriting) ∧
        (s.now + 2 * c.limits.writeGrace ≤ u.now → c'.stage = .finished none) ∧
        (c'.stage = .finished none ∨
          ∃ due ∈ c'.timers (u.mailbox c'.mailbox), u.now < due ∧ due ≤ s.now + 2 * c.limits.writeGrace)) ∧
      ∀ ms v, u.moves? i ms = some v → ms.length ≤ c'.toil (u.mailbox c'.mailbox) := by
  obtain ⟨hp, _⟩ := run.proper proper_new
  rw [List.nil_append] at hp
  have hh := run.isHoused proper_new isHoused_new
  have ht := run.isTimely proper_new (List.forall_mem_nil _)
  have hm := List.mem_of_getElem? hi
  have hwinds : s.Winds i s.now c :=
    { session   := hi
      stage     := hs
      cancelled := cancelledAt_iff.mpr hc
      writing   := fun _ => Nat.le_add_right ..
      closing   := fun since hc => Nat.le_trans (ht c hm since hc) (Nat.le_add_right ..)
      closed    := fun _ => Nat.le_add_right .. }
  obtain ⟨c', hw, hsame⟩ := hwinds.prompt later hp hh
  obtain ⟨_, hp'⟩ := later.proper hp
  have hk := hp'.keeps c' (List.mem_of_getElem? hw.session)
  have hl := hsame.limits
  refine ⟨c', hw.session, hl, fun hlt hc => ?left, fun hlt => ?closed, fun hr => ?rests,
    fun ms v h => length_le_toil hw.session hw.cancelled h⟩
  case left => exact absurd (hl ▸ hw.writing hc) (Nat.not_le.mpr hlt)
  case closed => exact Decidable.not_not.mp fun hf => absurd (hl ▸ hw.closed hf) (Nat.not_le.mpr hlt)
  case rests =>
    have hwait := hr.waits hk hw.session hw.stage hw.cancelled
    refine ⟨fun hle hc => ?_, fun hle => ?_,
      hwait.imp_right fun ⟨due, hm, hlt, hd⟩ => ⟨due, hm, hlt, hl ▸ hw.due_le hd⟩⟩
    case refine_1 =>
      have hphase : c'.writer.phase.IsWriting := hc.resolve_left (hr.not_admitted hw.session)
      obtain hf | ⟨due, hdue, hlt, hd⟩ := hwait
      case inl =>
        rw [hk.phase_of_finished hf] at hphase
        exact hphase.elim
      case inr =>
        cases hd
        case writing => exact absurd (hl ▸ hlt) (Nat.not_lt.mpr hle)
        case closing hd =>
          rw [hd] at hphase
          exact hphase.elim
    case refine_2 =>
      refine hwait.resolve_right fun ⟨due, _, hlt, hd⟩ => ?_
      exact absurd (Nat.lt_of_lt_of_le hlt (hl ▸ hw.due_le hd)) (Nat.not_lt.mpr hle)

-- Ann has hung up, and her transport has no room for the notice that her writer has in hand, nor does it ever close.
theorem Run.closes_in_time_stalled :
    ∃ (s u : Service) (_ : Run (.new "bye") s) (c c' : Session), s.sessions[0]? = some c ∧
      c.limits.writeGrace = millis 5 ∧ (s.mailbox c.mailbox).cancelledAt = some s.now ∧
      c.link.outcome true = .pending ∧ c.link.closeHangs ∧
      s.Prompt 0 u ∧ s.now + 2 * c.limits.writeGrace < u.now ∧ u.sessions[0]? = some c' ∧
      c'.stage = .finished none := by
  -- Nobody computes with so many nanoseconds.
  obtain ⟨grace, hgrace, hpos⟩ : ∃ n, n = millis 5 ∧ 0 < n := ⟨_, rfl, by decide⟩
  let limits : Session.Limits := { Session.Limits.default with writeGrace := grace }
  let link : Session.Link :=
    { Session.Link.new 8 with
      inbound := (Pipe.new 8).closeWriter, outbound := ⟨1, [.ping []], true, true⟩, closeHangs := true }
  let ann : Session := .new ⟨1⟩ ⟨7, "ann"⟩ limits 0 link
  let service (x : Exchange) (handled : Nat) (shutdownAt : Option Nat) (backlog : List Errand) (c : Session) :
      Service :=
    ⟨⟨x, Desk.defaultCapacity, backlog, handled, shutdownAt, false, "bye"⟩, [c], 1, true, []⟩
  let registration : Command := .register ⟨⟨1⟩, ⟨7, "ann"⟩, 0⟩
  let x := Exchange.empty.openMailbox 0 256
  let y := x.perform .ascending registration
  have hy : x.handle .ascending registration = y := Exchange.handle_eq_perform (by decide)
  -- She is admitted and served.
  let s₁ := service x 0 none [⟨registration, some (.session 0)⟩] ann
  let c₃ := ann.welcome.serve 0
  have hnew : IsNew (.new "bye") ⟨1⟩ := ⟨by decide, List.forall_mem_nil _, List.forall_mem_nil _⟩
  let run₁ : Run (.new "bye") s₁ := .step .refl (.connect ⟨1⟩ ⟨7, "ann"⟩ limits link hnew)
  have hd : s₁.stepDesk .ascending = some (service y 1 none [] ann.welcome) := hy ▸ rfl
  let run₂ : Run (.new "bye") (service y 1 none [] ann.welcome) := .step run₁ (.desk .ascending hd)
  let run₃ : Run (.new "bye") (service y 1 none [] c₃) := .step run₂ (.session 0 .serve rfl)
  -- Her reader stops, and its courier takes the removal to the desk.
  let backlog : List Errand := [ann.removal]
  let c₄ := c₃.readerDone
  let c₅ := c₄.sendFromReader (.waiting 1)
  let c₆ := c₅.sendFromReader .idle
  let run₄ : Run (.new "bye") (service y 1 none [] c₄) := .step run₃ (.session 0 .read rfl)
  let run₅ : Run (.new "bye") (service y 1 none backlog c₅) := .step run₄ (.session 0 .courier rfl)
  let run₆ : Run (.new "bye") (service y 1 none backlog c₆) := .step run₅ (.session 0 .courier rfl)
  -- Her writer takes the first notice, and the transport has no room for it.
  let hello : Frame := .text (Notice.system ⟨Supply.uuid 0, .ofNanos 0⟩ "Welcome to the chat, ann!").text
  let c₇ : Session := { c₆ with writer := { c₆.writer with phase := .sending hello false } }
  let c₈ : Session := { c₆ with writer := { c₆.writer with phase := .sending hello true } }
  let z := y.changeMailbox 0 takeNotice
  let run₇ : Run (.new "bye") (service z 1 none backlog c₇) := .step run₆ (.session 0 .write rfl)
  let run₈ : Run (.new "bye") (service z 1 none backlog c₈) := .step run₇ (.session 0 .write rfl)
  -- Everyone is told to stop.
  obtain ⟨⟨roster, boxes, doomed, deliveries, evictions, ⟨issued, now⟩⟩, run, hnow, hm⟩ :
      ∃ (w : Exchange) (_ : Run (.new "bye") (service w 1 (some 0) backlog c₈)),
        w.supply.now = 0 ∧ ((service w 1 (some 0) backlog c₈).mailbox 0).cancelledAt = some 0 :=
    ⟨z.changeMailbox 0 (·.cancel 0), .step run₈ .shutdown, rfl, rfl⟩
  cases hnow
  let at_ (boxes : ExtTreeMap Nat Mailbox) (time : Nat) (c : Session) : Service :=
    service ⟨roster, boxes, doomed, deliveries, evictions, ⟨issued, time⟩⟩ 1 (some 0) backlog c
  let s := at_ boxes 0 c₈
  have hpass (boxes) {c a b} (h : a ≤ b) : (at_ boxes a c).passTo b = at_ boxes b c :=
    congrArg (fun time => at_ boxes time c) (Nat.max_eq_right h)
  -- Time passes until the writer gives up, until it gives up waiting for the transport to close, and then goes on.
  let moveTo (phase : Session.Writer.Phase) : Session := { c₆ with writer := { c₆.writer with phase } }
  let c₉ := moveTo (.closing grace)
  let c₁₀ : Session := { c₉.writerDone with writer := { c₉.writer with phase := .done } }
  let boxes₁ := boxes.modify 0 (·.cancel (grace + grace))
  let boxes₂ := boxes₁.modify 0 Mailbox.abandon
  have hsent (now : Nat) : c₈.writer.sent? limits now (s.mailbox 0) hello true .pending =
      if grace ≤ now then some { c₈.writer with phase := .closing now } else none := by
    have he : Session.Writer.IsExpired limits (s.mailbox 0).cancelledAt now ↔ grace ≤ now := by
      rw [show (s.mailbox 0).cancelledAt = some 0 from hm]
      simp [Session.Writer.IsExpired, limits]
    exact if_congr he rfl rfl
  have hstuck (now : Nat) : (at_ boxes now c₉).stepWriter 0 =
      if grace + grace ≤ now then some (at_ (boxes.modify 0 (·.cancel now)) now c₉.writerDone) else none := by
    have he : c₉.link.closeHangs = true ∧ ¬ Session.Writer.IsStuck limits grace now ↔ ¬ grace + grace ≤ now :=
      ⟨And.right, fun h => ⟨rfl, h⟩⟩
    exact (if_congr he rfl rfl).trans (ite_not ..)
  have hshort : grace < grace + grace := Nat.lt_add_of_pos_left hpos
  have hle : grace + grace ≤ grace + grace + grace := Nat.le_add_right ..
  have hlt : 0 + 2 * grace < grace + grace + grace := by omega
  have hwait : s.stepWriter 0 = none := congrArg (Option.bind · _) ((hsent 0).trans (if_neg (Nat.not_le.mpr hpos)))
  have hgiveUp : (at_ boxes grace c₈).stepWriter 0 = some (at_ boxes grace c₉) :=
    congrArg (Option.bind · _) ((hsent grace).trans (if_pos (Nat.le_refl _)))
  have htimers : c₈.timers (s.mailbox 0) = [0 + grace] :=
    (congrArg (fun told => told.toList.map (· + grace) ++ []) hm :)
  have p₁ : s.Prompt 0 (at_ boxes grace c₈) := by
    refine hpass boxes (Nat.zero_le _) ▸ .pass .refl (Nat.zero_le _)
      (lingers_of_idle rfl (fun m => ?_) (fun _ hn => hn.elim nofun nofun) ?_)
    · cases m <;> first | rfl | exact hwait
    · exact htimers ▸ List.forall_mem_singleton.mpr (Nat.le_add_left ..)
  have p₂ : s.Prompt 0 (at_ boxes grace c₉) := p₁.move (m := .write) hgiveUp
  have p₃ : s.Prompt 0 (at_ boxes (grace + grace) c₉) := by
    refine hpass boxes (Nat.le_of_lt hshort) ▸ p₂.pass (Nat.le_of_lt hshort)
      (lingers_of_idle rfl (fun m => ?_) (fun _ hn => hn.elim nofun nofun) ?_)
    · cases m
      case write => exact (hstuck grace).trans (if_neg (Nat.not_le.mpr hshort))
      all_goals rfl
    · exact List.forall_mem_singleton.mpr (Nat.le_refl _)
  have p₄ : s.Prompt 0 (at_ boxes₁ (grace + grace) c₉.writerDone) :=
    p₃.move (m := .write) ((hstuck (grace + grace)).trans (if_pos (Nat.le_refl _)))
  have p₅ : s.Prompt 0 (at_ boxes₂ (grace + grace) c₁₀) := p₄.move (m := .write) rfl
  have p₆ : s.Prompt 0 (at_ boxes₂ (grace + grace) (c₁₀.finish none)) := p₅.move (m := .finish) rfl
  have p₇ : s.Prompt 0 (at_ boxes₂ (grace + grace + grace) (c₁₀.finish none)) := by
    refine hpass boxes₂ hle ▸ p₆.pass hle
      (lingers_of_idle rfl (fun m => ?_) (fun _ hn => hn.elim nofun nofun) ?_)
    · cases m <;> rfl
    · exact List.forall_mem_nil _
  obtain ⟨c', hc', _, _, hover, _⟩ := run.closes_in_time (i := 0) (c := c₈) rfl trivial hm p₇
  exact ⟨s, _, run, c₈, c', rfl, hgrace, hm, rfl, rfl, p₇, hlt, hc', hover hlt⟩

end Service
end Parley
