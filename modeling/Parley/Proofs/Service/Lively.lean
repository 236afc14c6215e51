import Parley.Proofs.Service.Probing
import Parley.Proofs.Service.Writing

namespace Parley.Service

-- The transport of session `i` takes at once what it is given, as long as the reader is at work.
def Accepts (s : Service) (i : Nat) : Prop :=
  ∀ c f asked, s.sessions[i]? = some c → c.reader.running = true → c.writer.phase = .sending f asked →
    c.link.outcome asked = .sent

-- The writer of session `i` has a ping in hand.
def hasPing (s : Service) (i : Nat) : Bool := s.sessions[i]?.any (·.writer.phase.hasPing)

-- Session `i` has nothing to do for now, no timer of its own is due before a point in time, and if it was told to stop,
-- it is not the exchange that keeps it waiting.
structure Dwells (s : Service) (i time : Nat) : Prop where
  idle   : ∀ m : Move, m.apply? s i = none
  timers : ∀ c, s.sessions[i]? = some c → ∀ due ∈ c.timers (s.mailbox c.mailbox), s.now < due → time ≤ due
  room   : ∀ c, s.sessions[i]? = some c → (s.mailbox c.mailbox).cancelledAt.isSome →
    ∀ n, c.reader.courier = .waiting n → s.desk.HasRoom n ∨ s.desk.stopped

-- A step that others take while the client of session `i` sends frames, and takes none back; `owed` says that it has
-- not answered the last ping so far.  Time does not pass by a session whose reader is at work as long as it has
-- anything to do or is owed an answer.
structure Step.Bears {s t : Service} (i : Nat) (owed : Bool) (frames : List Frame) (st : Step s t) : Prop where
  others : ¬ st.IsBy i
  own    : ∀ c, s.sessions[i]? = some c → ¬ st.Tampers c.mailbox
  sends  : ∀ c c', s.sessions[i]? = some c → t.sessions[i]? = some c' →
    c'.link.inbound.queue = c.link.inbound.queue ++ frames
  passes : s.now < t.now → ∀ c, s.sessions[i]? = some c → c.reader.running = true → owed = false ∧ s.Dwells i t.now

-- What may become of a service as long as session `i` takes its steps whenever it can, its transport takes everything
-- at once, and its client answers every ping at once, whatever else it sends; the flag says that it has not answered
-- the last ping so far.  Whatever else happens, happens whenever it likes.
inductive Lively (s : Service) (i : Nat) : Bool → Service → Prop
  | refl : Lively s i false s
  | own {owed t u} (h : Lively s i owed t) (m : Move) (hm : m.apply? t i = some u) (ha : t.Accepts i) :
      Lively s i (owed || t.hasPing i && !u.hasPing i) u
  | other {owed frames t u} (h : Lively s i owed t) (st : Step t u) (hst : st.Bears i owed frames) (ha : t.Accepts i) :
      Lively s i (owed && !frames.any (·.isPong)) u

-- How far a session has got whose client has been heard of in time so far.
structure Thrives (s : Service) (i : Nat) (owed : Bool) (c : Session) : Prop where
  session : s.sessions[i]? = some c
  served  : 1 ≤ c.stage.lifecycle.rank
  ample   : Session.Writer.period c.limits + millis 1 ≤ c.limits.pongWait
  inTime  : c.reader.running = true → c.HasPong ∨ s.now < c.reader.deadline
  probes  : c.reader.running = true → (s.mailbox c.mailbox).cancelledAt = none → c.Probes s.now owed

variable {s t u : Service} {i k time : Nat} {owed : Bool} {frames : List Frame} {c c' : Session} {left : List Errand}
  {m : Move} {l : Session.Limits} {wait : Nat}

theorem hasPing_eq (hi : s.sessions[i]? = some c) : s.hasPing i = c.writer.phase.hasPing := by
  rw [hasPing, hi, Option.any_some]

-- Whoever was not told to stop so far was not told so before.
theorem cancelledAt_eq_none (h : ∀ t₀, s.desk.exchange.CancelledAt k t₀ → t.desk.exchange.CancelledAt k t₀)
    (hc : (t.mailbox k).cancelledAt = none) : (s.mailbox k).cancelledAt = none := by
  cases hs : (s.mailbox k).cancelledAt
  case none => rfl
  case some t₀ =>
    have ht := cancelledAt_iff.mp (h t₀ (cancelledAt_iff.mpr hs))
    cases hc.symm.trans ht

theorem warns_mailbox (h : s.desk.exchange.Warns k) : (s.mailbox k).Warns := by
  cases hm : s.desk.exchange.mailboxes[k]?
  case none =>
    rw [mailbox, hm]
    exact Mailbox.warns_new
  case some m =>
    rw [mailbox_eq hm]
    exact h m hm

namespace Dwells

variable (h : s.Dwells i time) (hi : s.sessions[i]? = some c) (hr : c.reader.running = true)

include h hi hr

-- A reader that is at work does not overlook that the session was told to stop.
theorem cancelledAt_eq_none : (s.mailbox c.mailbox).cancelledAt = none := by
  by_contra hc
  have hc := Option.isSome_iff_ne_none.mpr hc
  have hl : c.reader.IsListening := ⟨hr, courier_eq_of_stepCourier hi (h.idle .courier) (h.room c hi hc)⟩
  have hn : s.stepCancelled i = none := h.idle .notice
  simp [stepCancelled, hi, hl, hc] at hn

-- Time does not pass the next probe by.
theorem le_wholeMillis (ha : s.Accepts i) (hp : c.writer.phase.GoesOn) :
    c.writer.phase.hasPing = false ∧ time ≤ Session.wholeMillis c.writer.nextProbe := by
  have hn : s.stepWriter i = none := h.idle .write
  simp only [stepWriter, hi, Option.bind_eq_bind, Option.bind_some] at hn
  split at hn
  case h_1 => split at hn <;> cases hn
  case h_2 probing hq =>
    split at hn
    case h_1 | h_2 => cases hn
    case h_3 hw =>
      cases probing
      case false => rw [hq] at hp; exact hp.elim
      case true =>
        refine ⟨hq ▸ rfl, h.timers c hi _ ?_ (Session.Writer.lt_wholeMillis hw)⟩
        simp [Session.timers, hq]
  case h_3 f asked hq =>
    rw [ha c f asked hi hr hq] at hn
    cases hn
  case h_4 hq | h_5 hq | h_6 hq | h_7 hq => rw [hq] at hp; exact hp.elim

end Dwells

-- A writer takes the frame that it chooses, waits if there is none, and goes on once the frame is sent.
theorem stepWriter_take {f : Frame} {probing : Bool} (hi : s.sessions[i]? = some c)
    (hp : c.writer.phase.probing? (s.mailbox c.mailbox) = some probing)
    (hw : c.writer.await c.limits s.now (s.mailbox c.mailbox) probing = .frame f) :
    s.stepWriter i = some (s.takeFrame i c f) := by
  cases hq : c.writer.phase <;> rw [hq] at hp <;> cases hp
  all_goals simp only [stepWriter, hi, hq, hw, Option.bind_eq_bind, Option.bind_some]

theorem stepWriter_wait (hi : s.sessions[i]? = some c) (hp : c.writer.phase = .choosing)
    (hw : c.writer.choose c.limits s.now (s.mailbox c.mailbox) = .wait)
    (hc : (s.mailbox c.mailbox).cancelledAt = none) :
    s.stepWriter i = some (s.setSession i (c.moveWriter (.waiting true))) := by
  simp only [stepWriter, hi, hp, hw, hc, Option.bind_eq_bind, Option.bind_some]
  rfl

theorem stepWriter_send {f : Frame} {asked : Bool} (hi : s.sessions[i]? = some c)
    (hp : c.writer.phase = .sending f asked) (ho : c.link.outcome asked = .sent) (hf : f ≠ .close) :
    s.stepWriter i = some (s.setSession i { c.moveWriter .choosing with link := c.link.write f asked }) := by
  simp only [stepWriter, hi, hp, ho, Session.Writer.sent?, if_neg hf, Option.bind_eq_bind, Option.bind_some]
  rfl

theorem passTo_now : s.passTo s.now = s := by
  simp only [passTo, changeExchange, now, Nat.max_self]

-- A session that has nothing to read or write waits for the next probe, or for its client to be silent for too long.
theorem dwells_of_waiting (hi : s.sessions[i]? = some c) (hs : c.stage = .serving) (hk : c.reader.courier = .idle)
    (hn : c.link.read.1 = .nothing) (hp : c.writer.phase = .waiting true) {capacity : Nat} {readable : Bool}
    (hm : s.mailbox c.mailbox = ⟨⟨capacity, [], true, readable⟩, none, .absent⟩) (hlt : s.now < time)
    (hprobe : time ≤ Session.wholeMillis c.writer.nextProbe) (hd : time ≤ c.reader.deadline) : s.Dwells i time := by
  have hpauses : s.Pauses i := by
    have hbides : s.Bides i time := bides_of_idle hi hk fun _ => ⟨hm ▸ rfl, hn, hd⟩
    exact passTo_now (s := s) ▸ hbides s.now (Nat.le_refl _) hlt
  refine ⟨fun m => ?idle, fun c' hc due hdue _ => ?timers, fun c' hc _ => hpauses.room c' hc⟩
  case timers =>
    cases Option.some.inj (hi.symm.trans hc)
    simp only [Session.timers, hp, hm, Option.toList_none, List.map_nil, if_true, List.nil_append, List.mem_append,
      List.mem_singleton] at hdue
    obtain rfl | hdue := hdue
    · exact hprobe
    · split at hdue
      · exact List.mem_singleton.mp hdue ▸ hd
      · cases hdue
  case idle =>
    cases m
    case courier | notice | read | expire => exact hpauses.idle _ trivial
    case serve =>
      change s.stepServe i = none
      simp [stepServe, hi, hs]
    case refuse =>
      change s.stepRefusing i = none
      simp [stepRefusing, hi, hs]
    case finish =>
      change s.stepFinish i = none
      simp [stepFinish, hi, hs]
    case write =>
      change s.stepWriter i = none
      have hdue : ¬ Session.wholeMillis c.writer.nextProbe ≤ s.now := Nat.not_le.mpr (Nat.lt_of_lt_of_le hlt hprobe)
      simp only [stepWriter, hi, hp, hm, Session.Writer.await_of_empty, if_neg hdue, Option.bind_eq_bind,
        Option.bind_some]

theorem Step.Bears.pass {time : Nat} (h : owed = false) (hd : s.Dwells i time) (hle : s.now ≤ time) :
    (Step.pass (s := s) time).Bears i owed [] where
  others := id
  own _ _ := id
  sends c c' hi hi' := by
    cases Option.some.inj (hi.symm.trans hi')
    exact (List.append_nil _).symm
  passes _ _ _ _ := by
    rw [show (s.passTo time).now = time from Nat.max_eq_right hle]
    exact ⟨h, hd⟩

theorem Step.Bears.link {f : Session.Link → Session.Link} (hi : s.sessions[i]? = some c)
    (hq : (f c.link).inbound.queue = c.link.inbound.queue ++ frames) :
    (Step.link (s := s) i f).Bears i owed frames := by
  have ⟨hlt, _⟩ := List.getElem?_eq_some_iff.mp hi
  have hs : s.changeLink i f = s.setSession i { c with link := f c.link } := by simp only [changeLink, hi]
  refine ⟨id, fun _ _ => id, fun c₀ c' hc hc' => ?_, fun hnow => ?_⟩
  · cases Option.some.inj (hi.symm.trans hc)
    rw [hs, setSession, List.getElem?_set_self hlt] at hc'
    cases hc'
    exact hq
  · rw [hs] at hnow
    exact absurd hnow (Nat.lt_irrefl _)

namespace Thrives

variable (h : s.Thrives i owed c) (ho : s.Orderly c.mailbox left)

include h ho

theorem serving (hr : c.reader.running = true) : c.stage = .serving :=
  (ho.proper.keeps c (List.mem_of_getElem? h.session)).serving_of_running hr

theorem warns (hr : c.reader.running = true) : (s.mailbox c.mailbox).Warns := by
  refine warns_mailbox (ho.exchange_warns h.session rfl fun hb => ?_)
  rw [h.serving ho hr] at hb
  exact hb

theorem mailbox_lt : c.mailbox < s.mailboxes :=
  ho.housed c (List.mem_of_getElem? h.session)

theorem own (hm : m.apply? s i = some t) (ha : s.Accepts i) :
    ∃ c', t.Thrives i (owed || s.hasPing i && !t.hasPing i) c' ∧ c.IsSame c' := by
  obtain ⟨c₀, c', m', hs⟩ := Strides.of_move hm
  cases Option.some.inj (h.session.symm.trans hs.before)
  have hi := hs.self
  have hsame := hs.stride.isSame
  obtain ⟨_, hi', _, hrank⟩ := ((Step.session i m hm).proper ho.proper).2.sessions i c h.session
  cases Option.some.inj (hi.symm.trans hi')
  have hadmitted := (ne_of_served h.served).2
  have hrun (hr : c'.reader.running = true) : c.reader.running = true := hs.stride.running hadmitted hr
  refine ⟨c', ⟨hi, Nat.le_trans h.served hrank, ?ample, fun hr => ?inTime, fun hr hc => ?probes⟩, hsame⟩
  case ample => exact hsame.limits ▸ h.ample
  case inTime =>
    rw [hs.now]
    obtain ⟨hpong, hdeadline⟩ | hdeadline := hs.stride.hears (h.serving ho (hrun hr)) hr
    · exact (h.inTime (hrun hr)).imp hpong fun hlt => hdeadline ▸ hlt
    · have := h.ample
      exact .inr (by rw [hdeadline]; exact Nat.lt_add_of_pos_right (by unfold millis at this; omega))
  case probes =>
    rw [hs.now, hasPing_eq h.session, hasPing_eq hi]
    have hc := Service.cancelledAt_eq_none (fun _ => hs.cancelledAt) (hsame.mailbox ▸ hc)
    exact (h.probes (hrun hr) hc).stride hs.stride h.ample (h.serving ho (hrun hr)) hr hc (h.warns ho (hrun hr))
      fun f asked => ha c f asked h.session (hrun hr)

theorem other (st : Step s t) (hst : st.Bears i owed frames) (ha : s.Accepts i) :
    ∃ c', t.Thrives i (owed && !frames.any (·.isPong)) c' ∧ c.IsSame c' := by
  obtain ⟨c', hi, hc⟩ := st.suffers hst.others ho.proper h.session
  obtain ⟨link, rfl⟩ := hc.exists_link (ne_of_served h.served).1
  have hq : link.inbound.queue = c.link.inbound.queue ++ frames := hst.sends c _ h.session hi
  have hlasts (t₀ : Nat) : Outlasts (fun m => m.cancelledAt = some t₀) c.mailbox s t :=
    st.outlasts_cancelled (hst.own c h.session)
  -- Time passes only when the next probe is not due yet, and nothing else is to be done.
  have hpass (hr : c.reader.running = true) (hc : (s.mailbox c.mailbox).cancelledAt = none) :
      t.now ≤ Session.wholeMillis c.writer.nextProbe := by
    have hp := h.probes hr hc
    by_cases hlt : s.now < t.now
    case pos => exact ((hst.passes hlt c h.session hr).2.le_wholeMillis h.session hr ha hp.phase).2
    case neg => exact Nat.le_trans (Nat.not_lt.mp hlt) hp.due
  refine ⟨_, ⟨hi, h.served, h.ample, fun hr => ?inTime, fun hr hc => ?probes⟩, ⟨rfl, rfl, rfl, rfl⟩⟩
  case inTime =>
    by_cases hlt : s.now < t.now
    case neg =>
      have hnow : t.now = s.now := Nat.le_antisymm (Nat.not_lt.mp hlt) (hlasts 0).now
      exact hnow ▸ (h.inTime hr).imp (·.append hq) fun hlt => hlt
    case pos =>
      obtain ⟨rfl, hd⟩ := hst.passes hlt c h.session hr
      have hp := h.probes hr (hd.cancelledAt_eq_none h.session hr)
      obtain ⟨hping, hle⟩ := hd.le_wholeMillis h.session hr ha hp.phase
      obtain hp | hp | hp | hp := hp.ahead
      · exact .inl (hp.append hq)
      · cases hp
      · cases hping.symm.trans hp
      · exact .inr (Nat.lt_of_le_of_lt hle hp)
  case probes =>
    have hc := Service.cancelledAt_eq_none (fun t₀ => (hlasts t₀).has (h.mailbox_lt ho)) hc
    exact (h.probes hr hc).sends hq (hlasts 0).now (hpass hr hc)

end Thrives

theorem Thrives.lively (h : s.Thrives i false c) (ho : s.Orderly c.mailbox left) (later : s.Lively i owed t) :
    ∃ c' more, t.Thrives i owed c' ∧ c.IsSame c' ∧ t.Orderly c.mailbox (left ++ more) := by
  induction later
  case refl => exact ⟨c, [], h, .refl, (List.append_nil left).symm ▸ ho⟩
  case own m hm ha hind =>
    obtain ⟨c₁, more, h₁, hs₁, ho₁⟩ := hind
    rw [← hs₁.mailbox] at ho₁
    obtain ⟨c₂, h₂, hs₂⟩ := h₁.own ho₁ hm ha
    have ho₂ := ho₁.step (.session i m hm) id
    rw [List.append_assoc, hs₁.mailbox] at ho₂
    exact ⟨c₂, _, h₂, hs₁.trans hs₂, ho₂⟩
  case other st hst ha hind =>
    obtain ⟨c₁, more, h₁, hs₁, ho₁⟩ := hind
    rw [← hs₁.mailbox] at ho₁
    obtain ⟨c₂, h₂, hs₂⟩ := h₁.other ho₁ st hst ha
    have ho₂ := ho₁.step st (hst.own c₁ h₁.session)
    rw [List.append_assoc, hs₁.mailbox] at ho₂
    exact ⟨c₂, _, h₂, hs₁.trans hs₂, ho₂⟩

-- A session that begins has heard of its client just now, and is to probe it in time.
theorem thrives_serve (hi : s.sessions[i]? = some c) (hs : s.stepServe i = some t)
    (hl : Session.Writer.period c.limits + millis 1 ≤ c.limits.pongWait) : t.Thrives i false (c.serve s.now) := by
  have hlisten := listens_serve hi hs
  obtain ⟨_, _, _, hstr⟩ := strides_serve hs
  have hle := Session.le_wholeMillis (t := s.now + Session.Writer.period c.limits)
  have hahead : Session.wholeMillis (s.now + Session.Writer.period c.limits) < s.now + c.limits.pongWait :=
    Session.wholeMillis_lt_add_pongWait hl (Nat.le_refl _)
  have hdeadline : (c.serve s.now).reader.deadline = s.now + c.limits.pongWait := rfl
  have hprobe : (c.serve s.now).writer.nextProbe = s.now + Session.Writer.period c.limits := rfl
  refine ⟨hlisten.session, hlisten.served, hl, fun _ => .inr ?inTime, fun _ _ => ⟨trivial, ?due, ?soon, ?ahead⟩⟩
  case inTime => rw [hstr.now, hdeadline]; omega
  case due => rw [hstr.now, hprobe]; omega
  case soon => rw [hstr.now, hprobe]; exact Nat.le_refl _
  case ahead => exact .inr (.inr (.inr hahead))

variable {box box' : Mailbox}

theorem Shows.mailbox_eq (h : s.Shows i k c box) : s.mailbox c.mailbox = box :=
  Service.mailbox_eq (h.number.symm ▸ h.mailbox)

theorem Lively.own_of_shows {owed' : Bool} (p : s.Lively i owed t) (h : t.Shows i k c box)
    (hm : m.apply? t i = some u) (h' : u.Shows i k c' box')
    (ho : ∀ f asked, c.writer.phase = .sending f asked → c.link.outcome asked = .sent)
    (he : (owed || c.writer.phase.hasPing && !c'.writer.phase.hasPing) = owed') : s.Lively i owed' u := by
  rw [← he, ← hasPing_eq h.session, ← hasPing_eq h'.session]
  refine p.own m hm fun c₀ f asked hi _ hf => ?_
  cases Option.some.inj (h.session.symm.trans hi)
  exact ho f asked hf

-- The writer takes a frame, and sends it.
theorem Lively.writes {f : Frame} {probing : Bool} (p : s.Lively i owed t) (h : t.Shows i k c box)
    (hp : c.writer.phase.probing? box = some probing) (hw : c.writer.await c.limits t.now box probing = .frame f)
    (hf : f ≠ .close) (ho : c.link.outcome false = .sent) :
    ∃ u, s.Lively i (owed || (Session.Writer.Phase.sending f false).hasPing) u ∧ u.now = t.now ∧
      u.Shows i k { c with writer := ⟨.choosing, (c.writer.take c.limits t.now f).nextProbe⟩
                           link := c.link.write f false } (box.without f) := by
  have hq : c.writer.phase.hasPing = false ∧ ∀ f asked, c.writer.phase ≠ .sending f asked := by
    cases hq : c.writer.phase <;> rw [hq] at hp <;> cases hp
    all_goals exact ⟨rfl, nofun⟩
  have h₁ := h.takeFrame (f := f)
  have p₁ : s.Lively i owed (t.takeFrame i c f) :=
    p.own_of_shows (m := .write) h (stepWriter_take h.session (h.mailbox_eq.symm ▸ hp) (h.mailbox_eq.symm ▸ hw)) h₁
      (fun f asked hs => absurd hs (hq.2 f asked)) (by rw [hq.1, Bool.false_and, Bool.or_false])
  refine ⟨_, ?_, ?_, h₁.setSession rfl⟩
  · exact p₁.own_of_shows (m := .write) h₁ (stepWriter_send h₁.session rfl ho hf) (h₁.setSession rfl)
      (fun _ _ hs => by cases hs; exact ho) (congrArg (owed || ·) (Bool.and_true _))
  · cases f <;> rfl

-- The writer waits if there is nothing to write.
theorem Lively.waits {capacity : Nat} (p : s.Lively i owed t) (h : t.Shows i k c ⟨.new capacity, none, .absent⟩)
    (hp : c.writer.phase = .choosing) (hlt : t.now < Session.wholeMillis c.writer.nextProbe) :
    ∃ u, s.Lively i owed u ∧ u.now = t.now ∧
      u.Shows i k (c.moveWriter (.waiting true)) ⟨.new capacity, none, .absent⟩ := by
  have hw : c.writer.choose c.limits t.now ⟨.new capacity, none, .absent⟩ = .wait :=
    Session.Writer.await_of_empty.trans (if_neg (Nat.not_le.mpr hlt))
  refine ⟨t.setSession i (c.moveWriter (.waiting true)), ?_, rfl, h.setSession rfl⟩
  exact p.own_of_shows (m := .write) h
    (stepWriter_wait h.session hp (h.mailbox_eq.symm ▸ hw) (h.mailbox_eq ▸ rfl)) (h.setSession rfl)
    (fun _ _ hs => by cases hp.symm.trans hs) (by rw [hp]; exact Bool.or_false _)

-- The client takes what there is for it, and sends frames.
theorem Lively.links (f : Session.Link → Session.Link) (frames : List Frame) (p : s.Lively i owed t)
    (h : t.Shows i k c box) (hq : (f c.link).inbound.queue = c.link.inbound.queue ++ frames)
    (hp : c.writer.phase = .choosing) :
    ∃ u, s.Lively i (owed && !frames.any (·.isPong)) u ∧ u.now = t.now ∧
      u.Shows i k { c with link := f c.link } box := by
  have hs : t.changeLink i f = t.setSession i { c with link := f c.link } := by simp only [changeLink, h.session]
  refine ⟨t.changeLink i f, p.other _ (.link h.session hq) ?_, hs ▸ rfl, hs ▸ h.setSession rfl⟩
  intro c' _ _ hi _ hsend
  cases Option.some.inj (h.session.symm.trans hi)
  cases hp.symm.trans hsend

-- The reader takes a pong for a sign of life.
theorem Lively.hears {octets : List UInt8} {link : Session.Link} (p : s.Lively i owed t) (h : t.Shows i k c box)
    (hl : c.reader.IsListening) (hf : c.link.read = (.frame (.pong octets), link)) (hs : c.limits.IsSign (.pong octets))
    (hp : c.writer.phase = .choosing) :
    ∃ u, s.Lively i owed u ∧ u.now = t.now ∧
      u.Shows i k { c with link, reader := { c.reader with deadline := t.now + c.limits.pongWait } } box := by
  have hj : Session.Reader.judge c.limits (.pong octets) = .alive := Session.Reader.judge_eq_alive_iff.mpr hs
  have hr : t.stepRead i =
      some (t.setSession i { c with link, reader := { c.reader with deadline := t.now + c.limits.pongWait } }) := by
    simp only [stepRead, h.session, Option.bind_eq_bind, Option.bind_some, hl, not_true, if_false, hf, hj,
      Session.Reader.after, setSession, List.set_set, Session.Link.goOn]
  refine ⟨_, p.own_of_shows (m := .read) h hr (h.setSession rfl) (fun _ _ hs => by cases hp.symm.trans hs) ?_, rfl,
    h.setSession rfl⟩
  rw [hp]
  exact Bool.or_false _

-- A session that has nothing to read or write until the next probe, over a transport in memory with nothing in it.
structure Slumbers (s : Service) (i k : Nat) (c : Session) : Prop where
  shows   : ∃ capacity, s.Shows i k c ⟨.new capacity, none, .absent⟩
  stage   : c.stage = .serving
  listens : c.reader.IsListening
  phase   : c.writer.phase = .waiting true
  link    : ∃ room, 0 < room ∧ c.link = .new room
  ample   : Session.Writer.period c.limits + millis 1 ≤ c.limits.pongWait
  ahead   : s.now < Session.wholeMillis c.writer.nextProbe
  inTime  : Session.wholeMillis c.writer.nextProbe ≤ c.reader.deadline

-- The client is probed when that is due, and answers.
theorem Slumbers.exists_lively (h : t.Slumbers i k c) (p : s.Lively i false t) :
    ∃ u c', s.Lively i false u ∧ u.Slumbers i k c' ∧ t.now < u.now := by
  obtain ⟨capacity, hshows⟩ := h.shows
  obtain ⟨room, hroom, hlink⟩ := h.link
  have hsent : (Session.Link.new room).outcome false = .sent := by
    simp [Session.Link.outcome, Session.Link.new, Pipe.outcome, Pipe.new, Pipe.IsFull, Nat.ne_of_gt hroom]
  obtain ⟨time, htime⟩ : ∃ time, time = Session.wholeMillis c.writer.nextProbe := ⟨_, rfl⟩
  have hlt : t.now < time := htime ▸ h.ahead
  have hd : t.Dwells i time :=
    dwells_of_waiting hshows.session h.stage h.listens.2 (hlink ▸ rfl) h.phase hshows.mailbox_eq hlt
      (Nat.le_of_eq htime) (htime ▸ h.inTime)
  have p₁ : s.Lively i false (t.passTo time) := by
    refine p.other (.pass time) (.pass rfl hd (Nat.le_of_lt hlt)) fun c' _ _ hi _ hsend => ?_
    cases Option.some.inj (hshows.session.symm.trans hi)
    cases h.phase.symm.trans hsend
  have h₁ : (t.passTo time).Shows i k c ⟨.new capacity, none, .absent⟩ :=
    ⟨hshows.session, hshows.number, hshows.mailbox⟩
  have hnow₁ : (t.passTo time).now = time := Nat.max_eq_right (Nat.le_of_lt hlt)
  have hping : c.writer.await c.limits (t.passTo time).now ⟨.new capacity, none, .absent⟩ true = .frame (.ping []) :=
    Session.Writer.await_of_empty.trans (if_pos (Nat.le_of_eq (hnow₁.trans htime).symm))
  obtain ⟨t₂, p₂, hnow₂, h₂⟩ := p₁.writes h₁ (by rw [h.phase]; rfl) hping (by decide) (hlink ▸ hsent)
  -- The client takes the ping, and answers.
  obtain ⟨answer, hanswer, hread⟩ : ∃ answer : Session.Link, answer.inbound.queue = [.pong []] ∧
      answer.read = (.frame (.pong []), .new room) :=
    ⟨{ Session.Link.new room with inbound := ⟨room, [.pong []], true, true⟩ }, rfl, rfl⟩
  obtain ⟨t₃, p₃, hnow₃, h₃⟩ := p₂.links (fun _ => answer) [.pong []] h₂
    (by simp only [Session.Link.inbound_write, hlink, hanswer]; rfl) rfl
  obtain ⟨t₄, p₄, hnow₄, h₄⟩ := p₃.hears h₃ h.listens hread (Nat.zero_le _) rfl
  have hnow : t₄.now = time := by rw [hnow₄, hnow₃, hnow₂, hnow₁]
  -- The next probe is due within the time that the client has.
  have hprobe : (c.writer.take c.limits (t.passTo time).now (.ping [])).nextProbe =
      c.writer.nextProbe + Session.Writer.period c.limits := by
    rw [Session.Writer.nextProbe_take, if_pos rfl, hnow₁, Session.Writer.probeAfter_eq (Nat.le_of_eq htime)]
  have hahead : time < Session.wholeMillis (c.writer.nextProbe + Session.Writer.period c.limits) :=
    Nat.lt_of_le_of_lt (Nat.le_of_eq htime) Session.wholeMillis_lt_add_period
  have hdue : Session.wholeMillis (c.writer.nextProbe + Session.Writer.period c.limits) < time + c.limits.pongWait :=
    Session.wholeMillis_lt_add_pongWait h.ample (Nat.add_le_add_right (htime ▸ Session.le_wholeMillis) _)
  obtain ⟨u, p₅, hnow₅, h₅⟩ := p₄.waits h₄ rfl (by rw [hnow, hprobe]; exact hahead)
  have hnow₅ : u.now = time := hnow₅.trans hnow
  refine ⟨u, _, p₅, ⟨⟨_, h₅⟩, h.stage, h.listens, rfl, ⟨room, hroom, rfl⟩, h.ample, ?_, ?_⟩, hnow₅ ▸ hlt⟩
  · rw [hnow₅]
    exact hprobe ▸ hahead
  · simp only [Session.moveWriter, hprobe]
    rw [hnow₃, hnow₂, hnow₁]
    exact Nat.le_of_lt hdue

-- It goes on like this for as long as one likes.
theorem Slumbers.exists_lively_le (time : Nat) (h : t.Slumbers i k c) (p : s.Lively i false t) :
    ∃ u, s.Lively i false u ∧ time ≤ u.now := by
  suffices h : ∃ u c, s.Lively i false u ∧ u.Slumbers i k c ∧ time ≤ u.now by
    obtain ⟨u, _, p, _, hle⟩ := h
    exact ⟨u, p, hle⟩
  induction time
  case zero => exact ⟨t, c, p, h, Nat.zero_le _⟩
  case succ time hind =>
    obtain ⟨_, _, p, h, hle⟩ := hind
    obtain ⟨u, c, p, h, hlt⟩ := h.exists_lively p
    exact ⟨u, c, p, h, Nat.lt_of_le_of_lt hle hlt⟩

-- Wherever a run leads in which nobody else has changed the mailbox of a session, and the session begins to be served,
-- with a limit of ten milliseconds or more to how long its client may be silent: as long as the session takes its steps
-- before time passes, no timer of its own is passed by, its transport takes everything at once, and its client answers
-- every ping before time passes, the reader never finds that the client has been silent for too long.
theorem Run.never_overdue {farewell : String} {capacity : Nat} (run : Run (.new farewell capacity) s)
    (hrun : run.IsUntampered c.mailbox) (hi : s.sessions[i]? = some c) (hl : c.limits = l.withPongWait wait)
    (hw : millis 10 ≤ wait) (hs : s.stepServe i = some t) (later : t.Lively i owed u) : u.stepOverdue i = none := by
  obtain ⟨_, ho⟩ := run.orderly hrun orderly_new
  have ho := ho.step (.session i .serve hs) id
  have hample : Session.Writer.period c.limits + millis 1 ≤ c.limits.pongWait := by
    rw [hl]
    exact Session.Writer.period_add_le hw
  obtain ⟨c', _, h, _, _⟩ := (thrives_serve hi hs hample).lively ho later
  simp only [stepOverdue, h.session, Option.bind_eq_bind, Option.bind_some]
  refine if_neg ?_
  rintro ⟨hlisten, hnothing, hover⟩
  obtain hpong | hlt := h.inTime hlisten.1
  · exact hpong.read_ne_nothing hnothing
  · exact Nat.not_le.mpr hlt hover

-- Ann may be silent for ten milliseconds.  She is greeted, and answers every ping for an hour.
theorem Run.never_overdue_ann :
    ∃ (s t u : Service) (run : Run (.new "bye") s) (c : Session), run.IsUntampered c.mailbox ∧
      s.sessions[0]? = some c ∧ c.limits = Session.Limits.default.withPongWait (millis 10) ∧
      s.stepServe 0 = some t ∧ t.Lively 0 false u ∧ millis 3600000 ≤ u.now ∧ u.stepOverdue 0 = none := by
  let ann : Session := .new ⟨1⟩ ⟨7, "ann"⟩ (.withPongWait .default (millis 10)) 0 (.new 8)
  let service (x : Exchange) (handled : Nat) (backlog : List Errand) (c : Session) : Service :=
    ⟨⟨x, Desk.defaultCapacity, backlog, handled, none, false, "bye"⟩, [c], 1, true, []⟩
  let registration : Command := .register ⟨⟨1⟩, ⟨7, "ann"⟩, 0⟩
  let x := Exchange.empty.openMailbox 0 256
  let y := x.perform .ascending registration
  have hy : x.handle .ascending registration = y := Exchange.handle_eq_perform (by decide)
  -- She is admitted.
  let s₁ := service x 0 [⟨registration, some (.session 0)⟩] ann
  have hnew : IsNew (.new "bye") ⟨1⟩ := ⟨by decide, List.forall_mem_nil _, List.forall_mem_nil _⟩
  let run₁ : Run (.new "bye") s₁ := .step .refl (.connect ⟨1⟩ ⟨7, "ann"⟩ ann.limits (.new 8) hnew)
  have hd : s₁.stepDesk .ascending = some (service y 1 [] ann.welcome) := hy ▸ rfl
  obtain ⟨z, n₁, n₂, run, hrun, hz, hm⟩ :
      ∃ (z : Exchange) (n₁ n₂ : Notice) (run : Run (.new "bye") (service z 1 [] ann.welcome)), run.IsUntampered 0 ∧
        z.supply.now = 0 ∧ z.mailboxes[0]? = some ⟨⟨256, [n₁, n₂], true, true⟩, none, .absent⟩ :=
    ⟨y, _, _, .step run₁ (.desk .ascending hd), ⟨⟨trivial, id⟩, id⟩, rfl, rfl⟩
  let s := service z 1 [] ann.welcome
  let t := service z 1 [] (ann.welcome.serve z.supply.now)
  have h : t.Shows 0 0 (ann.welcome.serve z.supply.now) _ := ⟨rfl, rfl, hm⟩
  -- The two notices that greet her are written.
  obtain ⟨t₁, p₁, hnow₁, h₁⟩ := (Lively.refl (s := t) (i := 0)).writes h (f := .text n₁.text) rfl rfl nofun rfl
  obtain ⟨t₂, p₂, hnow₂, h₂⟩ := p₁.writes h₁ (f := .text n₂.text) rfl rfl nofun rfl
  -- She takes them.
  obtain ⟨t₃, p₃, hnow₃, h₃⟩ := p₂.links (fun _ => .new 8) [] h₂ rfl rfl
  have hnow : t₃.now = 0 := hnow₃.trans (hnow₂.trans (hnow₁.trans hz))
  have hperiod : Session.Writer.period ann.limits = millis 9 := by decide
  have hprobe : Session.wholeMillis (z.supply.now + Session.Writer.period ann.limits) = millis 9 := by
    rw [hz, hperiod]
    decide
  obtain ⟨t₄, p₄, hnow₄, h₄⟩ := p₃.waits h₃ rfl (hnow ▸ hprobe ▸ by decide)
  have hample : Session.Writer.period ann.limits + millis 1 ≤ ann.limits.pongWait := by decide
  have hahead : t₄.now < Session.wholeMillis (z.supply.now + Session.Writer.period ann.limits) := by
    rw [hprobe, hnow₄, hnow]
    decide
  have hdue : Session.wholeMillis (z.supply.now + Session.Writer.period ann.limits) ≤
      z.supply.now + ann.limits.pongWait := by
    rw [hprobe, hz]
    decide
  have hslumbers : t₄.Slumbers 0 0 _ :=
    { shows := ⟨_, h₄⟩, stage := rfl, listens := ⟨rfl, rfl⟩, phase := rfl, link := ⟨8, by decide, rfl⟩
      ample := hample, ahead := hahead, inTime := hdue }
  obtain ⟨u, p, hle⟩ := hslumbers.exists_lively_le (millis 3600000) p₄
  exact ⟨s, t, u, run, ann.welcome, hrun, rfl, rfl, rfl, p, hle,
    run.never_overdue (i := 0) hrun rfl rfl (Nat.le_refl _) rfl p⟩

end Parley.Service
