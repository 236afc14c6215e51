import Parley.Proofs.Session.Writing

namespace Parley

namespace Session

def moveWriter (c : Session) (phase : Writer.Phase) : Session := { c with writer := { c.writer with phase } }

-- The session after its reader was turned away by the exchange.
def rebuff (c : Session) : Session :=
  if c.reader.running then (c.sendFromReader .idle).readerDone else c.sendFromReader .idle

-- What a session may do next, given the desk and its own mailbox, with what becomes of both session and mailbox.
-- Where turns say what the exchange can tell of it, strides say what becomes of reader, writer, transport and
-- mailbox.
inductive Stride (d : Desk) (m : Mailbox) (c : Session) : Session → Mailbox → Prop
  | serve (hs : c.stage = .admitted) : Stride d m c (c.serve d.exchange.supply.now) m
  | bring {k new} (hk : c.reader.courier.Forwards d k new) :
      Stride d m c (c.sendFromReader k) (c.reader.courier.tend m)
  | retreat (hk : c.reader.courier.Refused d) : Stride d m c c.rebuff m
  | stop (hl : c.reader.IsListening) (hw : m.cancelledAt.isSome ∨ c.link.read.1 = .ended ∨ c.link.read.1 = .failed ∨
      c.link.read.1 = .nothing ∧ c.reader.IsOverdue d.exchange.supply.now) : Stride d m c c.readerDone m
  | hear {f link p r} (hl : c.reader.IsListening) (hf : c.link.read = (.frame f, link))
      (hj : Reader.judge c.limits f = .payload p)
      (hr : r = Reaction.ofPayload d.exchange.supply.stamp c.id c.identity p) :
      Stride d m c ({ c with link }.sendFromReader (r.courier (r.lent m).loan)) (r.lent m)
  | reject {f link} (hl : c.reader.IsListening) (hf : c.link.read = (.frame f, link))
      (hj : Reader.judge c.limits f = .stop) : Stride d m c { c with link }.readerDone m
  | heed {f link} (hl : c.reader.IsListening) (hf : c.link.read = (.frame f, link))
      (hj : Reader.judge c.limits f = .alive ∨ Reader.judge c.limits f = .ignore) :
      Stride d m c { c with link := link.goOn f, reader := c.reader.after c.limits d.exchange.supply.now f } m
  | giveUp {probing} (hp : c.writer.phase.probing? m = some probing)
      (hw : c.writer.await c.limits d.exchange.supply.now m probing = .giveUp) :
      Stride d m c (c.moveWriter (.closing d.exchange.supply.now)) m
  | take {probing f} (hp : c.writer.phase.probing? m = some probing)
      (hw : c.writer.await c.limits d.exchange.supply.now m probing = .frame f) :
      Stride d m c { c with writer := c.writer.take c.limits d.exchange.supply.now f } (m.without f)
  | wait (hp : c.writer.phase = .choosing) (hw : c.writer.choose c.limits d.exchange.supply.now m = .wait) :
      Stride d m c (c.moveWriter (.waiting (m.cancelledAt = none))) m
  | write {f asked w} (hp : c.writer.phase = .sending f asked)
      (hw : c.writer.sent? c.limits d.exchange.supply.now m f asked (c.link.outcome asked) = some w) :
      Stride d m c { c with writer := w, link := c.link.write f asked } m
  | close {since} (hp : c.writer.phase = .closing since)
      (hc : c.link.closeHangs = true → Writer.IsStuck c.limits since d.exchange.supply.now) :
      Stride d m c c.writerDone (m.cancel d.exchange.supply.now)
  | send {k k' new} (hp : c.writer.phase = .leaving k) (hk : k.Forwards d k' new) :
      Stride d m c (c.moveWriter (.leaving k')) (k.tend m)
  | lose {k} (hp : c.writer.phase = .leaving k) (hk : k.Refused d) : Stride d m c (c.moveWriter (.leaving .idle)) m
  | cease (hp : c.writer.phase = .leaving .idle) : Stride d m c (c.moveWriter .done) m.abandon
  | ask {r} (hs : c.stage = .refusing r false) (ho : c.link.outcome false = .pending) :
      Stride d m c { c with stage := .refusing r true } m
  | dismiss {r asked} (hs : c.stage = .refusing r asked) (ho : c.link.outcome asked ≠ .pending) :
      Stride d m c { c with stage := .leaving r, link := c.link.write .close asked } m
  | leave {r} (hs : c.stage = .leaving r) (hc : c.link.closeHangs = false) :
      Stride d m c (c.finish (some r)) m.abandon
  | finish (hs : c.stage = .draining) (hk : c.reader.courier = .idle) (hp : c.writer.phase = .done) :
      Stride d m c (c.finish none) m

variable {d : Desk} {m m' : Mailbox} {c c' : Session} {link : Link} {f : Frame} {k : Courier}

@[simp] theorem writer_rebuff : c.rebuff.writer = c.writer := by
  unfold rebuff; split <;> rfl

-- A session is that of the same user, under the same limits and with the same mailbox, all the time.
structure IsSame (c c' : Session) : Prop where
  id       : c'.id = c.id
  identity : c'.identity = c.identity
  limits   : c'.limits = c.limits
  mailbox  : c'.mailbox = c.mailbox

theorem IsSame.refl : IsSame c c :=
  ⟨rfl, rfl, rfl, rfl⟩

theorem IsSame.trans {c'' : Session} (h : IsSame c c') (h' : IsSame c' c'') : IsSame c c'' :=
  ⟨h'.id.trans h.id, h'.identity.trans h.identity, h'.limits.trans h.limits, h'.mailbox.trans h.mailbox⟩

theorem Told.isSame (h : Told c c') : IsSame c c' := by
  cases h <;> exact ⟨rfl, rfl, rfl, rfl⟩

theorem isSame_rebuff : IsSame c c.rebuff := by
  unfold rebuff
  split <;> exact ⟨rfl, rfl, rfl, rfl⟩

theorem Stride.isSame (h : c.Stride d m c' m') : IsSame c c' := by
  cases h
  case retreat => exact isSame_rebuff
  all_goals exact ⟨rfl, rfl, rfl, rfl⟩

end Session

-- Whoever was told to stop was told so at that time.
theorem Mailbox.cancelledAt_cancel {m : Mailbox} {t now : Nat} (h : m.cancelledAt = some t) :
    (m.cancel now).cancelledAt = some t := by
  simp [cancel, h]

namespace Session

variable {d : Desk} {m m' : Mailbox} {c c' : Session} {link : Link} {f : Frame} {k : Courier} {t : Nat}

theorem Stride.cancelledAt (h : c.Stride d m c' m') (hm : m.cancelledAt = some t) : m'.cancelledAt = some t := by
  cases h
  case close => exact Mailbox.cancelledAt_cancel hm
  case take f _ _ => cases f <;> exact hm
  case bring => exact Mailbox.cancelledAt_tend.trans hm
  case send => exact Mailbox.cancelledAt_tend.trans hm
  case hear => exact Mailbox.cancelledAt_lent.trans hm
  all_goals exact hm

theorem Stride.isCancelled (h : c.Stride d m c' m') (hm : m.cancelledAt.isSome) : m'.cancelledAt.isSome := by
  obtain ⟨t, ht⟩ := Option.isSome_iff_exists.mp hm
  exact Option.isSome_of_eq_some (h.cancelledAt ht)

-- A writer that may still choose and send.
def Writer.Phase.IsWriting : Writer.Phase → Prop
  | choosing | waiting _ | sending ..   => True
  | closing _ | leaving _ | done => False

-- A session whose writer has not left its loop yet.
def IsWriting (c : Session) : Prop := c.stage = .admitted ∨ c.writer.phase.IsWriting

theorem Writer.isWriting_of_probing {p : Writer.Phase} {probing : Bool} (h : p.probing? m = some probing) :
    p.IsWriting := by
  cases p <;> trivial

theorem Writer.phase_of_sent? {w w' : Writer} {l : Limits} {now : Nat} {asked : Bool} {o : Outcome}
    (h : w.sent? l now m f asked o = some w') : w'.phase.IsWriting ∨ w'.phase = .closing now := by
  simp only [sent?] at h
  split at h
  case h_1 =>
    cases h
    dsimp only
    split
    · exact .inr rfl
    · exact .inl trivial
  case h_2 => cases h; exact .inr rfl
  case h_3 =>
    split at h
    case isTrue => cases h; exact .inr rfl
    case isFalse => split at h <;> cases h; exact .inl trivial

-- A writer that has left its loop does not come back to it.
theorem Stride.isWriting (h : c.Stride d m c' m') (hc : c'.IsWriting) : c.IsWriting := by
  cases h
  case serve hs => exact .inl hs
  case giveUp hp _ | take hp _ => exact .inr (Writer.isWriting_of_probing hp)
  case wait hp _ | write hp _ => exact .inr (hp ▸ trivial)
  case stop | reject =>
    exact hc.elim nofun .inr
  case retreat =>
    unfold rebuff at hc
    split at hc
    · exact hc.elim nofun .inr
    · exact hc
  case leave | finish => exact hc.elim nofun .inr
  case ask | dismiss => exact hc.elim nofun .inr
  case close | send | lose | cease => exact hc.elim .inl nofun
  case bring | hear | heed => exact hc

-- The transport is closed from when the loop was left.
theorem Stride.closing {since : Nat} (h : c.Stride d m c' m') (hc : c'.writer.phase = .closing since) :
    c.writer.phase = .closing since ∨ c.IsWriting ∧ since = d.exchange.supply.now := by
  cases h
  case giveUp hp _ =>
    cases hc
    exact .inr ⟨.inr (Writer.isWriting_of_probing hp), rfl⟩
  case write w hp hw =>
    obtain hp' | hp' := Writer.phase_of_sent? hw
    · rw [show w.phase = .closing since from hc] at hp'
      exact hp'.elim
    · exact .inr ⟨.inr (hp ▸ trivial), Writer.Phase.closing.inj (hc.symm.trans hp')⟩
  case retreat => exact .inl (by simpa using hc)
  case serve | take | wait | close | send | lose | cease => cases hc
  all_goals exact .inl hc

-- An upper bound for the strides that a courier, a writer, and a session may still take.  Every frame of the client
-- may send the courier out, which may put another notice into the mailbox.
def Courier.toil : Courier → Nat
  | answering (some _) _ => 8
  | answering none _     => 3
  | carrying _           => 2
  | waiting _            => 1
  | idle                 => 0

def Writer.Phase.toil : Writer.Phase → Nat
  | waiting true         => 11
  | sending .close false => 6
  | sending .close true  => 5
  | sending _ false      => 10
  | sending _ true       => 9
  | choosing             => 8
  | waiting false        => 7
  | closing _            => 4
  | leaving k            => k.toil + 1
  | done                 => 0

def Stage.toil : Stage → Nat
  | admitted         => 13
  | refusing _ false => 3
  | refusing _ true  => 2
  | leaving _        => 1
  | draining         => 1
  | registering | serving | finished _ | broken => 0

def toil (c : Session) (m : Mailbox) : Nat :=
  c.stage.toil + 4 * c.reader.running.toNat + c.reader.courier.toil + c.writer.phase.toil +
    4 * m.pipe.queue.length + 9 * c.link.inbound.queue.length

theorem Courier.toil_bearing_le {next : Option Command} : (bearing next).toil ≤ 2 := by
  cases next
  case none => exact Nat.zero_le _
  case some => exact Nat.le_refl _

theorem Courier.toil_of_forwards {k' : Courier} {new : List Errand} (h : k.Forwards d k' new) : k'.toil < k.toil := by
  cases h
  case left | arrived => exact Nat.lt_succ_self _
  case offered => exact Nat.lt_add_of_pos_right (n := 3) (k := 5) (by decide)
  case returned => exact Nat.lt_succ_of_le toil_bearing_le

-- An answer that is put into the mailbox was counted before.
theorem Courier.toil_tend_of_forwards {k' : Courier} {new : List Errand} (h : k.Forwards d k' new) :
    k'.toil + 4 * (k.tend m).pipe.queue.length < k.toil + 4 * m.pipe.queue.length := by
  have ht := toil_of_forwards h
  cases h
  case left | arrived | returned => exact Nat.add_lt_add_right ht _
  case offered n next =>
    have hq : (m.reply n).pipe.queue.length ≤ m.pipe.queue.length + 1 := by
      rw [Mailbox.queue_reply, List.length_append]
      split <;> simp
    change 3 + 4 * (m.reply n).pipe.queue.length < 8 + 4 * m.pipe.queue.length
    omega

theorem Courier.toil_of_refused (h : k.Refused d) : 0 < k.toil := by
  cases h <;> exact Nat.succ_pos _

-- A reader that goes on after a frame only looks at the clock.
theorem Reader.stays_after (r : Reader) {l : Limits} (now : Nat) (h : judge l f = .alive ∨ judge l f = .ignore) :
    (r.after l now f).running = r.running ∧ (r.after l now f).courier = r.courier := by
  unfold after
  obtain h | h := h <;> rw [h] <;> exact ⟨rfl, rfl⟩

theorem Link.queue_inbound_of_read (h : c.link.read = (.frame f, link)) :
    c.link.inbound.queue = f :: link.inbound.queue := by
  have hmind {k k' : Link} {g : Frame} {a : Arrival} (h : k.mind g = (a, k')) :
      k'.inbound = k.inbound ∧ (a = .failed ∨ a = .frame g) := by
    simp only [mind] at h
    split at h <;> repeat' split at h
    all_goals cases h; exact ⟨rfl, by simp⟩
  simp only [read, Pipe.receive] at h
  split at h
  case isTrue => cases h
  case isFalse =>
    split at h
    case h_2 => cases h
    case h_3 => cases h
    case h_1 g inbound hg =>
      split at hg
      case h_2 => split at hg <;> cases hg
      case h_1 hq =>
        cases hg
        split at h
        case isTrue =>
          obtain ⟨hi, ha | ha⟩ := hmind h <;> cases ha
          rw [hi, hq]
        case isFalse => cases h; rw [hq]

theorem Link.length_inbound_of_read (h : c.link.read = (.frame f, link)) :
    link.inbound.queue.length + 1 = c.link.inbound.queue.length := by
  rw [queue_inbound_of_read h, List.length_cons]

@[simp] theorem Link.inbound_goOn : (link.goOn f).inbound = link.inbound := by
  unfold goOn; repeat' split
  all_goals rfl

@[simp] theorem Link.inbound_write {asked : Bool} : (link.write f asked).inbound = link.inbound := by
  unfold write; repeat' split
  all_goals rfl

@[simp] theorem Link.inbound_closeOutbound : link.closeOutbound.inbound = link.inbound := by
  unfold closeOutbound; dsimp only; split <;> rfl

theorem toil_withdraw_le : c.withdraw.1.toil ≤ 2 := by
  unfold withdraw
  split
  · exact Nat.zero_le _
  · exact Nat.le_refl _

theorem Reaction.toil_courier_le (r : Reaction) (loan : Mailbox.Loan) : (r.courier loan).toil ≤ 8 := by
  have hbearing : (Courier.bearing r.command).toil ≤ 8 := Nat.le_trans Courier.toil_bearing_le (by decide)
  unfold courier
  split
  case h_1 =>
    split
    case isTrue => exact Nat.le_refl _
    case isFalse => exact hbearing
  case h_2 => exact hbearing

theorem Writer.toil_of_probing {p : Writer.Phase} {probing : Bool} (h : p.probing? m = some probing) :
    7 ≤ p.toil ∧ (probing = true → m.cancelledAt.isSome → 11 ≤ p.toil) := by
  cases p
  case choosing =>
    cases h
    refine ⟨Nat.le_succ _, fun hp hm => ?_⟩
    rw [of_decide_eq_true hp] at hm
    cases hm
  case waiting probing =>
    cases h
    cases probing
    case false => exact ⟨Nat.le_refl _, nofun⟩
    case true => exact ⟨by decide, fun _ _ => Nat.le_refl _⟩
  all_goals cases h

theorem Writer.toil_of_sending (f : Frame) (asked : Bool) :
    5 ≤ (Writer.Phase.sending f asked).toil ∧ (f ≠ .close → 9 ≤ (Writer.Phase.sending f asked).toil) ∧
      (asked = false → (Writer.Phase.sending f true).toil < (Writer.Phase.sending f asked).toil) := by
  cases f <;> cases asked <;> simp [Writer.Phase.toil]

theorem Writer.toil_of_sent? {w w' : Writer} {l : Limits} {now : Nat} {asked : Bool} {o : Outcome}
    (h : w.sent? l now m f asked o = some w') : w'.phase.toil < (Writer.Phase.sending f asked).toil := by
  have ⟨hclosing, hchoosing, hasked⟩ := toil_of_sending f asked
  simp only [sent?] at h
  split at h
  case h_1 =>
    cases h
    dsimp only
    split
    case isTrue => exact hclosing
    case isFalse hf => exact hchoosing hf
  case h_2 => cases h; exact hclosing
  case h_3 =>
    split at h
    case isTrue => cases h; exact hclosing
    case isFalse =>
      split at h <;> cases h
      case isFalse ha => exact hasked (Bool.eq_false_iff.mpr ha)

-- A reader that stops has at most one more errand to run.
theorem toil_readerDone (hr : c.reader.running = true) : c.readerDone.toil m < c.toil m := by
  have hk : c.readerDone.reader.courier.toil ≤ 2 := toil_withdraw_le (c := c)
  have hd : c.readerDone.toil m =
      1 + 0 + c.readerDone.reader.courier.toil + c.writer.phase.toil + 4 * m.pipe.queue.length +
        9 * c.link.inbound.queue.length := rfl
  have hc : c.toil m =
      c.stage.toil + 4 + c.reader.courier.toil + c.writer.phase.toil + 4 * m.pipe.queue.length +
        9 * c.link.inbound.queue.length := by rw [toil, hr]; rfl
  omega

theorem toil_lt_of_writer {w : Writer} (hl : link.inbound = c.link.inbound)
    (hw : w.phase.toil + 4 * m'.pipe.queue.length < c.writer.phase.toil + 4 * m.pipe.queue.length) :
    toil { c with writer := w, link } m' < c.toil m := by
  simp only [toil, hl]
  omega

-- A writer that gets on while no more waits for it than before.
theorem toil_lt_of_phase {w : Writer} {phase : Writer.Phase} (hl : link.inbound = c.link.inbound)
    (hq : m'.pipe.queue.length ≤ m.pipe.queue.length) (hp : c.writer.phase = phase)
    (hw : w.phase.toil < phase.toil) : toil { c with writer := w, link } m' < c.toil m :=
  toil_lt_of_writer hl (Nat.add_lt_add_of_lt_of_le (hp ▸ hw) (Nat.mul_le_mul_left 4 hq))

theorem toil_lt_of_courier
    (hk : k.toil + 4 * m'.pipe.queue.length < c.reader.courier.toil + 4 * m.pipe.queue.length) :
    (c.sendFromReader k).toil m' < c.toil m := by
  simp only [toil, sendFromReader]
  omega

theorem toil_lt_of_stage {stage : Stage} (hl : link.inbound.queue.length ≤ c.link.inbound.queue.length)
    (hq : m'.pipe.queue.length ≤ m.pipe.queue.length) (hs : stage.toil < c.stage.toil) :
    toil { c with stage, link } m' < c.toil m := by
  simp only [toil]
  omega

theorem Stride.toil_lt (h : c.Stride d m c' m') (hm : m.cancelledAt.isSome) : c'.toil m' < c.toil m := by
  cases h
  case serve hs =>
    have hc : (c.serve d.exchange.supply.now).toil m =
        12 + 4 * m.pipe.queue.length + 9 * c.link.inbound.queue.length := rfl
    simp only [toil, hs, Stage.toil] at hc ⊢
    omega
  case bring hk => exact toil_lt_of_courier (Courier.toil_tend_of_forwards hk)
  case retreat hk =>
    have hi : (c.sendFromReader .idle).toil m < c.toil m :=
      toil_lt_of_courier (Nat.add_lt_add_right (Courier.toil_of_refused hk) _)
    unfold Session.rebuff
    split
    case isTrue hr => exact Nat.lt_trans (toil_readerDone hr) hi
    case isFalse => exact hi
  case stop hl _ => exact toil_readerDone hl.1
  case reject hl hf _ =>
    have hn := Link.length_inbound_of_read hf
    refine Nat.lt_trans (toil_readerDone (c := { c with link := _ }) hl.1) ?_
    simp only [toil]
    omega
  case heed hl hf hj =>
    have hn := Link.length_inbound_of_read hf
    have ⟨hr, hk⟩ := c.reader.stays_after d.exchange.supply.now hj
    simp only [toil, hr, hk, Link.inbound_goOn]
    omega
  case hear r hl hf _ _ =>
    have hn := Link.length_inbound_of_read hf
    have hk : c.reader.courier.toil = 0 := hl.2 ▸ rfl
    have hr := r.toil_courier_le (r.lent m).loan
    simp only [toil, sendFromReader, Mailbox.pipe_lent]
    omega
  case giveUp hp _ =>
    have ⟨hle, _⟩ := Writer.toil_of_probing hp
    exact toil_lt_of_phase rfl (Nat.le_refl _) rfl (Nat.le_trans (Nat.le_add_right 5 2) hle)
  case take hp hw =>
    have ⟨hle, hprobing⟩ := Writer.toil_of_probing hp
    refine toil_lt_of_writer rfl ?_
    have hc : Writer.Chooses m _ (.frame _) := hw ▸ Writer.chooses_await
    cases hc
    case text n queue hq =>
      have ht : (m.without (.text n.text)).pipe.queue = queue := by
        simp [Mailbox.without, Service.takeNotice, Pipe.receive, hq]
      rw [ht, hq]
      change 10 + _ < _ + 4 * (_ + 1)
      omega
    case close => exact Nat.add_lt_add_right (Nat.lt_of_lt_of_le (Nat.lt_succ_self 6) hle) _
    case ping hb => exact Nat.add_lt_add_right (Nat.lt_of_lt_of_le (Nat.lt_succ_self 10) (hprobing hb hm)) _
  case wait hp hw =>
    rw [decide_eq_false (Option.isSome_iff_ne_none.mp hm)]
    exact toil_lt_of_phase rfl (Nat.le_refl _) hp (Nat.lt_succ_self _)
  case write hp hw => exact toil_lt_of_phase Link.inbound_write (Nat.le_refl _) hp (Writer.toil_of_sent? hw)
  case close hp _ =>
    exact toil_lt_of_phase Link.inbound_closeOutbound (Nat.le_refl _) hp
      (Nat.succ_le_succ (Nat.succ_le_succ toil_withdraw_le))
  case send k k' new hp hk =>
    have := Courier.toil_tend_of_forwards (m := m) hk
    refine toil_lt_of_writer rfl ?_
    rw [hp]
    simp only [Writer.Phase.toil]
    omega
  case lose hp hk => exact toil_lt_of_phase rfl (Nat.le_refl _) hp (Nat.succ_lt_succ (Courier.toil_of_refused hk))
  case cease hp => exact toil_lt_of_phase rfl (Nat.zero_le _) hp (Nat.lt_succ_self _)
  case ask hs _ => exact toil_lt_of_stage (Nat.le_refl _) (Nat.le_refl _) (hs ▸ Nat.lt_succ_self _)
  case dismiss r asked hs _ =>
    refine toil_lt_of_stage (Nat.le_of_eq (by rw [Link.inbound_write])) (Nat.le_refl _) ?_
    rw [hs]
    cases asked
    · exact Nat.succ_lt_succ (Nat.zero_lt_two)
    · exact Nat.lt_succ_self _
  case leave hs _ => exact toil_lt_of_stage (Nat.zero_le _) (Nat.zero_le _) (hs ▸ Nat.lt_succ_self _)
  case finish hs _ _ => exact toil_lt_of_stage (Nat.zero_le _) (Nat.le_refl _) (hs ▸ Nat.lt_succ_self _)

end Session
end Parley
