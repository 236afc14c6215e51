import Parley.Proofs.Service.Silence
import Parley.Proofs.Service.Warning

namespace Parley

open Std

def Frame.isPong : Frame → Bool
  | pong _                               => true
  | text _ | binary _ | ping _ | close => false

namespace Session

-- A pong of the client is on its way to the reader.
def HasPong (c : Session) : Prop := c.link.inbound.queue.any (·.isPong)

-- A writer that goes on until its session is told to stop.
def Writer.Phase.GoesOn : Writer.Phase → Prop
  | choosing | waiting true                     => True
  | sending f _                                 => f ≠ .close
  | waiting false | closing _ | leaving _ | done => False

-- A writer that has a ping in hand.
def Writer.Phase.hasPing : Writer.Phase → Bool
  | sending (.ping _) _                                           => true
  | sending .. | choosing | waiting _ | closing _ | leaving _ | done => false

-- How far a session has got with probing its client at a time; `owed` says that the client has not answered the last
-- ping so far.  The next ping is due before the client has been silent for too long, unless a pong comes first.
structure Probes (c : Session) (now : Nat) (owed : Bool) : Prop where
  phase : c.writer.phase.GoesOn
  due   : now ≤ wholeMillis c.writer.nextProbe
  soon  : c.writer.nextProbe ≤ now + Writer.period c.limits
  ahead : c.HasPong ∨ owed = true ∨ c.writer.phase.hasPing = true ∨
    wholeMillis c.writer.nextProbe < c.reader.deadline

variable {d : Desk} {m m' : Mailbox} {c c' : Session} {l : Limits} {w : Writer} {f : Frame} {link : Link}
  {wait t now now' : Nat} {owed probing : Bool} {frames : List Frame}

theorem le_wholeMillis : t ≤ wholeMillis t := by
  unfold wholeMillis
  omega

theorem wholeMillis_lt : wholeMillis t < t + millis 1 := by
  unfold wholeMillis millis
  omega

-- A client that may be silent for ten milliseconds or more is probed a millisecond before the end at least.
theorem Writer.period_add_le (h : millis 10 ≤ wait) : period (l.withPongWait wait) + millis 1 ≤ wait := by
  simp only [period, Limits.withPongWait, Limits.pingIntervalFor, millis] at h ⊢
  omega

-- A probe that goes out as soon as it is due does not put off the ones after it.
theorem Writer.probeAfter_eq (h : now ≤ wholeMillis w.nextProbe) : w.probeAfter l now = w.nextProbe + period l := by
  have hlt := wholeMillis_lt (t := w.nextProbe)
  refine if_neg ?_
  simp only [lateness, millis] at hlt ⊢
  omega

-- Probes are due one after the other.
theorem wholeMillis_lt_add_period : wholeMillis t < wholeMillis (t + Writer.period l) := by
  have hlt := wholeMillis_lt (t := t)
  have hle := le_wholeMillis (t := t + Writer.period l)
  have hp : millis 1 ≤ Writer.period l := Nat.le_max_right ..
  omega

-- What is due within a period is due before the client that is heard of now is silent for too long.
theorem wholeMillis_lt_add_pongWait (hl : Writer.period l + millis 1 ≤ l.pongWait)
    (ht : t ≤ now + Writer.period l) : wholeMillis t < now + l.pongWait := by
  have hlt := wholeMillis_lt (t := t)
  omega

theorem Link.queue_inbound_eq_nil (h : link.read.1 = .nothing) : link.inbound.queue = [] := by
  simp only [read, Pipe.receive] at h
  split at h
  case isTrue => cases h
  case isFalse =>
    cases hq : link.inbound.queue
    case nil => rfl
    case cons g queue =>
      rw [hq] at h
      simp only at h
      split at h
      case isFalse => cases h
      case isTrue =>
        unfold mind at h
        split at h <;> (try split at h) <;> cases h

theorem HasPong.read_ne_nothing (h : c.HasPong) : c.link.read.1 ≠ .nothing := by
  intro hn
  rw [HasPong, Link.queue_inbound_eq_nil hn] at h
  cases h

theorem HasPong.append (h : c.HasPong) (hq : link.inbound.queue = c.link.inbound.queue ++ frames) :
    HasPong { c with link } := by
  rw [HasPong, hq, List.any_append, Bool.or_eq_true]
  exact .inl h

-- A reader that takes anything else leaves the pong where it is.
theorem HasPong.of_read (h : c.HasPong) (hf : c.link.read = (.frame f, link)) (hn : f.isPong = false) :
    HasPong { c with link } := by
  rw [HasPong, Link.queue_inbound_of_read hf, List.any_cons, hn, Bool.false_or] at h
  exact h

-- A pong is taken for a sign of life, unless it is too long.
theorem Reader.judge_of_isPong (h : f.isPong = true) : judge l f = .alive ∨ judge l f = .stop := by
  cases f <;> cases h
  unfold judge
  split
  · exact .inr rfl
  · exact .inl rfl

theorem Stride.running (h : c.Stride d m c' m') (hs : c.stage ≠ .admitted) (hr : c'.reader.running = true) :
    c.reader.running = true := by
  cases h
  case serve ha => exact absurd ha hs
  case stop | reject => cases hr
  case retreat =>
    unfold rebuff at hr
    split at hr
    case isTrue => cases hr
    case isFalse => exact hr
  case heed hj =>
    obtain ⟨hr', _⟩ := c.reader.stays_after d.exchange.supply.now hj
    exact hr' ▸ hr
  all_goals exact hr

-- As long as a reader is at work, it takes no pong but to put off the end.
theorem Stride.hears (h : c.Stride d m c' m') (hs : c.stage = .serving) (hr : c'.reader.running = true) :
    (c.HasPong → c'.HasPong) ∧ c'.reader.deadline = c.reader.deadline ∨
      c'.reader.deadline = d.exchange.supply.now + c.limits.pongWait := by
  cases h
  case serve hq | ask hq _ | dismiss hq _ | leave hq _ | finish hq _ _ => cases hq.symm.trans hs
  case stop | reject => cases hr
  case retreat =>
    unfold rebuff at hr
    split at hr
    case isTrue => cases hr
    case isFalse hn => exact absurd hr hn
  case hear f link p r hl hf hj _ =>
    refine .inl ⟨fun hp => ?_, rfl⟩
    have hn : f.isPong = false := by
      refine Bool.eq_false_iff.mpr fun hn => ?_
      obtain ha | ha := Reader.judge_of_isPong (l := c.limits) hn <;> cases ha.symm.trans hj
    exact hp.of_read hf hn
  case heed f link hl hf hj =>
    by_cases hsign : c.limits.IsSign f
    case pos => exact .inr (Reader.deadline_after.trans (if_pos hsign))
    case neg =>
      refine .inl ⟨fun hp => ?_, Reader.deadline_after.trans (if_neg hsign)⟩
      have hn : f.isPong = false := by
        refine Bool.eq_false_iff.mpr fun hn => ?_
        obtain ha | ha := Reader.judge_of_isPong (l := c.limits) hn
        · exact hsign (Reader.judge_eq_alive_iff.mp ha)
        · obtain hj | hj := hj <;> cases ha.symm.trans hj
      rw [HasPong, Link.inbound_goOn]
      exact hp.of_read hf hn
  case write =>
    refine .inl ⟨fun hp => ?_, rfl⟩
    rw [HasPong, Link.inbound_write]
    exact hp
  case close =>
    refine .inl ⟨fun hp => ?_, rfl⟩
    simp only [HasPong, writerDone, withdraw, Link.inbound_closeOutbound]
    exact hp
  all_goals exact .inl ⟨fun hp => hp, rfl⟩

theorem Writer.nextProbe_take :
    (w.take l now f).nextProbe = if f = .ping [] then w.probeAfter l now else w.nextProbe :=
  rfl

-- When a writer gives up, and when it probes the client.
theorem Writer.await_cases (w : Writer) (l : Limits) (now : Nat) (m : Mailbox) (probing : Bool) :
    IsExpired l m.cancelledAt now ∧ w.await l now m probing = .giveUp ∨
      (∃ n : Notice, w.await l now m probing = .frame (.text n.text)) ∨ w.await l now m probing = .frame .close ∨
      (probing = true ∧ wholeMillis w.nextProbe ≤ now) ∧ w.await l now m probing = .frame (.ping []) ∨
      ¬ (probing = true ∧ wholeMillis w.nextProbe ≤ now) ∧ w.await l now m probing = .wait := by
  simp only [await]
  split
  case isTrue he => exact .inl ⟨he, rfl⟩
  case isFalse =>
    split
    case h_1 n _ => exact .inr (.inl ⟨n, rfl⟩)
    case h_2 => exact .inr (.inr (.inl rfl))
    case h_3 =>
      split
      case isTrue hp => exact .inr (.inr (.inr (.inl ⟨hp, rfl⟩)))
      case isFalse hn => exact .inr (.inr (.inr (.inr ⟨hn, rfl⟩)))

theorem Writer.cancelledAt_ne_none (h : w.await l now m probing = .giveUp) : m.cancelledAt ≠ none := by
  obtain ⟨⟨t, ht, _⟩, _⟩ | ⟨n, hn⟩ | hn | ⟨_, hn⟩ | ⟨_, hn⟩ := w.await_cases l now m probing
  case inl => exact Option.ne_none_iff_exists'.mpr ⟨t, ht⟩
  all_goals cases h.symm.trans hn

theorem Writer.wholeMillis_le (h : w.await l now m probing = .frame (.ping [])) : wholeMillis w.nextProbe ≤ now := by
  obtain ⟨_, hn⟩ | ⟨n, hn⟩ | hn | ⟨hp, _⟩ | ⟨_, hn⟩ := w.await_cases l now m probing
  case inr.inr.inr.inl => exact hp.2
  all_goals cases h.symm.trans hn

theorem Writer.lt_wholeMillis (h : w.await l now m true = .wait) : now < wholeMillis w.nextProbe := by
  obtain ⟨_, hn⟩ | ⟨n, hn⟩ | hn | ⟨_, hn⟩ | ⟨hn, _⟩ := w.await_cases l now m true
  case inr.inr.inr.inr => exact Nat.not_le.mp fun hle => hn ⟨rfl, hle⟩
  all_goals cases h.symm.trans hn

-- With an empty mailbox, a writer probes the client when that is due, and waits otherwise.
theorem Writer.await_of_empty {capacity : Nat} {readable : Bool} {loan : Mailbox.Loan} :
    w.await l now ⟨⟨capacity, [], true, readable⟩, none, loan⟩ true =
      if wholeMillis w.nextProbe ≤ now then .frame (.ping []) else .wait := by
  simp [await, IsExpired, Mailbox.receive]

-- As long as its session is not told to stop, a writer does not stop, and probes the client as soon as it is due.
theorem Stride.writes (h : c.Stride d m c' m') (hs : c.stage = .serving) (hc : m.cancelledAt = none) (hm : m.Warns)
    (ha : ∀ f asked, c.writer.phase = .sending f asked → c.link.outcome asked = .sent) (hp : c.writer.phase.GoesOn) :
    c'.writer.phase.GoesOn ∧ (c'.writer.nextProbe = c.writer.nextProbe ∨
      c'.writer.phase.hasPing = true ∧ wholeMillis c.writer.nextProbe ≤ d.exchange.supply.now ∧
        c'.writer.nextProbe = c.writer.probeAfter c.limits d.exchange.supply.now) := by
  cases h
  case serve hq | ask hq _ | dismiss hq _ | leave hq _ | finish hq _ _ => cases hq.symm.trans hs
  case close hq _ | send hq _ | lose hq _ | cease hq => rw [hq] at hp; exact hp.elim
  case giveUp hw => exact absurd hc (Writer.cancelledAt_ne_none hw)
  case wait =>
    rw [decide_eq_true hc]
    exact ⟨trivial, .inl rfl⟩
  case take f hq hw =>
    have hchoice : Writer.Chooses m _ (.frame f) := hw ▸ Writer.chooses_await
    cases hchoice
    case text => exact ⟨nofun, .inl (Writer.nextProbe_take.trans (if_neg nofun))⟩
    case close hshut _ => exact absurd hc (Option.isSome_iff_ne_none.mp (hm hshut))
    case ping => exact ⟨nofun, .inr ⟨rfl, Writer.wholeMillis_le hw, Writer.nextProbe_take.trans (if_pos rfl)⟩⟩
  case write f asked w hq hw =>
    rw [ha f asked hq] at hw
    have hf : f ≠ .close := by
      rw [hq] at hp
      exact hp
    cases hw
    rw [if_neg hf]
    exact ⟨trivial, .inl rfl⟩
  case retreat => rw [writer_rebuff]; exact ⟨hp, .inl rfl⟩
  all_goals exact ⟨hp, .inl rfl⟩

theorem Probes.stride (h : c.Probes d.exchange.supply.now owed) (hst : c.Stride d m c' m')
    (hl : Writer.period c.limits + millis 1 ≤ c.limits.pongWait) (hs : c.stage = .serving)
    (hr : c'.reader.running = true) (hc : m.cancelledAt = none) (hm : m.Warns)
    (ha : ∀ f asked, c.writer.phase = .sending f asked → c.link.outcome asked = .sent) :
    c'.Probes d.exchange.supply.now (owed || c.writer.phase.hasPing && !c'.writer.phase.hasPing) := by
  obtain ⟨hphase, hnext⟩ := hst.writes hs hc hm ha h.phase
  have hdue := h.due
  have hsoon : c'.writer.nextProbe ≤ d.exchange.supply.now + Writer.period c.limits := by
    obtain hn | ⟨_, hle, hn⟩ := hnext
    · exact hn ▸ h.soon
    · rw [hn, Writer.probeAfter_eq hdue]
      exact Nat.add_le_add_right (Nat.le_trans le_wholeMillis hle) _
  refine ⟨hphase, ?due, hst.isSame.limits ▸ hsoon, ?ahead⟩
  case due =>
    obtain hn | ⟨_, _, hn⟩ := hnext
    · exact hn ▸ hdue
    · rw [hn, Writer.probeAfter_eq hdue]
      exact Nat.le_trans hdue (Nat.le_of_lt wholeMillis_lt_add_period)
  case ahead =>
    by_cases hping : c'.writer.phase.hasPing = true
    case pos => exact .inr (.inr (.inl hping))
    case neg =>
      obtain ⟨hpong, hdeadline⟩ | hdeadline := hst.hears hs hr
      case inr =>
        -- The end is put off by more than it takes until the next probe.
        exact .inr (.inr (.inr (hdeadline ▸ wholeMillis_lt_add_pongWait hl hsoon)))
      case inl =>
        have hn : c'.writer.nextProbe = c.writer.nextProbe := hnext.resolve_right fun hn => hping hn.1
        rw [hn, hdeadline, Bool.eq_false_iff.mpr hping]
        obtain h | h | h | h := h.ahead
        · exact .inl (hpong h)
        · exact .inr (.inl (by rw [h]; rfl))
        · exact .inr (.inl (by rw [h, Bool.not_false, Bool.and_true, Bool.or_true]))
        · exact .inr (.inr (.inr h))

-- The client sends frames, and time passes.
theorem Probes.sends (h : c.Probes now owed) (hq : link.inbound.queue = c.link.inbound.queue ++ frames)
    (hle : now ≤ now') (hdue : now' ≤ wholeMillis c.writer.nextProbe) :
    Probes { c with link } now' (owed && !frames.any (·.isPong)) := by
  refine ⟨h.phase, hdue, Nat.le_trans h.soon (Nat.add_le_add_right hle _), ?_⟩
  obtain h | h | h | h := h.ahead
  · exact .inl (h.append hq)
  · cases hf : frames.any (·.isPong)
    case false => exact .inr (.inl (by rw [h]; rfl))
    case true => exact .inl (by rw [HasPong, hq, List.any_append, hf, Bool.or_true])
  · exact .inr (.inr (.inl h))
  · exact .inr (.inr (.inr h))

end Session
end Parley
