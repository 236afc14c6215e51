import Parley.Proofs.Service.Grace
import Parley.Proofs.Service.Hearing

namespace Parley

open Std

namespace Session

-- The frame that there is to take.
def Link.Arrival.frame? : Link.Arrival → Option Frame
  | frame f                   => some f
  | ended | failed | nothing => none

-- A pong that the client may send: nothing else breaks its silence.
def Limits.IsSign (l : Limits) : Frame → Prop
  | .pong octets                             => octets.length ≤ l.frameSize
  | .text _ | .binary _ | .ping _ | .close => False

instance (l : Limits) (f : Frame) : Decidable (l.IsSign f) := by
  cases f <;> unfold Limits.IsSign <;> infer_instance

-- Since when the client has been silent, if its reader has begun at a time, and has taken these frames then.
def Limits.silentSince (l : Limits) (start : Nat) (taken : List (Nat × Frame)) : Nat :=
  ((taken.filter (l.IsSign ·.2)).getLast?.map (·.1)).getD start

-- None of the frames was taken when the client had been silent for too long.
def Limits.IsPunctual (l : Limits) (start : Nat) (taken : List (Nat × Frame)) : Prop :=
  ∀ n now f, taken[n]? = some (now, f) → now ≤ l.silentSince start (taken.take n) + l.pongWait

-- What the reader of a session may do next, with the frame that it takes to do so, if it takes one.
inductive Reads (d : Desk) (c : Session) : Option Frame → Session → Prop
  | bring {k new} (hk : c.reader.courier.Forwards d k new) : Reads d c none (c.sendFromReader k)
  | retreat (hk : c.reader.courier.Refused d) : Reads d c none c.rebuff
  | stop (hl : c.reader.IsListening) : Reads d c none c.readerDone
  | hear {f link p} (r : Reaction) (loan : Mailbox.Loan) (hl : c.reader.IsListening)
      (hf : c.link.read = (.frame f, link)) (hj : Reader.judge c.limits f = .payload p) :
      Reads d c (some f) ({ c with link }.sendFromReader (r.courier loan))
  | reject {f link} (hl : c.reader.IsListening) (hf : c.link.read = (.frame f, link))
      (hj : Reader.judge c.limits f = .stop) : Reads d c (some f) { c with link }.readerDone
  | heed {f link} (hl : c.reader.IsListening) (hf : c.link.read = (.frame f, link))
      (hj : Reader.judge c.limits f = .alive ∨ Reader.judge c.limits f = .ignore) :
      Reads d c (some f) { c with link := link.goOn f, reader := c.reader.after c.limits d.exchange.supply.now f }

-- An upper bound for the steps that a reader may still take.
def readerToil (c : Session) : Nat :=
  3 * c.reader.running.toNat + c.reader.courier.toil + 9 * c.link.inbound.queue.length

variable {d : Desk} {c c' : Session} {l : Limits} {f : Frame} {f? : Option Frame} {start now : Nat}
  {taken : List (Nat × Frame)}

theorem Limits.silentSince_concat :
    l.silentSince start (taken ++ [(now, f)]) = if l.IsSign f then now else l.silentSince start taken := by
  by_cases hf : l.IsSign f <;> simp [silentSince, List.filter_append, hf]

theorem Limits.IsPunctual.concat (h : l.IsPunctual start taken)
    (hn : now ≤ l.silentSince start taken + l.pongWait) : l.IsPunctual start (taken ++ [(now, f)]) := by
  intro n now' f' hf
  by_cases hlt : n < taken.length
  case pos =>
    rw [List.getElem?_append_left hlt] at hf
    rw [List.take_append_of_le_length (Nat.le_of_lt hlt)]
    exact h n now' f' hf
  case neg =>
    have ⟨hlt', _⟩ := List.getElem?_eq_some_iff.mp hf
    obtain rfl : n = taken.length := by
      rw [List.length_append, List.length_singleton] at hlt'
      omega
    rw [List.getElem?_concat_length] at hf
    cases hf
    rwa [List.take_left]

theorem Reader.judge_eq_alive_iff : judge l f = .alive ↔ l.IsSign f := by
  have hs : (oversize? f.size l.frameSize).isSome ↔ l.frameSize < f.size := by
    by_cases h : l.frameSize < f.size <;> simp [oversize?, h]
  unfold judge
  split
  case isTrue h =>
    refine ⟨nofun, fun hf => ?_⟩
    cases f
    case pong octets => exact absurd (hs.mp h) (Nat.not_lt.mpr hf)
    all_goals exact hf.elim
  case isFalse h =>
    cases f
    case pong octets => exact ⟨fun _ => Nat.not_lt.mp fun hlt => h (hs.mpr hlt), fun _ => rfl⟩
    all_goals exact ⟨nofun, False.elim⟩

-- A sign of life puts off the end, and nothing else does.
theorem Reader.deadline_after {r : Reader} :
    (r.after l now f).deadline = if l.IsSign f then now + l.pongWait else r.deadline := by
  unfold after
  split
  case h_1 hj => rw [if_pos (judge_eq_alive_iff.mp hj)]
  case h_2 hj | h_3 hj | h_4 hj =>
    have hn : ¬ l.IsSign f := fun hf => nomatch hj.symm.trans (judge_eq_alive_iff.mpr hf)
    simp only [hn, if_false, stop]

@[simp] theorem deadline_rebuff : c.rebuff.reader.deadline = c.reader.deadline := by
  unfold rebuff; split <;> rfl

theorem readerToil_sendFromReader {k : Courier} (hk : k.toil < c.reader.courier.toil) :
    (c.sendFromReader k).readerToil < c.readerToil := by
  simp only [readerToil, sendFromReader]
  omega

-- A reader that stops has one more errand to run at most.
theorem readerToil_readerDone (hr : c.reader.running = true) : c.readerDone.readerToil < c.readerToil := by
  have hk : c.readerDone.reader.courier.toil ≤ 2 := toil_withdraw_le
  have hd : c.readerDone.readerToil =
      0 + c.readerDone.reader.courier.toil + 9 * c.link.inbound.queue.length := rfl
  have hc : c.readerToil = 3 + c.reader.courier.toil + 9 * c.link.inbound.queue.length := by
    rw [readerToil, hr]
    rfl
  omega

namespace Reads

theorem isListening (h : c.Reads d (some f) c') : c.reader.IsListening := by
  cases h <;> assumption

-- A reader that has stopped does not begin again.
theorem running (h : c.Reads d f? c') (hr : c'.reader.running = true) : c.reader.running = true := by
  cases h
  case bring => exact hr
  case retreat =>
    unfold rebuff at hr
    split at hr
    case isTrue => cases hr
    case isFalse => exact hr
  case stop hl | hear hl _ _ | reject hl _ _ | heed hl _ _ => exact hl.1

-- The reader is to stop when its client has been silent for too long.
theorem deadline (h : c.Reads d f? c') (hc : c.reader.deadline = c.limits.silentSince start taken + c.limits.pongWait) :
    c'.reader.deadline =
      c.limits.silentSince start (taken ++ (f?.map (d.exchange.supply.now, ·)).toList) + c.limits.pongWait := by
  have hnone : taken ++ ((none : Option Frame).map (d.exchange.supply.now, ·)).toList = taken := List.append_nil taken
  have hsome (f : Frame) (hf : ¬ c.limits.IsSign f) :
      c.reader.deadline =
        c.limits.silentSince start (taken ++ [(d.exchange.supply.now, f)]) + c.limits.pongWait := by
    rw [Limits.silentSince_concat, if_neg hf, hc]
  cases h
  case bring | stop => exact hnone.symm ▸ hc
  case retreat => rw [deadline_rebuff, hnone, hc]
  case hear f _ _ _ _ _ _ hj | reject f _ _ _ hj =>
    exact hsome f fun hf => nomatch hj.symm.trans (Reader.judge_eq_alive_iff.mpr hf)
  case heed f _ _ _ _ =>
    refine Reader.deadline_after.trans ?_
    change _ = c.limits.silentSince start (taken ++ [(d.exchange.supply.now, f)]) + _
    rw [Limits.silentSince_concat, apply_ite (· + c.limits.pongWait), hc]

-- What a reader does does not make it late.
theorem now_le (h : c.Reads d f? c') (hc : d.exchange.supply.now ≤ c.reader.deadline) :
    d.exchange.supply.now ≤ c'.reader.deadline := by
  cases h
  case bring | stop | hear | reject => exact hc
  case retreat => rwa [deadline_rebuff]
  case heed =>
    refine Nat.le_trans ?_ (Nat.le_of_eq Reader.deadline_after.symm)
    split
    · exact Nat.le_add_right ..
    · exact hc

theorem toil_lt (h : c.Reads d f? c') : c'.readerToil < c.readerToil := by
  cases h
  case bring hk => exact readerToil_sendFromReader (Courier.toil_of_forwards hk)
  case retreat hk =>
    have hi : (c.sendFromReader .idle).readerToil < c.readerToil :=
      readerToil_sendFromReader (Courier.toil_of_refused hk)
    unfold rebuff
    split
    case isTrue hr => exact Nat.lt_trans (readerToil_readerDone hr) hi
    case isFalse => exact hi
  case stop hl => exact readerToil_readerDone hl.1
  case hear r loan hl hf _ =>
    have := Link.length_inbound_of_read hf
    have : c.reader.courier.toil = 0 := hl.2 ▸ rfl
    have := r.toil_courier_le loan
    simp only [readerToil, sendFromReader]
    omega
  case reject hl hf _ =>
    have := Link.length_inbound_of_read hf
    refine Nat.lt_trans (readerToil_readerDone (c := { c with link := _ }) hl.1) ?_
    simp only [readerToil]
    omega
  case heed hl hf hj =>
    have := Link.length_inbound_of_read hf
    obtain ⟨hr, hk⟩ := c.reader.stays_after d.exchange.supply.now hj
    simp only [readerToil, hr, hk, Link.inbound_goOn]
    omega

end Reads
end Session

namespace Service

-- The frame that the reader of session `i` takes by a step of its own.
def Move.frame? (s : Service) (i : Nat) : Move → Option Frame
  | read => s.sessions[i]?.bind (·.link.read.1.frame?)
  | _    => none

-- The frames that the reader of session `i` takes by a step, and when.
def Step.taken {s t : Service} (i : Nat) : Step s t → List (Nat × Frame)
  | session j m _ => if j = i then ((m.frame? s i).map (s.now, ·)).toList else []
  | _             => []

-- The reader of a session has nothing to do for now, and it is not the exchange that keeps it waiting.
structure Pauses (s : Service) (i : Nat) : Prop where
  idle : ∀ m : Move, m.IsReading → m.apply? s i = none
  room : ∀ c, s.sessions[i]? = some c → ∀ n, c.reader.courier = .waiting n → s.desk.HasRoom n ∨ s.desk.stopped

-- At no instant before a point in time is there anything to do for the reader of a session.
def Bides (s : Service) (i time : Nat) : Prop :=
  ∀ now, s.now ≤ now → now < time → (s.passTo now).Pauses i

-- What may become of a service as long as the reader of session `i` does at each instant what it can do, with the
-- frames that it takes meanwhile.  Whatever else happens, happens whenever it likes.
inductive Attends (s : Service) (i : Nat) : List (Nat × Frame) → Service → Prop
  | refl : Attends s i [] s
  | step {taken t u} (h : Attends s i taken t) (st : Step t u) (hst : t.Bides i u.now) :
      Attends s i (taken ++ st.taken i) u

-- How far a session has got whose reader began at a time, and has taken these frames then.
structure Listens (s : Service) (i start : Nat) (taken : List (Nat × Frame)) (c : Session) : Prop where
  session  : s.sessions[i]? = some c
  served   : 1 ≤ c.stage.lifecycle.rank
  deadline : c.reader.deadline = c.limits.silentSince start taken + c.limits.pongWait
  inTime   : c.reader.running = true → s.now ≤ c.reader.deadline
  punctual : c.limits.IsPunctual start taken

variable {s t u : Service} {i start time : Nat} {c c' : Session} {taken : List (Nat × Frame)} {left : List Errand}
  {m : Move} {ms : List Move}

theorem reads_courier (h : s.stepCourier i = some t) (hi : s.sessions[i]? = some c) :
    ∃ c', t.sessions[i]? = some c' ∧ c.Reads s.desk none c' := by
  have ⟨hlt, _⟩ := List.getElem?_eq_some_iff.mp hi
  obtain ⟨c₀, hc, h⟩ := Option.bind_eq_some_iff.mp h
  cases Option.some.inj (hi.symm.trans hc)
  obtain ⟨⟨news, u⟩, hf, h⟩ := Option.bind_eq_some_iff.mp h
  have hset (c' : Session) : (u.setSession i c').sessions[i]? = some c' := by
    rw [setSession, (forward_cases hf).1, List.getElem?_set_self hlt]
  obtain ⟨_, ⟨k, new, rfl, hk, _⟩ | ⟨r, rfl, hk, _⟩⟩ := forward_cases hf
  case inl =>
    cases h
    exact ⟨_, hset _, .bring hk⟩
  case inr =>
    refine ⟨c.rebuff, ?_, .retreat hk⟩
    unfold Session.rebuff
    simp only at h
    split at h
    case isTrue hr =>
      cases h
      rw [if_pos hr]
      exact hset _
    case isFalse hr =>
      cases h
      rw [if_neg hr]
      exact hset _

theorem reads_read (h : s.stepRead i = some t) (hi : s.sessions[i]? = some c) :
    ∃ c', t.sessions[i]? = some c' ∧ c.Reads s.desk c.link.read.1.frame? c' := by
  have ⟨hlt, _⟩ := List.getElem?_eq_some_iff.mp hi
  obtain ⟨c₀, hc, h⟩ := Option.bind_eq_some_iff.mp h
  cases Option.some.inj (hi.symm.trans hc)
  have hset (c₀ c₁ : Session) : ((s.setSession i c₀).setSession i c₁).sessions[i]? = some c₁ := by
    simp [setSession, hlt]
  split at h
  case isTrue => cases h
  case isFalse hl =>
    have hl := Decidable.not_not.mp hl
    simp only at h
    split at h
    case h_2 hr | h_3 hr =>
      cases h
      exact ⟨_, List.getElem?_set_self hlt, hr ▸ .stop hl⟩
    case h_4 => cases h
    case h_1 f link hf =>
      have hf' : c.link.read.1.frame? = some f := congrArg (·.1.frame?) hf
      rw [hf']
      split at h
      case h_1 p hj =>
        cases h
        have ha : c.reader.after c.limits s.now f = c.reader := by simp only [Session.Reader.after, hj]
        rw [ha]
        exact ⟨_, sessions_react ▸ List.getElem?_set_self hlt, .hear _ _ hl hf hj⟩
      case h_2 hj =>
        cases h
        have ha : c.reader.after c.limits s.now f = c.reader.stop := by simp only [Session.Reader.after, hj]
        rw [ha]
        exact ⟨_, hset .., .reject hl hf hj⟩
      case h_3 hj =>
        cases h
        exact ⟨_, hset .., .heed hl hf (.inl hj)⟩
      case h_4 hj =>
        cases h
        exact ⟨_, hset .., .heed hl hf (.inr hj)⟩

theorem Move.reads (h : m.apply? s i = some t) (hm : m.IsReading) (hi : s.sessions[i]? = some c) :
    ∃ c', t.sessions[i]? = some c' ∧ c.Reads s.desk (m.frame? s i) c' := by
  have ⟨hlt, _⟩ := List.getElem?_eq_some_iff.mp hi
  cases m
  case serve | write | refuse | finish => exact hm.elim
  case courier => exact reads_courier h hi
  case read =>
    have hf : Move.frame? s i .read = c.link.read.1.frame? := by rw [frame?, hi, Option.bind_some]
    exact hf ▸ reads_read h hi
  case notice | expire =>
    obtain ⟨c₀, hc, h⟩ := Option.bind_eq_some_iff.mp h
    cases Option.some.inj (hi.symm.trans hc)
    split at h
    case isFalse => cases h
    case isTrue hl =>
      cases h
      exact ⟨_, List.getElem?_set_self hlt, .stop hl.1⟩

-- A session is served, or was.
theorem ne_of_served (h : 1 ≤ c.stage.lifecycle.rank) : c.stage ≠ .registering ∧ c.stage ≠ .admitted := by
  constructor <;> intro hs <;> rw [hs] at h <;> exact absurd h (by decide)

-- By any step, the reader of a session does something, or stays as it is and takes nothing.
theorem Step.reader_cases (st : Step s t) (hp : s.Proper left) (hi : s.sessions[i]? = some c)
    (hs : 1 ≤ c.stage.lifecycle.rank) :
    ∃ c', t.sessions[i]? = some c' ∧
      (c'.reader = c.reader ∧ st.taken i = [] ∨
        ∃ f?, c.Reads s.desk f? c' ∧ st.taken i = (f?.map (s.now, ·)).toList ∧ t.now = s.now) := by
  obtain ⟨hr, ha⟩ := ne_of_served hs
  by_cases hby : st.IsBy i
  case neg =>
    obtain ⟨c', hi', hc⟩ := st.suffers hby hp hi
    obtain ⟨_, rfl⟩ := hc.exists_link hr
    refine ⟨_, hi', .inl ⟨rfl, ?_⟩⟩
    cases st
    case session j m _ => exact if_neg hby
    all_goals rfl
  case pos =>
    cases st
    case session j m hm =>
      obtain rfl : j = i := hby
      have htaken : (Step.session j m hm).taken j = ((m.frame? s j).map (s.now, ·)).toList := if_pos rfl
      by_cases hread : m.IsReading
      case pos =>
        obtain ⟨c', hi', hc⟩ := Move.reads hm hread hi
        obtain ⟨_, _, _, hstr⟩ := Strides.of_move hm
        exact ⟨c', hi', .inr ⟨_, hc, htaken, hstr.now⟩⟩
      case neg =>
        obtain ⟨c', hi', hc⟩ := hasReader_of_not_reading hm hread hi ha
        refine ⟨c', hi', .inl ⟨hc, htaken.trans ?_⟩⟩
        cases m
        case serve | write | refuse | finish => rfl
        case courier | notice | read | expire => exact absurd trivial hread
    all_goals exact hby.elim

theorem isSome_stepOverdue_iff (hi : s.sessions[i]? = some c) (hl : c.reader.IsListening)
    (hn : c.link.read.1 = .nothing) : (s.stepOverdue i).isSome ↔ c.reader.IsOverdue s.now := by
  by_cases ho : c.reader.IsOverdue s.now <;> simp [stepOverdue, hi, hl, hn, ho]

-- A reader that has nothing to do is not late.
theorem Pauses.now_lt (h : s.Pauses i) (hi : s.sessions[i]? = some c) (hr : c.reader.running = true) :
    s.now < c.reader.deadline := by
  have hl : c.reader.IsListening :=
    ⟨hr, courier_eq_of_stepCourier hi (h.idle .courier trivial) (h.room c hi)⟩
  have hread : s.stepRead i = none := h.idle .read trivial
  have hover : s.stepOverdue i = none := h.idle .expire trivial
  have hn : c.link.read.1 = .nothing := by
    simp only [stepRead, hi, Option.bind_eq_bind, Option.bind_some, hl, not_true, if_false] at hread
    split at hread
    case h_1 => split at hread <;> cases hread
    case h_2 | h_3 => cases hread
    case h_4 hf => exact congrArg Prod.fst hf
  refine Nat.not_le.mp fun hle => ?_
  have hover' := (isSome_stepOverdue_iff hi hl hn).mpr hle
  rw [hover] at hover'
  cases hover'

-- Time does not pass a reader that is at work by.
theorem Bides.le_deadline (h : s.Bides i time) (hi : s.sessions[i]? = some c) (hr : c.reader.running = true)
    (hle : s.now ≤ c.reader.deadline) : time ≤ c.reader.deadline := by
  refine Nat.not_lt.mp fun hlt => ?_
  have hnow : (s.passTo c.reader.deadline).now = c.reader.deadline := Nat.max_eq_right hle
  have hd := (h c.reader.deadline hle hlt).now_lt (c := c) hi hr
  rw [hnow] at hd
  exact Nat.lt_irrefl _ hd

-- It takes no time to wait for nothing.
theorem Bides.of_le (h : time ≤ s.now) : s.Bides i time :=
  fun _ hle hlt => absurd (Nat.lt_of_le_of_lt hle hlt) (Nat.not_lt.mpr h)

theorem Attends.pass (h : s.Attends i taken t) (hle : t.now ≤ time) (hb : t.Bides i time) :
    s.Attends i taken (t.passTo time) := by
  have hnow : (t.passTo time).now = time := Nat.max_eq_right hle
  exact List.append_nil taken ▸ .step h (.pass time) (hnow.symm ▸ hb)

-- A reader has nothing to do until a frame comes, or it is late, or if it has stopped.
theorem bides_of_idle (hi : s.sessions[i]? = some c) (hk : c.reader.courier = .idle)
    (hr : c.reader.running = true → (s.mailbox c.mailbox).cancelledAt = none ∧ c.link.read.1 = .nothing ∧
      time ≤ c.reader.deadline) : s.Bides i time := by
  intro now hle hlt
  have hi' : (s.passTo now).sessions[i]? = some c := hi
  have hnow : (s.passTo now).now = now := Nat.max_eq_right hle
  refine ⟨fun m hread => ?idle, fun c' hc n hn => ?room⟩
  case room =>
    cases Option.some.inj (hi.symm.trans hc)
    exact nomatch hk.symm.trans hn
  case idle =>
    cases m
    case serve | write | refuse | finish => exact hread.elim
    case courier =>
      change (s.passTo now).stepCourier i = none
      simp [stepCourier, hi', hk, forward]
    case notice =>
      change (s.passTo now).stepCancelled i = none
      have hn : ¬ (c.reader.IsListening ∧ ((s.passTo now).mailbox c.mailbox).cancelledAt.isSome) := by
        rintro ⟨hl, hm⟩
        rw [show ((s.passTo now).mailbox c.mailbox).cancelledAt = none from (hr hl.1).1] at hm
        cases hm
      simp only [stepCancelled, hi', Option.bind_eq_bind, Option.bind_some, if_neg hn]
    case read =>
      change (s.passTo now).stepRead i = none
      simp only [stepRead, hi', Option.bind_eq_bind, Option.bind_some]
      split
      case isTrue => rfl
      case isFalse hl =>
        obtain ⟨_, hn, _⟩ := hr (Decidable.not_not.mp hl).1
        split
        case h_4 => rfl
        all_goals rename c.link.read = _ => hf; rw [hf] at hn; cases hn
    case expire =>
      change (s.passTo now).stepOverdue i = none
      have hn : ¬ (c.reader.IsListening ∧ c.link.read.1 = .nothing ∧ c.reader.IsOverdue now) := by
        rintro ⟨hl, _, ho⟩
        exact Nat.not_le.mpr hlt (Nat.le_trans (hr hl.1).2.2 ho)
      simp only [stepOverdue, hi', hnow, Option.bind_eq_bind, Option.bind_some, if_neg hn]

theorem Listens.step (h : s.Listens i start taken c) (st : Step s t) (hst : s.Bides i t.now) (hp : s.Proper left) :
    ∃ c', t.Listens i start (taken ++ st.taken i) c' ∧ c'.limits = c.limits := by
  obtain ⟨c', hi, hc⟩ := st.reader_cases hp h.session h.served
  obtain ⟨_, hi', hb⟩ := st.befalls hp h.session
  cases Option.some.inj (hi.symm.trans hi')
  have hl := hb.isSame.limits
  obtain ⟨_, hi'', _, hrank⟩ := (st.proper hp).2.sessions i c h.session
  cases Option.some.inj (hi.symm.trans hi'')
  have hserved := Nat.le_trans h.served hrank
  obtain ⟨hr, hnone⟩ | ⟨f?, hread, hsome, hnow⟩ := hc
  case inl =>
    rw [hnone, List.append_nil]
    refine ⟨c', ⟨hi, hserved, ?deadline, fun hrun => ?inTime, ?punctual⟩, hl⟩
    case deadline => rw [hr, hl, h.deadline]
    case inTime =>
      rw [hr] at hrun ⊢
      exact hst.le_deadline h.session hrun (h.inTime hrun)
    case punctual => exact hl ▸ h.punctual
  case inr =>
    rw [hsome]
    refine ⟨c', ⟨hi, hserved, ?deadline, fun hrun => ?inTime, ?punctual⟩, hl⟩
    case deadline =>
      rw [hl]
      exact hread.deadline h.deadline
    case inTime =>
      rw [hnow]
      exact hread.now_le (h.inTime (hread.running hrun))
    case punctual =>
      rw [hl]
      cases f?
      case none => exact (List.append_nil taken).symm ▸ h.punctual
      case some f => exact h.punctual.concat (h.deadline ▸ h.inTime hread.isListening.1)

theorem Attends.proper (later : s.Attends i taken t) (hp : s.Proper left) : ∃ new, t.Proper (left ++ new) := by
  induction later
  case refl => exact ⟨[], (List.append_nil left).symm ▸ hp⟩
  case step st _ hi =>
    obtain ⟨_, hp⟩ := hi
    exact ⟨_, List.append_assoc .. ▸ (st.proper hp).1⟩

theorem Listens.attends {more : List (Nat × Frame)} (h : s.Listens i start taken c) (later : s.Attends i more t)
    (hp : s.Proper left) : ∃ c', t.Listens i start (taken ++ more) c' ∧ c'.limits = c.limits := by
  induction later
  case refl => exact ⟨c, (List.append_nil taken).symm ▸ h, rfl⟩
  case step later st hst hi =>
    obtain ⟨_, hp⟩ := later.proper hp
    obtain ⟨c₁, h₁, hl₁⟩ := hi
    obtain ⟨c₂, h₂, hl₂⟩ := h₁.step st hst hp
    exact ⟨c₂, List.append_assoc .. ▸ h₂, hl₂.trans hl₁⟩

-- A reader that begins has taken nothing yet.
theorem listens_serve (hi : s.sessions[i]? = some c) (hs : s.stepServe i = some t) :
    t.Listens i s.now [] (c.serve s.now) := by
  have ⟨hlt, _⟩ := List.getElem?_eq_some_iff.mp hi
  obtain ⟨c₀, hc, hs⟩ := Option.bind_eq_some_iff.mp hs
  cases Option.some.inj (hi.symm.trans hc)
  split at hs
  case isFalse => cases hs
  case isTrue =>
    cases hs
    exact
      { session  := List.getElem?_set_self hlt
        served   := Nat.le_refl 1
        deadline := rfl
        inTime   := fun _ => Nat.le_add_right ..
        punctual := by simp [Session.Limits.IsPunctual] }

-- A reader comes to rest if it is left to itself.
theorem length_le_readerToil (hi : s.sessions[i]? = some c) (hms : ∀ m ∈ ms, m.IsReading)
    (h : s.moves? i ms = some t) : ms.length ≤ c.readerToil := by
  induction ms generalizing s c
  case nil => exact Nat.zero_le _
  case cons m ms hind =>
    rw [moves?, List.foldlM_cons] at h
    obtain ⟨u, hm, h⟩ := Option.bind_eq_some_iff.mp h
    obtain ⟨c', hi', hc⟩ := Move.reads hm (hms m (.head _)) hi
    exact Nat.lt_of_le_of_lt (hind hi' (fun m hm => hms m (.tail _ hm)) h) hc.toil_lt

-- Wherever a run leads in which a session begins to be served, if its reader then does at each instant what it can do,
-- and the exchange does not keep it waiting: while there is nothing to take, it stops of itself if and only if its
-- client has been silent for too long, which only a pong puts off.  It has stopped once that time has passed, and when
-- it rests at that time, to which it comes after only so many steps of its own.  It takes no frame after that time.
theorem Run.hangs_up_in_time {farewell : String} {capacity : Nat} (run : Run (.new farewell capacity) s)
    (hi : s.sessions[i]? = some c) (hs : s.stepServe i = some t) (later : t.Attends i taken u) :
    ∃ c', u.sessions[i]? = some c' ∧ c'.limits = c.limits ∧
      let due := c.limits.silentSince s.now taken + c.limits.pongWait
      (c'.reader.IsListening → c'.link.read.1 = .nothing → ((u.stepOverdue i).isSome ↔ due ≤ u.now)) ∧
      (due < u.now → c'.reader.running = false) ∧
      (due ≤ u.now → u.Pauses i → c'.reader.running = false) ∧
      (∀ ms v, (∀ m ∈ ms, m.IsReading) → u.moves? i ms = some v → ms.length ≤ c'.readerToil) ∧
      c.limits.IsPunctual s.now taken := by
  obtain ⟨hp, _⟩ := run.proper proper_new
  obtain ⟨hp, _⟩ := (Step.session i .serve hs).proper hp
  obtain ⟨c', h, hl⟩ := (listens_serve hi hs).attends later hp
  change c'.limits = c.limits at hl
  have hdue := h.deadline
  have hpunctual := h.punctual
  rw [List.nil_append, hl] at hdue hpunctual
  refine ⟨c', h.session, hl, fun hlisten hn => ?overdue, fun hlt => ?passed, fun hle hrest => ?rests,
    fun ms v hms hv => length_le_readerToil h.session hms hv, hpunctual⟩
  case overdue => rw [isSome_stepOverdue_iff h.session hlisten hn, Session.Reader.IsOverdue, hdue]
  case passed =>
    refine Bool.eq_false_iff.mpr fun hrun => ?_
    exact Nat.not_lt.mpr (h.inTime hrun) (hdue ▸ hlt)
  case rests =>
    refine Bool.eq_false_iff.mpr fun hrun => ?_
    exact Nat.not_le.mpr (hrest.now_lt h.session hrun) (hdue ▸ hle)

-- Ann's client sends a pong, and then a ping, and then nothing.
theorem Run.hangs_up_in_time_ann :
    ∃ (s t u : Service) (_ : Run (.new "bye") s) (c c' : Session), s.sessions[0]? = some c ∧
      c.limits.pongWait = millis 5 ∧ s.now = 0 ∧ s.stepServe 0 = some t ∧
      t.Attends 0 [(millis 3, .pong []), (millis 6, .ping [])] u ∧ u.now = millis 9 ∧ u.sessions[0]? = some c' ∧
      c'.reader.running = false := by
  -- Nobody computes with so many nanoseconds.
  obtain ⟨wait, three, six, nine, ⟨hwait, hthree, hsix, hnine⟩, hle₃, hle₆, hle₈, hlt⟩ :
      ∃ wait three six nine, (wait = millis 5 ∧ three = millis 3 ∧ six = millis 6 ∧ nine = millis 9) ∧
        three ≤ 0 + wait ∧ three ≤ six ∧ six ≤ three + wait ∧ three + wait < nine :=
    ⟨_, _, _, _, ⟨rfl, rfl, rfl, rfl⟩, by decide⟩
  let limits : Session.Limits := { Session.Limits.default with pongWait := wait }
  let ann : Session := .new ⟨1⟩ ⟨7, "ann"⟩ limits 0 (.new 8)
  let service (x : Exchange) (handled : Nat) (backlog : List Errand) (c : Session) : Service :=
    ⟨⟨x, Desk.defaultCapacity, backlog, handled, none, false, "bye"⟩, [c], 1, true, []⟩
  let registration : Command := .register ⟨⟨1⟩, ⟨7, "ann"⟩, 0⟩
  let x := Exchange.empty.openMailbox 0 256
  let y := x.perform .ascending registration
  have hy : x.handle .ascending registration = y := Exchange.handle_eq_perform (by decide)
  -- She is admitted.
  let s₁ := service x 0 [⟨registration, some (.session 0)⟩] ann
  have hnew : IsNew (.new "bye") ⟨1⟩ := ⟨by decide, List.forall_mem_nil _, List.forall_mem_nil _⟩
  let run₁ : Run (.new "bye") s₁ := .step .refl (.connect ⟨1⟩ ⟨7, "ann"⟩ limits (.new 8) hnew)
  have hd : s₁.stepDesk .ascending = some (service y 1 [] ann.welcome) := hy ▸ rfl
  obtain ⟨⟨roster, boxes, doomed, deliveries, evictions, ⟨issued, now⟩⟩, run, hnow, hm⟩ :
      ∃ (z : Exchange) (_ : Run (.new "bye") (service z 1 [] ann.welcome)),
        z.supply.now = 0 ∧ ((service z 1 [] ann.welcome).mailbox 0).cancelledAt = none :=
    ⟨y, .step run₁ (.desk .ascending hd), rfl, rfl⟩
  cases hnow
  -- Her reader begins at 0, takes the pong at 3 and the ping at 6, and waits until 8.
  let at_ (time : Nat) (backlog : List Errand) (c : Session) : Service :=
    service ⟨roster, boxes, doomed, deliveries, evictions, ⟨issued, time⟩⟩ 1 backlog c
  have hpass {backlog c a b} (h : a ≤ b) : (at_ a backlog c).passTo b = at_ b backlog c :=
    congrArg (fun time => at_ time backlog c) (Nat.max_eq_right h)
  let send (f : Frame) (k : Session.Link) : Session.Link := { k with inbound := k.inbound.send f }
  let c := ann.welcome.serve 0
  let c₁ : Session := { c with link := send (.pong []) c.link }
  let c₂ : Session := { c with reader := { c.reader with deadline := three + wait } }
  let c₃ : Session := { c₂ with link := send (.ping []) c₂.link }
  let s := at_ 0 [] c
  let taken : List (Nat × Frame) := [(three, .pong [])]
  have p₁ : s.Attends 0 [] (at_ three [] c) :=
    hpass (Nat.zero_le _) ▸ Attends.refl.pass (Nat.zero_le _) (bides_of_idle (c := c) rfl rfl fun _ => ⟨hm, rfl, hle₃⟩)
  have p₂ : s.Attends 0 [] (at_ three [] c₁) := .step p₁ (.link 0 (send (.pong []))) (.of_le (Nat.le_refl _))
  have p₃ : s.Attends 0 taken (at_ three [] c₂) := .step p₂ (.session 0 .read rfl) (.of_le (Nat.le_refl _))
  have p₄ : s.Attends 0 taken (at_ six [] c₂) :=
    hpass hle₆ ▸ p₃.pass hle₆ (bides_of_idle (c := c₂) rfl rfl fun _ => ⟨hm, rfl, hle₈⟩)
  have p₅ : s.Attends 0 taken (at_ six [] c₃) := .step p₄ (.link 0 (send (.ping []))) (.of_le (Nat.le_refl _))
  have p₆ : s.Attends 0 (taken ++ [(six, .ping [])]) (at_ six [] c₂) :=
    .step p₅ (.session 0 .read rfl) (.of_le (Nat.le_refl _))
  have p₇ : s.Attends 0 (taken ++ [(six, .ping [])]) (at_ (three + wait) [] c₂) :=
    hpass hle₈ ▸ p₆.pass hle₈ (bides_of_idle (c := c₂) rfl rfl fun _ => ⟨hm, rfl, Nat.le_refl _⟩)
  -- It stops, and has her connection removed.
  let c₄ := c₂.readerDone
  let c₅ := c₄.sendFromReader (.waiting 1)
  let c₆ := c₄.sendFromReader .idle
  have hoverdue : (at_ (three + wait) [] c₂).stepOverdue 0 = some (at_ (three + wait) [] c₄) :=
    if_pos ⟨⟨rfl, rfl⟩, rfl, Nat.le_refl _⟩
  have p₈ : s.Attends 0 (taken ++ [(six, .ping [])]) (at_ (three + wait) [] c₄) :=
    .step p₇ (.session 0 .expire hoverdue) (.of_le (Nat.le_refl _))
  have p₉ : s.Attends 0 (taken ++ [(six, .ping [])]) (at_ (three + wait) [ann.removal] c₅) :=
    .step p₈ (.session 0 .courier rfl) (.of_le (Nat.le_refl _))
  have p₁₀ : s.Attends 0 (taken ++ [(six, .ping [])]) (at_ (three + wait) [ann.removal] c₆) :=
    .step p₉ (.session 0 .courier rfl) (.of_le (Nat.le_refl _))
  have p₁₁ : s.Attends 0 (taken ++ [(six, .ping [])]) (at_ nine [ann.removal] c₆) :=
    hpass (Nat.le_of_lt hlt) ▸ p₁₀.pass (Nat.le_of_lt hlt) (bides_of_idle (c := c₆) rfl rfl nofun)
  obtain ⟨c', hc', _, _, hstopped, _⟩ := run.hangs_up_in_time (i := 0) rfl rfl p₁₁
  have htaken : taken ++ [(six, .ping [])] = [(millis 3, .pong []), (millis 6, .ping [])] := by
    rw [← hthree, ← hsix]
    rfl
  exact ⟨_, s, at_ nine [ann.removal] c₆, run, ann.welcome, c', rfl, hwait, rfl, rfl, htaken ▸ p₁₁, hnine, hc',
    hstopped hlt⟩

end Service
end Parley
