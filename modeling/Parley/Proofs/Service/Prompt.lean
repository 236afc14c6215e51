import Parley.Proofs.Service.Steady
import Parley.Proofs.Service.Strides

namespace Parley

open Std

-- What is so of a mailbox whatever the exchange does with it.
structure Mailbox.Stands (P : Mailbox → Prop) : Prop where
  put     : ∀ m n, P m → P (m.put n)
  cancel  : ∀ m now, P m → P (m.cancel now)
  release : ∀ m, P m → P m.release

theorem Mailbox.stands_true : Stands fun _ => True :=
  ⟨fun _ _ => id, fun _ _ => id, fun _ => id⟩

theorem Mailbox.stands_isCancelled : Stands fun m => m.cancelledAt.isSome :=
  ⟨fun _ _ h => h, fun _ _ _ => isSome_cancel, fun _ h => h⟩

theorem Mailbox.stands_cancelledAt {t : Nat} : Stands fun m => m.cancelledAt = some t :=
  ⟨fun _ _ h => h, fun _ _ => cancelledAt_cancel, fun _ h => h⟩

-- There is a mailbox of a number, and something is so of it.
def Exchange.Has (x : Exchange) (k : Nat) (P : Mailbox → Prop) : Prop :=
  ∃ m, x.mailboxes[k]? = some m ∧ P m

-- A connection was told to stop, and when.
abbrev Exchange.CancelledAt (x : Exchange) (k t : Nat) : Prop :=
  x.Has k fun m => m.cancelledAt = some t

namespace Exchange

variable {x : Exchange} {k j t now : Nat} {f : Mailbox → Mailbox} {act : Act} {as : List Act} {l : Listing}
  {c : Command} {message : String} {P : Mailbox → Prop}

theorem Has.changeMailbox (h : x.Has k P) (hf : ∀ m : Mailbox, j = k → P m → P (f m)) :
    (x.changeMailbox j f).Has k P := by
  have ⟨m, hm, hp⟩ := h
  by_cases hj : j = k
  case pos => exact ⟨f m, by rw [getElem?_changeMailbox, if_pos hj, hm, Option.map_some], hf m hj hp⟩
  case neg => exact ⟨m, by rw [getElem?_changeMailbox, if_neg hj, hm], hp⟩

section Stands

variable (hP : Mailbox.Stands P)

include hP

theorem Has.apply (h : x.Has k P) : (act.apply x).Has k P := by
  cases act
  case offer own n id =>
    cases he : x.roster.entry? id
    case none => rwa [Act.apply, offer_of_not_isLive (Roster.not_isLive_iff.mpr he)]
    case some e =>
      rw [Act.apply, offer_eq he]
      exact h.changeMailbox fun m _ => hP.put m n
  case retire id =>
    simp only [Act.apply]
    split
    case h_1 => exact h
    case h_2 => exact h.changeMailbox fun m _ hp => hP.release _ (hP.cancel m _ hp)
  case enter r =>
    simp only [Act.apply, enter]
    split
    case h_1 => exact h.changeMailbox fun m _ => hP.release m
    case h_2 => exact h
  case issue | join | leave | strike => exact h

theorem Has.replay (h : x.Has k P) (as : List Act) : (x.replay as).Has k P := by
  induction as generalizing x
  case nil => exact h
  case cons hi => exact hi (h.apply hP)

theorem Has.closeAll (h : x.Has k P) : (x.closeAll l message).Has k P := by
  rw [closeAll_eq]
  have ⟨m, hm, hp⟩ := h.replay hP (Acts.closeAll x l message)
  simp only [Has, getElem?_dismiss, hm]
  split
  case isTrue => exact ⟨_, rfl, hP.release _ (hP.cancel m _ hp)⟩
  case isFalse => exact ⟨m, rfl, hp⟩

theorem Has.forgoAll {cs : List Command} (h : x.Has k P) : (x.forgoAll cs).Has k P := by
  induction cs generalizing x
  case nil => exact h
  case cons c cs hi =>
    refine hi ?_
    cases c
    case register => exact h.changeMailbox fun m _ => hP.release m
    all_goals exact h

end Stands

-- What an exchange does takes no time.
theorem now_apply : (act.apply x).supply.now = x.supply.now := by
  cases act
  case offer => rw [Act.apply, offer_supply]
  case retire id =>
    simp only [Act.apply]
    split <;> rfl
  case enter r =>
    simp only [Act.apply, enter]
    split <;> rfl
  case issue | join | leave | strike => rfl

theorem now_replay : (x.replay as).supply.now = x.supply.now := by
  induction as generalizing x
  case nil => rfl
  case cons hi => exact hi.trans now_apply

end Exchange

-- The number of an errand that a session waits with at the desk.
def Session.Awaits (c : Session) (n : Nat) : Prop :=
  c.reader.courier = .waiting n ∨ c.writer.phase = .leaving (.waiting n)

namespace Service

-- A session has nothing to do for now, and it is not the exchange that keeps it waiting.
structure Rests (s : Service) (i : Nat) : Prop where
  idle : ∀ m : Move, m.apply? s i = none
  room : ∀ c, s.sessions[i]? = some c → ∀ n, c.Awaits n → s.desk.HasRoom n ∨ s.desk.stopped

-- Time may pass up to a point, as far as a session is concerned: no timer of its own is due before.
structure Lingers (s : Service) (i time : Nat) : Prop extends s.Rests i where
  timers : ∀ c, s.sessions[i]? = some c → ∀ due ∈ c.timers (s.mailbox c.mailbox), s.now < due → time ≤ due

-- Someone else changes a mailbox in some way.
def Step.Tampers {s t : Service} (k : Nat) : Step s t → Prop
  | mailbox j _ => j = k
  | _ => False

structure Step.IsPrompt {s t : Service} (i : Nat) (st : Step s t) : Prop where
  lingers : s.now < t.now → s.Lingers i t.now
  own     : ∀ c, s.sessions[i]? = some c → ¬ st.Tampers c.mailbox

-- What may become of a service as long as session `i` is prompt: it takes its steps as soon as it can, and time
-- passes only while it has none to take and no timer of its own is due.  Whatever else happens, happens whenever
-- it likes.
inductive Prompt (s : Service) (i : Nat) : Service → Prop
  | refl : Prompt s i s
  | step {t u} (h : Prompt s i t) (st : Step t u) (hst : st.IsPrompt i) : Prompt s i u

variable {s t u : Service} {i j k : Nat} {c c' : Session} {m m' : Mailbox} {f : Mailbox → Mailbox} {v : ConnectionId}
  {left new : List Errand} {l : Listing} {t₀ now : Nat}

theorem Prompt.proper (h : s.Prompt i t) (hp : s.Proper left) : ∃ later, t.Proper (left ++ later) := by
  induction h
  case refl => exact ⟨[], (List.append_nil left).symm ▸ hp⟩
  case step st _ hi =>
    have ⟨later, hp⟩ := hi
    exact ⟨_, List.append_assoc .. ▸ (st.proper hp).1⟩

theorem lingers_of_idle {time : Nat} (hi : s.sessions[i]? = some c) (hidle : ∀ m : Move, m.apply? s i = none)
    (hn : ∀ n, ¬ c.Awaits n) (ht : ∀ due ∈ c.timers (s.mailbox c.mailbox), time ≤ due) : s.Lingers i time := by
  refine ⟨⟨hidle, fun c' hc n hn' => ?_⟩, fun c' hc due hm _ => ?_⟩ <;> cases Option.some.inj (hi.symm.trans hc)
  · exact absurd hn' (hn n)
  · exact ht due hm

-- A session may take a step at any time.
theorem Prompt.move {m : Move} (h : s.Prompt i t) (hm : m.apply? t i = some u) : s.Prompt i u := by
  have ⟨_, _, _, hs⟩ := Strides.of_move hm
  exact .step h (.session i m hm) ⟨fun hlt => absurd hs.now.symm (Nat.ne_of_lt hlt), fun _ _ => id⟩

theorem Prompt.pass {time : Nat} (h : s.Prompt i t) (hle : t.now ≤ time) (hl : t.Lingers i time) :
    s.Prompt i (t.passTo time) := by
  have hnow : (t.passTo time).now = time := Nat.max_eq_right hle
  exact .step h (.pass time) ⟨fun _ => hnow.symm ▸ hl, fun _ _ => id⟩

-- The mailboxes of sessions are among those that were opened.
def IsHoused (s : Service) : Prop :=
  ∀ c ∈ s.sessions, c.mailbox < s.mailboxes

theorem cancelledAt_iff : s.desk.exchange.CancelledAt k t₀ ↔ (s.mailbox k).cancelledAt = some t₀ := by
  simp only [Exchange.CancelledAt, Exchange.Has, mailbox]
  cases s.desk.exchange.mailboxes[k]? <;> simp [Mailbox.new]

-- What lasts: mailboxes that were opened, the time that has passed, and what was so of the mailbox of a number.
structure Outlasts (P : Mailbox → Prop) (k : Nat) (s t : Service) : Prop where
  opened : s.mailboxes ≤ t.mailboxes
  now    : s.now ≤ t.now
  has    : k < s.mailboxes → s.desk.exchange.Has k P → t.desk.exchange.Has k P

namespace Outlasts

variable {P : Mailbox → Prop}

theorem refl : Outlasts P k s s :=
  ⟨Nat.le_refl _, Nat.le_refl _, fun _ h => h⟩

theorem trans (h : Outlasts P k s t) (h' : Outlasts P k t u) : Outlasts P k s u :=
  ⟨Nat.le_trans h.opened h'.opened, Nat.le_trans h.now h'.now,
    fun hk hp => h'.has (Nat.lt_of_lt_of_le hk h.opened) (h.has hk hp)⟩

theorem of_exchange_eq (ho : t.mailboxes = s.mailboxes) (hx : t.desk.exchange = s.desk.exchange) : Outlasts P k s t :=
  ⟨Nat.le_of_eq ho.symm, Nat.le_of_eq (congrArg (·.supply.now) hx).symm, fun _ h => hx ▸ h⟩

theorem changeMailbox (hf : ∀ m : Mailbox, j = k → P m → P (f m)) : Outlasts P k s (s.changeMailbox j f) :=
  ⟨Nat.le_refl _, Nat.le_refl _, fun _ h => h.changeMailbox hf⟩

theorem openMailbox {capacity : Nat} : Outlasts P k s (s.openMailbox capacity).2 := by
  refine ⟨Nat.le_succ _, Nat.le_refl _, fun hk hp => ?_⟩
  obtain ⟨m, hm, hp⟩ := hp
  refine ⟨m, ?_, hp⟩
  simp [Service.openMailbox, changeExchange, Exchange.openMailbox, ExtTreeMap.getElem?_insert, Nat.ne_of_gt hk, hm]

theorem foldl {α : Type} {step : Service → α → Service} (hs : ∀ s a, Outlasts P k s (step s a)) (as : List α) :
    Outlasts P k s (as.foldl step s) := by
  induction as generalizing s
  case nil => exact .refl
  case cons a _ hi => exact (hs s a).trans hi

theorem strides (hs : Strides s t i c c' m') (hp : c.mailbox = k → P (s.mailbox k) → P m') : Outlasts P k s t := by
  refine ⟨Nat.le_of_eq hs.opened.symm, Nat.le_of_eq hs.now.symm, fun _ ⟨m, hm, h⟩ => ?_⟩
  rw [Exchange.Has, hs.mailboxes, hm]
  split
  case isFalse => exact ⟨m, rfl, h⟩
  case isTrue hk => exact ⟨m', rfl, hp hk (mailbox_eq hm ▸ h)⟩

section Stands

variable (hP : Mailbox.Stands P)

include hP

theorem refuseSession {r : Refusal} : Outlasts P k s (s.refuseSession i c r) :=
  have h : Outlasts P k s (s.changeMailbox c.mailbox Mailbox.release) := changeMailbox fun m _ => hP.release m
  ⟨h.opened, h.now, h.has⟩

theorem connect {identity : Identity} {limits : Session.Limits} {link : Session.Link} :
    Outlasts P k s (s.connect v identity limits link) := by
  let u : Service :=
    { (s.openMailbox limits.outboundCapacity).2 with
      sessions := s.sessions ++ [.new v identity limits s.mailboxes link] }
  have hopen : Outlasts P k s u := openMailbox.trans (.of_exchange_eq rfl rfl)
  refine hopen.trans ?_
  simp only [Service.connect]
  split
  case isTrue => exact .of_exchange_eq rfl rfl
  case isFalse =>
    split
    case h_1 ht => exact .of_exchange_eq (opened_submit ht) (exchange_submit ht)
    case h_2 => exact refuseSession hP

theorem handOver {r : Caller × Reply} : Outlasts P k s (s.handOver r) := by
  simp only [Service.handOver]
  split
  case h_1 => exact .of_exchange_eq rfl rfl
  case h_2 =>
    split
    case h_1 => exact .refl
    case h_2 =>
      split
      case h_1 => exact refuseSession hP
      case h_2 => exact .of_exchange_eq rfl rfl

theorem desk (hd : s.stepDesk l = some t) : Outlasts P k s t := by
  obtain ⟨⟨rs, d⟩, hstep, rfl⟩ := Option.map_eq_some_iff.mp hd
  refine trans (t := { s with desk := d }) ⟨Nat.le_refl _, Nat.le_of_eq ?now, fun _ hp => ?has⟩
    (foldl (fun _ _ => handOver hP) rs)
  case now => exact ((congrArg (·.now) (Desk.supply_step hstep)).trans Exchange.now_replay).symm
  case has =>
    change d.exchange.Has k P
    obtain ⟨_, ⟨c, _, he, _⟩ | ⟨_, he, _⟩⟩ := Desk.step_cases hstep
    case inl =>
      rw [he, ← Exchange.replay_journal]
      exact hp.replay hP _
    case inr =>
      rw [he]
      exact (hp.closeAll hP).forgoAll hP

theorem shutdown : Outlasts P k s s.shutdown :=
  trans (t := { s with desk := s.desk.shutdown }) (.of_exchange_eq rfl rfl)
    (foldl (fun _ _ => changeMailbox fun m _ => hP.cancel m _) s.sessions)

end Stands
end Outlasts

-- What sessions do with their own mailboxes is for them to say.
theorem Step.outlasts {P : Mailbox → Prop} (st : Step s t) (hst : ¬ st.Tampers k) (hP : Mailbox.Stands P)
    (hs : ∀ i c c' m', st.IsBy i → Strides s t i c c' m' → c.mailbox = k → P (s.mailbox k) → P m') :
    Outlasts P k s t := by
  cases st
  case connect => exact .connect hP
  case session i m hm =>
    obtain ⟨c, c', m', h⟩ := Strides.of_move hm
    exact .strides h (hs i c c' m' rfl h)
  case desk hd => exact .desk hP hd
  case visit ht => exact .of_exchange_eq (opened_submit ht) (exchange_submit ht)
  case shutdown => exact .shutdown hP
  case openMailbox => exact .openMailbox
  case mailbox j f => exact .changeMailbox fun _ hj => absurd hj hst
  case link j f =>
    simp only [changeLink]
    split <;> exact .of_exchange_eq rfl rfl
  case pass => exact ⟨Nat.le_refl _, Nat.le_max_left .., fun _ h => h⟩
  case collect | desert => exact .of_exchange_eq rfl rfl

theorem Strides.cancelledAt (hs : Strides s t i c c' m') (h : s.desk.exchange.CancelledAt c.mailbox t₀) :
    t.desk.exchange.CancelledAt c.mailbox t₀ := by
  obtain ⟨m, hm, hc⟩ := h
  exact ⟨m', by rw [hs.mailboxes, if_pos rfl, hm, Option.map_some], hs.stride.cancelledAt (mailbox_eq hm ▸ hc)⟩

theorem Step.outlasts_cancelled (st : Step s t) (hst : ¬ st.Tampers k) :
    Outlasts (fun m => m.cancelledAt = some t₀) k s t :=
  st.outlasts hst Mailbox.stands_cancelledAt fun _ _ _ _ _ hs hk => hk ▸ hs.stride.cancelledAt

-- A step changes no more than one mailbox that is not its own.
theorem Step.exists_outlasts (st : Step s t) : ∃ P k, Outlasts P k s t := by
  have ⟨k, hk⟩ : ∃ k, ¬ st.Tampers k := by
    cases st
    case mailbox j f => exact ⟨j + 1, Nat.ne_of_lt (Nat.lt_succ_self j)⟩
    all_goals exact ⟨0, id⟩
  exact ⟨fun m => m.cancelledAt = some 0, k, st.outlasts_cancelled hk⟩

-- What a service is once a session has begun: it has a new mailbox, which is open unless the session was turned away at
-- once, and waits at the desk to be admitted, if it does wait.
structure Opens (s t : Service) (c : Session) : Prop where
  sessions : t.sessions = s.sessions ++ [c]
  mailbox  : c.mailbox = s.mailboxes
  opened   : t.mailboxes = s.mailboxes + 1
  reader   : c.reader = .idle
  writer   : c.writer = .idle
  others   : ∀ k, k ≠ c.mailbox → t.desk.exchange.mailboxes[k]? = s.desk.exchange.mailboxes[k]?
  own      : ∃ m, t.desk.exchange.mailboxes[c.mailbox]? = some m ∧ m.loan = .absent ∧
    (m.pipe.writable = false → c.stage.IsRefusal)
  fresh    : ¬ c.stage.IsRegistered
  waits    : c.stage = .registering → c.registration s.sessions.length ∈ t.desk.backlog

theorem exists_opens (s : Service) (v : ConnectionId) (identity : Identity) (limits : Session.Limits)
    (link : Session.Link) : ∃ c, s.Opens (s.connect v identity limits link) c := by
  have hset (c c' : Session) : (s.sessions ++ [c]).set s.sessions.length c' = s.sessions ++ [c'] := by simp
  let u := (s.openMailbox limits.outboundCapacity).2
  have hothers (k : Nat) (hk : k ≠ s.mailboxes) :
      u.desk.exchange.mailboxes[k]? = s.desk.exchange.mailboxes[k]? := by
    simp [u, Service.openMailbox, changeExchange, Exchange.openMailbox, ExtTreeMap.getElem?_insert, hk.symm]
  let m := Mailbox.new limits.outboundCapacity
  have hown : u.desk.exchange.mailboxes[s.mailboxes]? = some m := ExtTreeMap.getElem?_insert_self
  have hopen : m.pipe.writable ≠ false := Bool.noConfusion
  let c := Session.new v identity limits s.mailboxes link
  simp only [connect]
  split
  case isTrue =>
    exact ⟨c.break_, hset .., rfl, rfl, rfl, rfl, hothers, ⟨m, hown, rfl, (absurd · hopen)⟩, id, fun h => by cases h⟩
  case isFalse =>
    split
    case h_1 t ht =>
      have hx := congrArg Exchange.mailboxes (exchange_submit ht)
      obtain ⟨hd, hs⟩ := takes_submit ht
      exact ⟨c, hs, rfl, opened_submit ht, rfl, rfl, hx ▸ hothers, ⟨m, hx ▸ hown, rfl, (absurd · hopen)⟩, id,
        fun _ => hd.backlog ▸ List.mem_concat_self⟩
    case h_2 r _ =>
      have hk (k : Nat) := getElem?_changeMailbox (s := u) (j := s.mailboxes) (k := k) (f := Mailbox.release)
      refine ⟨c.refuse r, hset .., rfl, rfl, rfl, rfl, fun k hne => ?_, ⟨m.release, ?_, rfl, fun _ => trivial⟩,
        id, fun h => by cases h⟩
      · exact (hk k).trans ((if_neg hne.symm).trans (hothers k hne))
      · exact (hk s.mailboxes).trans ((if_pos rfl).trans (congrArg (Option.map _) hown))

theorem Step.exists_opens (st : Step s t) (ha : st.IsArrival) : ∃ c, s.Opens t c := by
  cases st
  case connect => exact Service.exists_opens ..
  all_goals exact ha.elim

-- Where a session comes from: it was there before, or begins.
theorem Step.origin (st : Step s t) (hp : s.Proper left) (hi : t.sessions[i]? = some c') :
    (∃ c, s.sessions[i]? = some c ∧ s.Befalls t i c c') ∨ i = s.sessions.length ∧ s.Opens t c' := by
  by_cases hlt : i < s.sessions.length
  case pos =>
    have hs := List.getElem?_eq_getElem hlt
    have ⟨c'', hi', hb⟩ := st.befalls hp hs
    cases Option.some.inj (hi.symm.trans hi')
    exact .inl ⟨_, hs, hb⟩
  case neg =>
    have ⟨hlt', _⟩ := List.getElem?_eq_some_iff.mp hi
    have ⟨c, ho⟩ := st.exists_opens (by_contra fun ha => hlt (st.length_eq ha ▸ hlt'))
    rw [ho.sessions, List.length_append, List.length_singleton] at hlt'
    rw [ho.sessions, List.getElem?_append_right (Nat.not_lt.mp hlt)] at hi
    obtain rfl := List.mem_singleton.mp (List.mem_of_getElem? hi)
    exact .inr ⟨Nat.le_antisymm (Nat.le_of_lt_succ hlt') (Nat.not_lt.mp hlt), ho⟩

theorem Step.isHoused (st : Step s t) (hp : s.Proper left) (h : s.IsHoused) : t.IsHoused := by
  intro c' hm
  obtain ⟨i, hi⟩ := List.mem_iff_getElem?.mp hm
  obtain ⟨c, hc, hb⟩ | ⟨_, ho⟩ := st.origin hp hi
  · have ⟨_, _, hlasts⟩ := st.exists_outlasts
    exact hb.isSame.mailbox ▸ Nat.lt_of_lt_of_le (h c (List.mem_of_getElem? hc)) hlasts.opened
  · exact ho.opened ▸ ho.mailbox ▸ Nat.lt_succ_self _

theorem Run.isHoused (run : Run s t) (hp : s.Proper []) (h : s.IsHoused) : t.IsHoused := by
  induction run
  case refl => exact h
  case step run st hi => exact st.isHoused (run.proper hp).1 hi

theorem Prompt.isHoused (later : s.Prompt i t) (hp : s.Proper left) (h : s.IsHoused) : t.IsHoused := by
  induction later
  case refl => exact h
  case step later st _ hi =>
    have ⟨_, hp⟩ := later.proper hp
    exact st.isHoused hp hi

theorem isHoused_new {farewell : String} {capacity : Nat} : (Service.new farewell capacity).IsHoused :=
  List.forall_mem_nil _

-- A courier that is not kept waiting by the exchange gets on.
theorem exists_forward (number : Nat) {a : Session.Courier} (ha : a ≠ .idle)
    (hr : ∀ n, a = .waiting n → s.desk.HasRoom n ∨ s.desk.stopped) : ∃ news t, s.forward number a = some (news, t) := by
  cases a
  case idle => exact absurd rfl ha
  case answering n next => cases n <;> exact ⟨_, _, rfl⟩
  case carrying c =>
    cases hs : s.submit ⟨c, none⟩ <;> simp only [forward, hs] <;> exact ⟨_, _, rfl⟩
  case waiting n =>
    simp only [forward]
    obtain hr | hr := hr n rfl
    case inl => exact ⟨_, _, if_pos hr⟩
    case inr => split <;> exact ⟨_, _, rfl⟩

-- Nor does the courier of a reader wait for nothing.
theorem courier_eq_of_stepCourier (hi : s.sessions[i]? = some c) (hn : s.stepCourier i = none)
    (hr : ∀ n, c.reader.courier = .waiting n → s.desk.HasRoom n ∨ s.desk.stopped) : c.reader.courier = .idle := by
  by_contra hk
  have ⟨news, t, hf⟩ := exists_forward c.mailbox hk hr
  cases news
  case ok => simp [stepCourier, hi, hf] at hn
  case error =>
    simp only [stepCourier, hi, hf, Option.bind_eq_bind, Option.bind_some] at hn
    split at hn <;> cases hn

namespace Rests

variable (h : s.Rests i) (hi : s.sessions[i]? = some c)

include h hi

theorem not_admitted : c.stage ≠ .admitted := by
  intro hs
  have hn : s.stepServe i = none := h.idle .serve
  simp [stepServe, hi, hs] at hn

theorem courier_eq : c.reader.courier = .idle :=
  courier_eq_of_stepCourier hi (h.idle .courier) fun n hn => h.room c hi n (.inl hn)

-- A reader that is at work does not overlook that the session was told to stop.
theorem not_running (hc : (s.mailbox c.mailbox).cancelledAt.isSome) : c.reader.running = false := by
  refine Bool.eq_false_iff.mpr fun hr => ?_
  have hn : s.stepCancelled i = none := h.idle .notice
  have hl : c.reader.IsListening := ⟨hr, h.courier_eq hi⟩
  simp [stepCancelled, hi, hl, hc] at hn

-- What a writer waits for: anything to do, its transport, or that it may stop waiting for that to close.
theorem writer_cases :
    (∃ probing, c.writer.phase = .waiting probing ∧
      c.writer.await c.limits s.now (s.mailbox c.mailbox) probing = .wait) ∨
    (∃ f asked, c.writer.phase = .sending f asked ∧
      c.writer.sent? c.limits s.now (s.mailbox c.mailbox) f asked (c.link.outcome asked) = none) ∨
    (∃ since, c.writer.phase = .closing since ∧ c.link.closeHangs = true ∧
      ¬ Session.Writer.IsStuck c.limits since s.now) ∨
    c.writer.phase = .done := by
  have hn : s.stepWriter i = none := h.idle .write
  simp only [stepWriter, hi, Option.bind_eq_bind, Option.bind_some] at hn
  split at hn
  case h_1 => split at hn <;> cases hn
  case h_2 probing hp =>
    split at hn
    case h_3 hw => exact .inl ⟨probing, hp, hw⟩
    all_goals cases hn
  case h_3 f asked hp =>
    refine .inr (.inl ⟨f, asked, hp, ?_⟩)
    cases hw : c.writer.sent? c.limits s.now (s.mailbox c.mailbox) f asked (c.link.outcome asked)
    case none => rfl
    case some => rw [hw] at hn; cases hn
  case h_4 since hp =>
    split at hn
    case isTrue hc => exact .inr (.inr (.inl ⟨since, hp, hc⟩))
    case isFalse => cases hn
  case h_5 => cases hn
  case h_6 k hk hp =>
    have ⟨news, t, hf⟩ := exists_forward (s := s) c.mailbox hk fun n hn => h.room c hi n (.inr (hn ▸ hp))
    rw [hf] at hn
    cases hn
  case h_7 hp => exact .inr (.inr (.inr hp))

end Rests

end Service
end Parley
