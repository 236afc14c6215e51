import Parley.Proofs.Service.Proper
import Parley.Proofs.Session.Stride

namespace Parley

open Std

namespace Service

-- What a step of a session makes of the service, to the last detail.
structure Strides (s t : Service) (i : Nat) (c c' : Session) (m' : Mailbox) : Prop where
  before    : s.sessions[i]? = some c
  sessions  : t.sessions = s.sessions.set i c'
  mailboxes : ∀ k, t.desk.exchange.mailboxes[k]? =
    if c.mailbox = k then (s.desk.exchange.mailboxes[k]?).map fun _ => m' else s.desk.exchange.mailboxes[k]?
  opened    : t.mailboxes = s.mailboxes
  now       : t.now = s.now
  stride    : c.Stride s.desk (s.mailbox c.mailbox) c' m'

-- What becomes of a session by what others do: it learns whether it is admitted, or stays as it is but for its
-- transport.
inductive Suffers (c : Session) : Session → Prop
  | told {c'} (hr : c.stage = .registering) (h : c.Told c') : Suffers c c'
  | link (link : Session.Link) : Suffers c { c with link }

-- What becomes of a session by a step, which it may have taken itself.
inductive Befalls (s t : Service) (i : Nat) (c : Session) : Session → Prop
  | strides {c' m'} (h : Strides s t i c c' m') : Befalls s t i c c'
  | suffers {c'} (h : Suffers c c') : Befalls s t i c c'

-- A step that session `i` takes.
def Step.IsBy {s t : Service} (i : Nat) : Step s t → Prop
  | session j .. => j = i
  | _            => False

variable {s t u : Service} {i j k : Nat} {c c' : Session} {m m' : Mailbox} {f : Mailbox → Mailbox} {v : ConnectionId}
  {left new : List Errand} {l : Listing} {time : Nat}

theorem mailbox_eq (h : s.desk.exchange.mailboxes[k]? = some m) : s.mailbox k = m := by
  rw [mailbox, h, Option.getD_some]

theorem getElem?_changeMailbox :
    (s.changeMailbox j f).desk.exchange.mailboxes[k]? =
      if j = k then (s.desk.exchange.mailboxes[k]?).map f else s.desk.exchange.mailboxes[k]? :=
  Exchange.getElem?_changeMailbox

-- The mailbox is as it was, or was changed once.
theorem mailboxes_of_eq (h : t.desk.exchange.mailboxes = s.desk.exchange.mailboxes) (k : Nat) :
    t.desk.exchange.mailboxes[k]? =
      if j = k then (s.desk.exchange.mailboxes[k]?).map fun _ => s.mailbox j else s.desk.exchange.mailboxes[k]? := by
  rw [h]
  split
  case isFalse => rfl
  case isTrue hj =>
    subst hj
    cases hm : s.desk.exchange.mailboxes[j]?
    case none => rfl
    case some m => rw [mailbox_eq hm, Option.map_some]

theorem mailboxes_of_changeMailbox (h : t.desk.exchange = s.desk.exchange.changeMailbox j f) (k : Nat) :
    t.desk.exchange.mailboxes[k]? =
      if j = k then (s.desk.exchange.mailboxes[k]?).map fun _ => f (s.mailbox j)
      else s.desk.exchange.mailboxes[k]? := by
  rw [h, Exchange.getElem?_changeMailbox]
  split
  case isFalse => rfl
  case isTrue hj =>
    subst hj
    cases hm : s.desk.exchange.mailboxes[j]?
    case none => rfl
    case some m => rw [mailbox_eq hm, Option.map_some, Option.map_some]

namespace Strides

-- A session does something that has no bearing on its mailbox.
theorem of_sessions (hi : s.sessions[i]? = some c) (hs : t.sessions = s.sessions.set i c')
    (hx : t.desk.exchange = s.desk.exchange) (ho : t.mailboxes = s.mailboxes)
    (h : c.Stride s.desk (s.mailbox c.mailbox) c' (s.mailbox c.mailbox)) :
    Strides s t i c c' (s.mailbox c.mailbox) :=
  ⟨hi, hs, mailboxes_of_eq (congrArg _ hx), ho, congrArg (·.supply.now) hx, h⟩

theorem of_changeMailbox (hi : s.sessions[i]? = some c) (hs : t.sessions = s.sessions.set i c')
    (hx : t.desk.exchange = s.desk.exchange.changeMailbox c.mailbox f) (ho : t.mailboxes = s.mailboxes)
    (h : c.Stride s.desk (s.mailbox c.mailbox) c' (f (s.mailbox c.mailbox))) :
    Strides s t i c c' (f (s.mailbox c.mailbox)) :=
  ⟨hi, hs, mailboxes_of_changeMailbox hx, ho, congrArg (·.supply.now) hx, h⟩

theorem setSession (hi : s.sessions[i]? = some c)
    (h : c.Stride s.desk (s.mailbox c.mailbox) c' (s.mailbox c.mailbox)) :
    Strides s (s.setSession i c') i c c' (s.mailbox c.mailbox) :=
  of_sessions hi rfl rfl rfl h

theorem changeMailbox (hi : s.sessions[i]? = some c)
    (h : c.Stride s.desk (s.mailbox c.mailbox) c' (f (s.mailbox c.mailbox))) :
    Strides s ((s.changeMailbox c.mailbox f).setSession i c') i c c' (f (s.mailbox c.mailbox)) :=
  of_changeMailbox hi rfl rfl rfl h

end Strides

theorem strides_serve (h : s.stepServe i = some t) : ∃ c c' m', Strides s t i c c' m' := by
  obtain ⟨c, hc, h⟩ := Option.bind_eq_some_iff.mp h
  split at h
  case isFalse => cases h
  case isTrue hs =>
    cases h
    exact ⟨c, _, _, .setSession hc (.serve hs)⟩

theorem opened_submit {e : Errand} (h : s.submit e = .ok t) : t.mailboxes = s.mailboxes := by
  cases hd : s.desk.submit e <;> simp only [submit, hd, Except.map] at h <;> cases h
  rfl

theorem opened_forward {number : Nat} {a : Session.Courier} {news : Except Refusal Session.Courier}
    (h : s.forward number a = some (news, t)) : t.mailboxes = s.mailboxes := by
  simp only [forward] at h
  split at h
  case h_1 => cases h
  case h_2 | h_3 => cases h; rfl
  case h_4 =>
    split at h
    case h_1 hs => cases h; exact opened_submit hs
    case h_2 => cases h; rfl
  case h_5 =>
    split at h
    case isTrue => cases h; rfl
    case isFalse => split at h <;> cases h; rfl

-- A courier that is turned away has had nothing to do with the mailbox.
theorem exchange_forward_of_refused {number : Nat} {a : Session.Courier} {news : Except Refusal Session.Courier}
    (h : s.forward number a = some (news, t)) (ha : a.Refused s.desk) : t.desk.exchange = s.desk.exchange :=
  (exchange_forward h).trans <| Exchange.changeMailbox_of_eq fun _ => by cases ha <;> rfl

theorem strides_courier (h : s.stepCourier i = some t) : ∃ c c' m', Strides s t i c c' m' := by
  obtain ⟨c, hc, h⟩ := Option.bind_eq_some_iff.mp h
  obtain ⟨⟨news, u⟩, hf, h⟩ := Option.bind_eq_some_iff.mp h
  have ho : u.mailboxes = s.mailboxes := opened_forward hf
  have hx := exchange_forward hf
  obtain ⟨hs, ⟨k, new, rfl, hk, _⟩ | ⟨r, rfl, hk, _⟩⟩ := forward_cases hf
  case inl =>
    cases h
    exact ⟨c, _, _, .of_changeMailbox hc (hs ▸ rfl) hx ho (.bring hk)⟩
  case inr =>
    have hx := exchange_forward_of_refused hf hk
    have hr : c.Stride s.desk (s.mailbox c.mailbox) c.rebuff (s.mailbox c.mailbox) := .retreat hk
    unfold Session.rebuff at hr
    simp only at h
    split at h
    case isTrue hrun =>
      cases h
      rw [if_pos hrun] at hr
      exact ⟨c, _, _, .of_sessions hc (hs ▸ rfl) hx ho hr⟩
    case isFalse hrun =>
      cases h
      rw [if_neg hrun] at hr
      exact ⟨c, _, _, .of_sessions hc (hs ▸ rfl) hx ho hr⟩

theorem strides_takeFrame {f : Frame} {probing : Bool} (hc : s.sessions[i]? = some c)
    (hp : c.writer.phase.probing? (s.mailbox c.mailbox) = some probing)
    (hw : c.writer.await c.limits s.now (s.mailbox c.mailbox) probing = .frame f) :
    ∃ c' m', Strides s (s.takeFrame i c f) i c c' m' := by
  have hs := Session.Stride.take (d := s.desk) hp hw
  cases f
  case text => exact ⟨_, _, .changeMailbox hc hs⟩
  all_goals exact ⟨_, _, .setSession hc hs⟩

theorem strides_writer (h : s.stepWriter i = some t) : ∃ c c' m', Strides s t i c c' m' := by
  obtain ⟨c, hc, h⟩ := Option.bind_eq_some_iff.mp h
  simp only at h
  split at h
  case h_1 hp =>
    have hprobing := congrArg (Session.Writer.Phase.probing? (s.mailbox c.mailbox)) hp
    split at h
    case h_1 hw =>
      cases h
      exact ⟨c, _, _, .setSession hc (.giveUp hprobing hw)⟩
    case h_2 f hw =>
      cases h
      exact ⟨c, strides_takeFrame hc hprobing hw⟩
    case h_3 hw =>
      cases h
      exact ⟨c, _, _, .setSession hc (.wait hp hw)⟩
  case h_2 hp =>
    have hprobing := congrArg (Session.Writer.Phase.probing? (s.mailbox c.mailbox)) hp
    split at h
    case h_1 hw =>
      cases h
      exact ⟨c, _, _, .setSession hc (.giveUp hprobing hw)⟩
    case h_2 f hw =>
      cases h
      exact ⟨c, strides_takeFrame hc hprobing hw⟩
    case h_3 => cases h
  case h_3 hp =>
    obtain ⟨w, hw, h⟩ := Option.bind_eq_some_iff.mp h
    cases h
    exact ⟨c, _, _, .setSession hc (.write hp hw)⟩
  case h_4 hp =>
    split at h
    case isTrue => cases h
    case isFalse hn =>
      cases h
      exact ⟨c, _, _, .changeMailbox hc (.close hp fun hc => Decidable.not_not.mp (not_and.mp hn hc))⟩
  case h_5 hp =>
    cases h
    exact ⟨c, _, _, .changeMailbox hc (.cease hp)⟩
  case h_6 hp =>
    obtain ⟨⟨news, u⟩, hf, h⟩ := Option.bind_eq_some_iff.mp h
    cases h
    have ho : u.mailboxes = s.mailboxes := opened_forward hf
    have hx := exchange_forward hf
    obtain ⟨hs, ⟨k', new, rfl, hk, _⟩ | ⟨r, rfl, hk, _⟩⟩ := forward_cases hf
    case inl => exact ⟨c, _, _, .of_changeMailbox hc (hs ▸ rfl) hx ho (.send hp hk)⟩
    case inr =>
      have hx := exchange_forward_of_refused hf hk
      exact ⟨c, _, _, .of_sessions hc (hs ▸ rfl) hx ho (.lose hp hk)⟩
  case h_7 => cases h

theorem strides_cancelled (h : s.stepCancelled i = some t) : ∃ c c' m', Strides s t i c c' m' := by
  obtain ⟨c, hc, h⟩ := Option.bind_eq_some_iff.mp h
  split at h
  case isFalse => cases h
  case isTrue hl =>
    cases h
    exact ⟨c, _, _, .setSession hc (.stop hl.1 (.inl hl.2))⟩

theorem strides_overdue (h : s.stepOverdue i = some t) : ∃ c c' m', Strides s t i c c' m' := by
  obtain ⟨c, hc, h⟩ := Option.bind_eq_some_iff.mp h
  split at h
  case isFalse => cases h
  case isTrue hl =>
    cases h
    exact ⟨c, _, _, .setSession hc (.stop hl.1 (.inr (.inr (.inr hl.2))))⟩

theorem sessions_react {r : Session.Reaction} :
    ((s.setSession i c).react i c r).sessions =
      s.sessions.set i (c.sendFromReader (r.courier (r.lent (s.mailbox c.mailbox)).loan)) :=
  List.set_set ..

theorem getElem?_mailboxes_react {r : Session.Reaction} :
    (s.react i c r).desk.exchange.mailboxes[k]? =
      if c.mailbox = k then (s.desk.exchange.mailboxes[k]?).map r.lent else s.desk.exchange.mailboxes[k]? :=
  getElem?_changeMailbox (s := s.changeExchange fun x => { x with supply := x.supply.next })

-- Whatever a client asks for, its courier leaves; for an answer, a writing end was asked for.
theorem strides_react {c₀ : Session} {r : Session.Reaction} (hi : s.sessions[i]? = some c) (hk : c₀.mailbox = c.mailbox)
    (h : c.Stride s.desk (s.mailbox c.mailbox)
      (c₀.sendFromReader (r.courier (r.lent (s.mailbox c.mailbox)).loan)) (r.lent (s.mailbox c.mailbox))) :
    Strides s ((s.setSession i c₀).react i c₀ r) i c
      (c₀.sendFromReader (r.courier (r.lent (s.mailbox c.mailbox)).loan)) (r.lent (s.mailbox c.mailbox)) := by
  refine ⟨hi, hk ▸ sessions_react, fun k => ?mailboxes, rfl, rfl, h⟩
  rw [← mailboxes_of_changeMailbox (t := s.changeMailbox c.mailbox r.lent) rfl, getElem?_changeMailbox, ← hk]
  exact getElem?_mailboxes_react

theorem strides_read (h : s.stepRead i = some t) : ∃ c c' m', Strides s t i c c' m' := by
  obtain ⟨c, hc, h⟩ := Option.bind_eq_some_iff.mp h
  have hset (c₀ c₁ : Session) : (s.sessions.set i c₀).set i c₁ = s.sessions.set i c₁ := List.set_set ..
  split at h
  case isTrue => cases h
  case isFalse hl =>
    have hl := Decidable.not_not.mp hl
    simp only at h
    split at h
    case h_2 hr =>
      cases h
      exact ⟨c, _, _, .setSession hc (.stop hl (.inr (.inl (congrArg Prod.fst hr))))⟩
    case h_3 hr =>
      cases h
      exact ⟨c, _, _, .setSession hc (.stop hl (.inr (.inr (.inl (congrArg Prod.fst hr)))))⟩
    case h_4 => cases h
    case h_1 f link hf =>
      split at h
      case h_1 p hj =>
        cases h
        have ha : c.reader.after c.limits s.now f = c.reader := by simp only [Session.Reader.after, hj]
        rw [ha]
        exact ⟨c, _, _, strides_react hc rfl (.hear hl hf hj rfl)⟩
      case h_2 hj =>
        cases h
        have ha : c.reader.after c.limits s.now f = c.reader.stop := by simp only [Session.Reader.after, hj]
        rw [ha]
        exact ⟨c, _, _, .of_sessions hc (hset ..) rfl rfl (.reject hl hf hj)⟩
      case h_3 hj =>
        cases h
        exact ⟨c, _, _, .of_sessions hc (hset ..) rfl rfl (.heed hl hf (.inl hj))⟩
      case h_4 hj =>
        cases h
        exact ⟨c, _, _, .of_sessions hc (hset ..) rfl rfl (.heed hl hf (.inr hj))⟩

theorem strides_refusing (h : s.stepRefusing i = some t) : ∃ c c' m', Strides s t i c c' m' := by
  obtain ⟨c, hc, h⟩ := Option.bind_eq_some_iff.mp h
  split at h
  case h_1 r asked hs =>
    split at h
    case isTrue hp =>
      split at h
      case isTrue => cases h
      case isFalse ha =>
        cases h
        obtain rfl := Bool.eq_false_iff.mpr ha
        exact ⟨c, _, _, .setSession hc (.ask hs hp)⟩
    case isFalse hp =>
      cases h
      exact ⟨c, _, _, .setSession hc (.dismiss hs hp)⟩
  case h_2 r hs =>
    split at h
    case isTrue => cases h
    case isFalse hh =>
      cases h
      exact ⟨c, _, _, .changeMailbox hc (.leave hs (Bool.eq_false_iff.mpr hh))⟩
  case h_3 => cases h

theorem strides_finish (h : s.stepFinish i = some t) : ∃ c c' m', Strides s t i c c' m' := by
  obtain ⟨c, hc, h⟩ := Option.bind_eq_some_iff.mp h
  split at h
  case isFalse => cases h
  case isTrue hf =>
    cases h
    exact ⟨c, _, _, .setSession hc (.finish hf.1 hf.2.1 hf.2.2)⟩

-- Whatever a session does by itself is one of its strides.
theorem Strides.of_move {m : Move} (h : m.apply? s i = some t) : ∃ c c' m', Strides s t i c c' m' := by
  cases m
  case serve => exact strides_serve h
  case courier => exact strides_courier h
  case write => exact strides_writer h
  case notice => exact strides_cancelled h
  case read => exact strides_read h
  case expire => exact strides_overdue h
  case refuse => exact strides_refusing h
  case finish => exact strides_finish h

theorem Strides.self (h : Strides s t i c c' m') : t.sessions[i]? = some c' := by
  have ⟨hlt, _⟩ := List.getElem?_eq_some_iff.mp h.before
  rw [h.sessions, List.getElem?_set_self hlt]

theorem Strides.other (h : Strides s t i c c' m') (hij : i ≠ j) : t.sessions[j]? = s.sessions[j]? := by
  rw [h.sessions, List.getElem?_set_ne hij]

-- A session is only ever changed by itself, by the desk as long as it waits to be admitted, and by its client.
theorem Step.suffers (st : Step s t) (hst : ¬ st.IsBy i) (h : s.Proper left) (hi : s.sessions[i]? = some c) :
    ∃ c', t.sessions[i]? = some c' ∧ Suffers c c' := by
  have ⟨hlt, _⟩ := List.getElem?_eq_some_iff.mp hi
  have hsame (hs : t.sessions[i]? = s.sessions[i]?) : ∃ c', t.sessions[i]? = some c' ∧ Suffers c c' :=
    ⟨c, hs.trans hi, .link c.link⟩
  cases st
  case connect id identity limits link hn =>
    have ⟨_, _, _, hs, _⟩ := s.connect_cases id identity limits link
    exact hsame (hs ▸ List.getElem?_append_left hlt)
  case session j m hm =>
    have ⟨_, _, _, hs⟩ := Strides.of_move hm
    exact hsame (hs.other hst)
  case desk hd =>
    have ⟨_, _, _, _, hl, _⟩ := stepDesk_cases hd
    have hi' := List.getElem?_eq_getElem (hl ▸ hlt)
    have ⟨c₀, hc, hc'⟩ := h.told_of_stepDesk hd hi'
    cases Option.some.inj (hi.symm.trans hc)
    refine ⟨_, hi', ?_⟩
    obtain hc' | ⟨ht, hr, _⟩ := hc'
    · rw [hc']
      exact .link c.link
    · exact .told hr ht
  case link j f =>
    simp only [changeLink]
    split
    case h_2 => exact ⟨c, hi, .link c.link⟩
    case h_1 c₀ hj =>
      by_cases hij : j = i
      case neg => exact ⟨c, (List.getElem?_set_ne hij).trans hi, .link c.link⟩
      case pos =>
        subst hij
        cases Option.some.inj (hi.symm.trans hj)
        exact ⟨_, List.getElem?_set_self hlt, .link (f c.link)⟩
  case visit ht => exact hsame ((takes_submit ht).2 ▸ rfl)
  case shutdown => exact hsame (congrArg (fun cs : List Session => cs[i]?) shutdown_cases.2)
  case pass | openMailbox | mailbox | collect | desert => exact hsame rfl

theorem Step.befalls (st : Step s t) (h : s.Proper left) (hi : s.sessions[i]? = some c) :
    ∃ c', t.sessions[i]? = some c' ∧ s.Befalls t i c c' := by
  by_cases hst : st.IsBy i
  case neg =>
    obtain ⟨c', hi', hc⟩ := st.suffers hst h hi
    exact ⟨c', hi', .suffers hc⟩
  case pos =>
    cases st
    case session j m hm =>
      obtain rfl : j = i := hst
      obtain ⟨_, c', _, hs⟩ := Strides.of_move hm
      cases Option.some.inj (hi.symm.trans hs.before)
      exact ⟨c', hs.self, .strides hs⟩
    all_goals exact hst.elim

-- Whoever does not wait to be admitted learns nothing.
theorem Suffers.exists_link (h : Suffers c c') (hr : c.stage ≠ .registering) : ∃ link, c' = { c with link } := by
  cases h
  case told hr' _ => exact absurd hr' hr
  case link link => exact ⟨link, rfl⟩

theorem Suffers.writer_eq (h : Suffers c c') : c'.writer = c.writer := by
  cases h
  case told ht => cases ht <;> rfl
  case link => rfl

theorem Suffers.reader_eq (h : Suffers c c') : c'.reader = c.reader := by
  cases h
  case told ht => cases ht <;> rfl
  case link => rfl

theorem Suffers.isSame (h : Suffers c c') : c.IsSame c' := by
  cases h
  case told ht => exact ht.isSame
  case link => exact ⟨rfl, rfl, rfl, rfl⟩

theorem Befalls.isSame (h : s.Befalls t i c c') : c.IsSame c' := by
  cases h
  case strides h => exact h.stride.isSame
  case suffers h => exact h.isSame

end Service
end Parley
