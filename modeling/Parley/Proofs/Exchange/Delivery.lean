import Parley.Exchange
import Parley.Proofs.Roster.Consistent

namespace Parley

open Std

namespace Mailbox

variable {m : Mailbox} {n : Notice}

-- How many notices a mailbox would still take.
def vacancy (m : Mailbox) : Nat :=
  if m.pipe.writable ∧ m.pipe.readable then m.pipe.capacity - m.pipe.queue.length else 0

theorem outcome_eq_accepted_iff : m.pipe.outcome = .accepted ↔ 0 < m.vacancy := by
  have hf : m.pipe.IsFull ↔ ¬ 0 < m.pipe.capacity - m.pipe.queue.length := by
    simp only [Pipe.IsFull]
    omega
  simp only [Pipe.outcome, vacancy, hf]
  split
  case isTrue =>
    split
    case isTrue h => simpa only [reduceCtorEq, false_iff] using h
    case isFalse h =>
      simp only [true_iff]
      omega
  case isFalse => simp

theorem put_eq : m.put n =
    if 0 < m.vacancy then { m with pipe := { m.pipe with queue := m.pipe.queue ++ [n] } } else m := by
  simp only [put, Pipe.send, outcome_eq_accepted_iff]
  split <;> rfl

theorem put_of_vacancy_eq_zero (h : m.vacancy = 0) : m.put n = m := by
  simp [put_eq, h]

theorem queue_put : (m.put n).pipe.queue = m.pipe.queue ++ if 0 < m.vacancy then [n] else [] := by
  rw [put_eq]
  split <;> simp

theorem vacancy_put : (m.put n).vacancy = m.vacancy - 1 := by
  rw [put_eq]
  split
  case isTrue =>
    simp only [vacancy, List.length_append, List.length_singleton]
    split <;> omega
  case isFalse h => omega

theorem writable_put : (m.put n).pipe.writable = m.pipe.writable := by
  rw [put_eq]
  split <;> rfl

theorem loan_put : (m.put n).loan = m.loan := by
  rw [put_eq]
  split <;> rfl

-- How many answers a session may still offer with the writing end that it has.
def Loan.due : Loan → Nat
  | fresh          => 1
  | absent | spent => 0

theorem pipe_lend : m.lend.pipe = m.pipe := by
  unfold lend
  split <;> rfl

theorem cancelledAt_lend : m.lend.cancelledAt = m.cancelledAt := by
  unfold lend
  split <;> rfl

-- Nobody is lent a writing end that the exchange has let go of.
theorem lend_of_not_writable (h : m.pipe.writable = false) : m.lend = m := by
  simp [lend, h]

theorem writable_reply : (m.reply n).pipe.writable = m.pipe.writable := by
  unfold reply
  split
  case isTrue => split <;> rfl
  case isFalse => rfl

theorem cancelledAt_reply : (m.reply n).cancelledAt = m.cancelledAt := by
  unfold reply
  split
  case isTrue => split <;> rfl
  case isFalse => rfl

theorem loan_reply : (m.reply n).loan = if m.loan = .fresh then .spent else m.loan := by
  unfold reply
  split
  case isTrue => split <;> rfl
  case isFalse => rfl

-- Whether an answer that is offered now would be kept.
def Keeps (m : Mailbox) : Prop := m.loan = .fresh ∧ m.pipe.readable ∧ ¬ m.pipe.IsFull

instance (m : Mailbox) : Decidable m.Keeps := by unfold Keeps; infer_instance

theorem reply_of_keeps (h : m.Keeps) :
    m.reply n = { m with pipe := { m.pipe with queue := m.pipe.queue ++ [n] }, loan := .spent } := by
  rw [reply, if_pos h.1, if_pos h.2]

theorem pipe_reply_of_not_keeps (h : ¬ m.Keeps) : (m.reply n).pipe = m.pipe := by
  unfold reply
  split
  case isFalse => rfl
  case isTrue hl => rw [if_neg fun hn => h ⟨hl, hn⟩]

-- What an answer makes of a mailbox that nobody else changes meanwhile.
def answer (m : Mailbox) (n : Notice) : Mailbox := if m.lend.loan = .fresh then (m.lend.reply n).giveBack else m

theorem lend_of_loan_ne_fresh (h : m.lend.loan ≠ .fresh) : m.lend = m := by
  unfold lend at h ⊢
  split
  case isTrue hl => exact absurd rfl (if_pos hl ▸ h)
  case isFalse => rfl

-- The exchange would put it there just so.
theorem answer_eq_put (h : m.loan = .absent) : m.answer n = m.put n := by
  obtain ⟨p, cancelledAt, loan⟩ := m
  obtain rfl : loan = .absent := h
  by_cases hw : p.writable
  case neg => simp [answer, lend, put, Pipe.send, Pipe.outcome, hw]
  case pos =>
    by_cases hr : p.readable <;> by_cases hf : p.IsFull <;>
      simp [answer, lend, reply, giveBack, put, Pipe.send, Pipe.outcome, hw, hr, hf]

theorem queue_reply : (m.reply n).pipe.queue = m.pipe.queue ++ if m.Keeps then [n] else [] := by
  split
  case isTrue h => rw [reply_of_keeps h]
  case isFalse h => rw [pipe_reply_of_not_keeps h, List.append_nil]

end Mailbox

namespace Exchange

variable {x : Exchange} {n : Notice} {id id' : ConnectionId} {ids : List ConnectionId} {e e' : Entry}
  {k : Nat} {l : Listing} {p : Post}

-- The notices that wait in a mailbox.
def queue (x : Exchange) (k : Nat) : List Notice :=
  (x.mailboxes[k]?.map (·.pipe.queue)).getD []

-- How many notices the mailbox of a connection would still take.
def vacancy (x : Exchange) (id : ConnectionId) : Nat :=
  ((x.mailbox? id).map (·.2.vacancy)).getD 0

-- Whether the exchange may still write to a mailbox; none if there is no such mailbox.
def writable? (x : Exchange) (k : Nat) : Option Bool :=
  x.mailboxes[k]?.map (·.pipe.writable)

-- The mailboxes of some connections.
def boxes (x : Exchange) (ids : List ConnectionId) : List Nat :=
  ids.filterMap fun id => (x.roster.entry? id).map (·.mailbox)

theorem vacancy_eq (he : x.roster.entry? id = some e) :
    x.vacancy id = (x.mailboxes[e.mailbox]?.map Mailbox.vacancy).getD 0 := by
  simp only [vacancy, mailbox?, he, Option.bind_eq_bind, Option.bind_some]
  cases x.mailboxes[e.mailbox]? <;> rfl

theorem getElem?_changeMailbox {f : Mailbox → Mailbox} {j : Nat} :
    (x.changeMailbox j f).mailboxes[k]? =
      if j = k then x.mailboxes[k]?.map f else x.mailboxes[k]? := by
  simp only [changeMailbox, ExtTreeMap.getElem?_modify, LawfulEqCmp.compare_eq_iff_eq]
  split
  case isTrue h => rw [h]
  case isFalse => rfl

theorem changeMailbox_of_eq {f : Mailbox → Mailbox} (hf : ∀ m, f m = m) : x.changeMailbox k f = x := by
  have hm : (x.changeMailbox k f).mailboxes = x.mailboxes := by
    refine ExtTreeMap.ext_getElem? fun j => ?_
    rw [getElem?_changeMailbox]
    split
    case isFalse => rfl
    case isTrue => cases x.mailboxes[j]? <;> simp [hf]
  exact congrArg (fun mailboxes => { x with mailboxes }) hm

theorem changeMailbox_congr {f g : Mailbox → Mailbox} (h : ∀ m, x.mailboxes[k]? = some m → f m = g m) :
    x.changeMailbox k f = x.changeMailbox k g := by
  have hm : (x.changeMailbox k f).mailboxes = (x.changeMailbox k g).mailboxes := by
    refine ExtTreeMap.ext_getElem? fun j => ?_
    rw [getElem?_changeMailbox, getElem?_changeMailbox]
    split
    case isFalse => rfl
    case isTrue hj =>
      subst hj
      cases hm : x.mailboxes[k]?
      case none => rfl
      case some m => rw [Option.map_some, Option.map_some, h m hm]
  exact congrArg (fun boxes => { x with mailboxes := boxes }) hm

theorem changeMailbox_changeMailbox {f g : Mailbox → Mailbox} :
    (x.changeMailbox k f).changeMailbox k g = x.changeMailbox k (g ∘ f) := by
  have hm : ((x.changeMailbox k f).changeMailbox k g).mailboxes = (x.changeMailbox k (g ∘ f)).mailboxes := by
    refine ExtTreeMap.ext_getElem? fun j => ?_
    simp only [getElem?_changeMailbox]
    split
    case isFalse => rfl
    case isTrue => rw [Option.map_map]
  exact congrArg (fun boxes => { x with mailboxes := boxes }) hm

-- Whatever takes nothing but the first notices out of a mailbox.
theorem queue_changeMailbox_suffix {f : Mailbox → Mailbox} {j : Nat}
    (hf : ∀ m : Mailbox, (f m).pipe.queue <:+ m.pipe.queue) : (x.changeMailbox j f).queue k <:+ x.queue k := by
  simp only [queue, getElem?_changeMailbox]
  split
  case isFalse => exact List.suffix_rfl
  case isTrue =>
    cases x.mailboxes[k]?
    case none => exact List.suffix_rfl
    case some m => exact hf m

theorem queue_changeMailbox_of_eq {f : Mailbox → Mailbox} {j : Nat}
    (hf : ∀ m : Mailbox, (f m).pipe.queue = m.pipe.queue) : (x.changeMailbox j f).queue k = x.queue k := by
  simp only [queue, getElem?_changeMailbox]
  split
  case isFalse => rfl
  case isTrue => cases x.mailboxes[k]? <;> simp [hf]

theorem queue_reply_prefix {j : Nat} :
    (x.changeMailbox j (·.reply n)).queue k = x.queue k ∨
      (x.changeMailbox j (·.reply n)).queue k = x.queue k ++ [n] := by
  simp only [queue, getElem?_changeMailbox]
  split
  case isFalse => exact .inl rfl
  case isTrue =>
    cases x.mailboxes[k]?
    case none => exact .inl rfl
    case some m =>
      simp only [Option.map_some, Option.getD_some, Mailbox.queue_reply]
      split
      case isTrue => exact .inr rfl
      case isFalse => exact .inl (List.append_nil _)

theorem offer_of_not_isLive (h : ¬ x.roster.IsLive id) : x.offer n id = x := by
  simp [offer, Roster.not_isLive_iff.mp h]

theorem offer_eq (he : x.roster.entry? id = some e) :
    x.offer n id =
      { x.changeMailbox e.mailbox (·.put n) with
        deliveries := x.deliveries + if 0 < x.vacancy id then 1 else 0
        doomed := x.doomed ++ if 0 < x.vacancy id then [] else [id] } := by
  have ha : (x.mailboxes[e.mailbox]?.map fun m => m.pipe.outcome) = some .accepted ↔
      0 < x.vacancy id := by
    rw [vacancy_eq he]
    cases x.mailboxes[e.mailbox]? <;> simp [Mailbox.outcome_eq_accepted_iff]
  simp only [offer, he, ha]
  split
  case isTrue => simp [changeMailbox]
  case isFalse h =>
    -- Nothing is put into a mailbox that takes nothing.
    have hb : (x.changeMailbox e.mailbox (·.put n)).mailboxes = x.mailboxes := by
      apply ExtTreeMap.ext_getElem?
      intro k
      rw [getElem?_changeMailbox]
      split
      case isTrue hk =>
        rw [vacancy_eq he, hk] at h
        cases hm : x.mailboxes[k]?
        case none => rfl
        case some m =>
          have hv : m.vacancy = 0 := by simpa [hm] using h
          simp [Mailbox.put_of_vacancy_eq_zero hv]
      case isFalse => rfl
    simp only [hb, Nat.add_zero]
    rfl

theorem offer_supply : (x.offer n id).supply = x.supply := by
  simp only [offer]
  split
  case h_1 => rfl
  case h_2 => split <;> rfl

theorem offer_evictions : (x.offer n id).evictions = x.evictions := by
  simp only [offer]
  split
  case h_1 => rfl
  case h_2 => split <;> rfl

theorem getElem?_offer (he : x.roster.entry? id = some e) :
    (x.offer n id).mailboxes[k]? =
      if e.mailbox = k then x.mailboxes[k]?.map (·.put n) else x.mailboxes[k]? := by
  rw [offer_eq he]
  exact getElem?_changeMailbox

theorem writable?_offer : (x.offer n id).writable? k = x.writable? k := by
  simp only [writable?]
  by_cases hl : x.roster.IsLive id
  case neg => rw [offer_of_not_isLive hl]
  case pos =>
    have ⟨e, he⟩ := Roster.isLive_iff.mp hl
    rw [getElem?_offer he]
    split
    case isTrue => cases x.mailboxes[k]? <;> simp [Mailbox.writable_put]
    case isFalse => rfl

-- Every connection has a mailbox of its own, and the exchange may write to it.
structure Sound (x : Exchange) : Prop where
  roster : x.roster.Consistent
  held   : ∀ id e, x.roster.entry? id = some e → x.writable? e.mailbox = some true
  apart  : ∀ id id' e e', x.roster.entry? id = some e → x.roster.entry? id' = some e' →
    e.mailbox = e'.mailbox → id = id'

namespace Sound

-- Soundness hangs on nothing but the roster and on which of its mailboxes may be written to.
theorem of_writable? {y : Exchange} (h : x.Sound) (hr : y.roster = x.roster)
    (hw : ∀ id e, x.roster.entry? id = some e → y.writable? e.mailbox = x.writable? e.mailbox) :
    y.Sound where
  roster := hr ▸ h.roster
  held id e he := (hw id e (hr ▸ he)).trans <| h.held id e (hr ▸ he)
  apart id id' e e' he he' := h.apart id id' e e' (hr ▸ he) (hr ▸ he')

theorem offer (h : x.Sound) : (x.offer n id).Sound :=
  h.of_writable? (offer_roster ..) fun _ _ _ => writable?_offer

theorem offerAll (h : x.Sound) : (x.offerAll n ids).Sound := by
  induction ids generalizing x
  case nil => exact h
  case cons id ids hi => exact hi h.offer

theorem mem_boxes (h : x.Sound) (he : x.roster.entry? id = some e) :
    e.mailbox ∈ x.boxes ids ↔ id ∈ ids := by
  simp only [boxes, List.mem_filterMap, Option.map_eq_some_iff]
  constructor
  case mp =>
    rintro ⟨id', hm, e', he', hb⟩
    exact h.apart id' id e' e he' he hb ▸ hm
  case mpr => exact fun hm => ⟨id, hm, e, he, rfl⟩

theorem vacancy_offer (h : x.Sound) (hl : x.roster.IsLive id) :
    (x.offer n id').vacancy id = if id' = id then x.vacancy id - 1 else x.vacancy id := by
  have ⟨e, he⟩ := Roster.isLive_iff.mp hl
  have heo : (x.offer n id').roster.entry? id = some e := (offer_roster n x id').symm ▸ he
  rw [vacancy_eq heo, vacancy_eq he]
  by_cases hl' : x.roster.IsLive id'
  case neg =>
    have hn : id' ≠ id := fun hn => hl' (hn ▸ hl)
    simp [offer_of_not_isLive hl', hn]
  case pos =>
    have ⟨e', he'⟩ := Roster.isLive_iff.mp hl'
    rw [getElem?_offer he']
    by_cases hn : id' = id
    case pos =>
      subst hn
      cases Option.some.inj (he.symm.trans he')
      cases x.mailboxes[e.mailbox]? <;> simp [Mailbox.vacancy_put]
    case neg =>
      have hb : e'.mailbox ≠ e.mailbox := fun hb => hn (h.apart id' id e' e he' he hb)
      simp [hn, hb]

end Sound

theorem offerAll_supply : (x.offerAll n ids).supply = x.supply := by
  induction ids generalizing x
  case nil => rfl
  case cons id ids hi => exact hi.trans offer_supply

theorem offerAll_evictions : (x.offerAll n ids).evictions = x.evictions := by
  induction ids generalizing x
  case nil => rfl
  case cons id ids hi => exact hi.trans offer_evictions

namespace Sound

-- No offer has a bearing on another one, since nobody shares a mailbox.
theorem offerAll_counts (h : x.Sound) (hn : ids.Nodup) (hl : ∀ id ∈ ids, x.roster.IsLive id) :
    (x.offerAll n ids).doomed = x.doomed ++ ids.filter (x.vacancy · = 0) ∧
      (x.offerAll n ids).deliveries = x.deliveries + (ids.filter (0 < x.vacancy ·)).length := by
  induction ids generalizing x
  case nil => simp [Exchange.offerAll]
  case cons id ids hi =>
    have ⟨hnm, hn⟩ := List.nodup_cons.mp hn
    have ⟨e, he⟩ := Roster.isLive_iff.mp (hl id List.mem_cons_self)
    have hv : ∀ id' ∈ ids, (x.offer n id).vacancy id' = x.vacancy id' := by
      intro id' hm
      have hne : id ≠ id' := fun hne => hnm (hne ▸ hm)
      simp [h.vacancy_offer (hl id' (List.mem_cons_of_mem _ hm)), hne]
    have hl' : ∀ id' ∈ ids, (x.offer n id).roster.IsLive id' := by
      intro id' hm
      rw [offer_roster]
      exact hl id' (List.mem_cons_of_mem _ hm)
    have ⟨hd, hc⟩ := hi h.offer hn hl'
    rw [List.filter_congr fun id' hm => by rw [hv id' hm]] at hd hc
    change ((x.offer n id).offerAll n ids).doomed = _ ∧ ((x.offer n id).offerAll n ids).deliveries = _
    rw [hd, hc, offer_eq he]
    by_cases h0 : x.vacancy id = 0
    case pos => simp [h0]
    case neg => simp [h0, Nat.pos_of_ne_zero h0]; omega

theorem getElem?_offerAll (h : x.Sound) (hn : ids.Nodup) (hl : ∀ id ∈ ids, x.roster.IsLive id) :
    (x.offerAll n ids).mailboxes[k]? =
      if k ∈ x.boxes ids then x.mailboxes[k]?.map (·.put n) else x.mailboxes[k]? := by
  induction ids generalizing x
  case nil => rfl
  case cons id ids hi =>
    have ⟨hnm, hn⟩ := List.nodup_cons.mp hn
    have ⟨e, he⟩ := Roster.isLive_iff.mp (hl id List.mem_cons_self)
    have hl' : ∀ id' ∈ ids, (x.offer n id).roster.IsLive id' := by
      intro id' hm
      rw [offer_roster]
      exact hl id' (List.mem_cons_of_mem _ hm)
    have hb : (x.offer n id).boxes ids = x.boxes ids := by simp [boxes, offer_roster]
    have hc : x.boxes (id :: ids) = e.mailbox :: x.boxes ids := by simp [boxes, he]
    change ((x.offer n id).offerAll n ids).mailboxes[k]? = _
    rw [hi h.offer hn hl', hb, hc, getElem?_offer he]
    by_cases hk : e.mailbox = k
    case pos =>
      have : k ∉ x.boxes ids := hk ▸ fun hm => hnm ((h.mem_boxes he).mp hm)
      simp [hk, this]
    case neg => simp [hk, Ne.symm hk]

-- What a single connection sees of it.
theorem queue_offerAll (h : x.Sound) (hn : ids.Nodup) (hl : ∀ id ∈ ids, x.roster.IsLive id)
    (he : x.roster.entry? id = some e) :
    (x.offerAll n ids).queue e.mailbox =
      x.queue e.mailbox ++ if id ∈ ids ∧ 0 < x.vacancy id then [n] else [] := by
  simp only [queue, h.getElem?_offerAll hn hl, h.mem_boxes he, vacancy_eq he]
  by_cases hm : id ∈ ids
  case pos => cases x.mailboxes[e.mailbox]? <;> simp [hm, Mailbox.queue_put]
  case neg => simp [hm]

theorem vacancy_offerAll (h : x.Sound) (hn : ids.Nodup) (hl : ∀ id ∈ ids, x.roster.IsLive id)
    (hv : x.roster.IsLive id) :
    (x.offerAll n ids).vacancy id = if id ∈ ids then x.vacancy id - 1 else x.vacancy id := by
  have ⟨e, he⟩ := Roster.isLive_iff.mp hv
  have heo : (x.offerAll n ids).roster.entry? id = some e := (offerAll_roster n ids x).symm ▸ he
  simp only [vacancy_eq heo, vacancy_eq he, h.getElem?_offerAll hn hl, h.mem_boxes he]
  split
  case isTrue => cases x.mailboxes[e.mailbox]? <;> simp [Mailbox.vacancy_put]
  case isFalse => rfl

-- A mailbox that belongs to nobody alive is left alone.
theorem queue_offerAll_of_free (h : x.Sound) (hn : ids.Nodup) (hl : ∀ id ∈ ids, x.roster.IsLive id)
    (hk : ∀ id e, x.roster.entry? id = some e → e.mailbox ≠ k) :
    (x.offerAll n ids).queue k = x.queue k := by
  have hb : k ∉ x.boxes ids := by
    simp only [boxes, List.mem_filterMap, Option.map_eq_some_iff, not_exists, not_and]
    exact fun id _ e he => hk id e he
  simp [queue, h.getElem?_offerAll hn hl, hb]

end Sound
end Exchange
end Parley
