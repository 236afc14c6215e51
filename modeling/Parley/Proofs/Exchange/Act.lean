import Parley.Proofs.Exchange.Removal

namespace Parley

open Std

namespace Exchange

-- What an exchange does, one act at a time.  Notices that are offered are either its own, or were posted by
-- someone.
inductive Act where
  | issue
  | offer (own : Bool) (n : Notice) (id : ConnectionId)
  | retire (id : ConnectionId)
  | enter (r : Registration)
  | join (id : ConnectionId) (room : String)
  | leave (id : ConnectionId) (room : String)
  | strike (evicted : Bool)

-- A notice that was offered to a live connection.
structure Attempt where
  own       : Bool
  notice    : Notice
  recipient : ConnectionId
  mailbox   : Nat
  outcome   : Pipe.Sent

namespace Act

def apply (x : Exchange) : Act → Exchange
  | issue        => { x with supply := x.supply.next }
  | offer _ n id => x.offer n id
  | enter r      => x.enter r
  | join id room => { x with roster := (x.roster.join id room).2 }
  | leave id room => { x with roster := (x.roster.leave id room).2 }
  | strike evicted =>
    { x with doomed := x.doomed.tail, evictions := x.evictions + if evicted then 1 else 0 }
  | retire id =>
    match x.roster.entry? id with
    | none   => x
    | some e => x.retire id e

-- What is noted down of an act.
def attempt? (x : Exchange) : Act → Option Attempt
  | offer own notice recipient =>
    (x.roster.entry? recipient).map fun e =>
      let outcome := (x.mailboxes[e.mailbox]?.map (·.pipe.outcome)).getD .closed
      { own, notice, recipient, mailbox := e.mailbox, outcome }
  | _ => none

end Act

namespace Attempt

-- What a mailbox gets by an attempt.
def enqueued? (k : Nat) (a : Attempt) : Option Notice :=
  if a.mailbox = k ∧ a.outcome = .accepted then some a.notice else none

-- The mailbox that an attempt put something into.
def filled? (a : Attempt) : Option Nat :=
  if a.outcome = .accepted then some a.mailbox else none

-- Who is doomed by an attempt.
def refused? (a : Attempt) : Option ConnectionId :=
  if a.outcome = .accepted then none else some a.recipient

end Attempt

variable {x y : Exchange} {n : Notice} {id v : ConnectionId} {ids : List ConnectionId} {e : Entry}
  {k : Nat} {act : Act} {as bs : List Act} {a : Attempt} {own : Bool}

def replay (x : Exchange) (as : List Act) : Exchange :=
  as.foldl Act.apply x

def attempts (x : Exchange) : List Act → List Attempt
  | []        => []
  | act :: as => (act.attempt? x).toList ++ (act.apply x).attempts as

-- What a connection was offered.
def offered (x : Exchange) (v : ConnectionId) (as : List Act) : List Notice :=
  ((x.attempts as).filter (·.recipient = v)).map (·.notice)

theorem replay_append : x.replay (as ++ bs) = (x.replay as).replay bs :=
  List.foldl_append

theorem attempts_append : x.attempts (as ++ bs) = x.attempts as ++ (x.replay as).attempts bs := by
  induction as generalizing x
  case nil => rfl
  case cons hi => simp only [List.cons_append, attempts, hi, List.append_assoc]; rfl

theorem filterMap_attempts_cons {β : Type} {f : Attempt → Option β} :
    (x.attempts (act :: as)).filterMap f =
      ((act.attempt? x).bind f).toList ++ ((act.apply x).attempts as).filterMap f := by
  rw [attempts, List.filterMap_append]
  cases act.attempt? x
  case none => rfl
  case some a => cases h : f a <;> simp [h]

theorem replay_offers : x.replay (ids.map (.offer own n)) = x.offerAll n ids := by
  rw [replay, List.foldl_map]
  rfl

theorem offer_of_attempt? (h : (Act.offer own n id).attempt? x = some a) :
    x.offer n id =
      if a.outcome = .accepted then
        { x.changeMailbox a.mailbox (·.put n) with deliveries := x.deliveries + 1 }
      else { x with doomed := x.doomed ++ [id] } := by
  have ⟨e, he, ha⟩ := Option.map_eq_some_iff.mp h
  subst ha
  simp only [offer, he]
  cases x.mailboxes[e.mailbox]? <;> simp

theorem offer_of_attempt?_eq_none (h : (Act.offer own n id).attempt? x = none) : x.offer n id = x :=
  offer_of_not_isLive <| Roster.not_isLive_iff.mpr <| Option.map_eq_none_iff.mp h

theorem queue_apply :
    (act.apply x).queue k = x.queue k ++ ((act.attempt? x).bind (·.enqueued? k)).toList := by
  cases act
  case offer own n id =>
    cases ha : (Act.offer own n id).attempt? x
    case none => simp [Act.apply, offer_of_attempt?_eq_none ha]
    case some a =>
      have ⟨e, _, he⟩ := Option.map_eq_some_iff.mp ha
      subst he
      simp only [Act.apply, offer_of_attempt? ha, Option.bind_some, Attempt.enqueued?]
      by_cases hk : e.mailbox = k
      case neg => split <;> simp [queue, getElem?_changeMailbox, hk]
      case pos =>
        subst hk
        cases hm : x.mailboxes[e.mailbox]?
        case none => simp [queue, hm]
        case some m =>
          simp only [Option.map_some, Option.getD_some, true_and]
          split
          case isTrue ho => simp [queue, getElem?_changeMailbox, hm, Mailbox.put, Pipe.send, ho]
          case isFalse => simp [queue]
  case retire id =>
    simp only [Act.apply, Act.attempt?, Option.bind_none, Option.toList_none, List.append_nil]
    split
    case h_1 => rfl
    case h_2 e _ =>
      change (x.retired id e).queue k = _
      exact queue_retired
  case enter r =>
    simp only [Act.apply, Act.attempt?, Option.bind_none, Option.toList_none, List.append_nil, enter]
    split
    case h_1 e _ =>
      simp only [queue, getElem?_changeMailbox]
      split
      case isTrue => cases x.mailboxes[k]? <;> rfl
      case isFalse => rfl
    case h_2 => rfl
  all_goals simp [Act.apply, Act.attempt?, queue]

-- A mailbox holds what it held before, and then whatever it was given, in the order of the attempts.
theorem queue_replay : (x.replay as).queue k = x.queue k ++ (x.attempts as).filterMap (·.enqueued? k) := by
  induction as generalizing x
  case nil => simp [replay, attempts]
  case cons act as hi =>
    change ((act.apply x).replay as).queue k = _
    rw [hi, queue_apply, filterMap_attempts_cons, List.append_assoc]

-- Without strikes, those whom an attempt dooms are added to those who were doomed before.
theorem doomed_replay (h : ∀ evicted, .strike evicted ∉ as) :
    (x.replay as).doomed = x.doomed ++ (x.attempts as).filterMap (·.refused?) := by
  induction as generalizing x
  case nil => simp [replay, attempts]
  case cons act as hi =>
    have hd : (act.apply x).doomed = x.doomed ++ ((act.attempt? x).bind (·.refused?)).toList := by
      cases act
      case offer own n id =>
        cases ha : (Act.offer own n id).attempt? x
        case none => simp [Act.apply, offer_of_attempt?_eq_none ha]
        case some a =>
          have ⟨_, _, he⟩ := Option.map_eq_some_iff.mp ha
          have hr : a.recipient = id := by simp [← he]
          simp only [Act.apply, offer_of_attempt? ha, Option.bind_some, Attempt.refused?, hr]
          split <;> simp [changeMailbox]
      case strike evicted => exact absurd List.mem_cons_self (h evicted)
      case retire id =>
        simp only [Act.apply, Act.attempt?, Option.bind_none, Option.toList_none, List.append_nil]
        split <;> rfl
      case enter r =>
        simp only [Act.apply, Act.attempt?, Option.bind_none, Option.toList_none, List.append_nil, enter]
        split <;> rfl
      all_goals simp [Act.apply, Act.attempt?]
    change ((act.apply x).replay as).doomed = _
    rw [hi fun evicted hm => h evicted (List.mem_cons_of_mem _ hm), hd, filterMap_attempts_cons,
      List.append_assoc]

theorem evictions_replay (h : ∀ evicted, .strike evicted ∉ as) :
    (x.replay as).evictions = x.evictions := by
  induction as generalizing x
  case nil => rfl
  case cons act as hi =>
    have he : (act.apply x).evictions = x.evictions := by
      cases act
      case offer => exact offer_evictions
      case strike evicted => exact absurd List.mem_cons_self (h evicted)
      case retire id =>
        simp only [Act.apply]
        split <;> rfl
      case enter r =>
        simp only [Act.apply, enter]
        split <;> rfl
      all_goals rfl
    change ((act.apply x).replay as).evictions = _
    rw [hi fun evicted hm => h evicted (List.mem_cons_of_mem _ hm), he]

-- Every accepted attempt counts as a delivery.
theorem deliveries_replay :
    (x.replay as).deliveries = x.deliveries + ((x.attempts as).filterMap (·.filled?)).length := by
  induction as generalizing x
  case nil => simp [replay, attempts]
  case cons act as hi =>
    have hd : (act.apply x).deliveries =
        x.deliveries + ((act.attempt? x).bind (·.filled?)).toList.length := by
      cases act
      case offer own n id =>
        cases ha : (Act.offer own n id).attempt? x
        case none => simp [Act.apply, offer_of_attempt?_eq_none ha]
        case some a =>
          simp only [Act.apply, offer_of_attempt? ha, Option.bind_some, Attempt.filled?]
          split <;> simp
      case retire id =>
        simp only [Act.apply, Act.attempt?, Option.bind_none, Option.toList_none, List.length_nil]
        split <;> rfl
      case enter r =>
        simp only [Act.apply, Act.attempt?, Option.bind_none, Option.toList_none, List.length_nil, enter]
        split <;> rfl
      all_goals simp [Act.apply, Act.attempt?]
    change ((act.apply x).replay as).deliveries = _
    rw [hi, hd, filterMap_attempts_cons, List.length_append, Nat.add_assoc]

-- The mailbox of a connection.
def address (x : Exchange) (id : ConnectionId) : Option Nat :=
  (x.roster.entry? id).map (·.mailbox)

-- A connection has a mailbox, and nobody else has it.
def Owns (x : Exchange) (v : ConnectionId) (k : Nat) : Prop :=
  ∀ w, x.address w = some k ↔ w = v

theorem isLive_iff_address : x.roster.IsLive id ↔ ∃ k, x.address id = some k := by
  simp only [address, Roster.isLive_iff, Option.map_eq_some_iff]
  constructor
  case mp => exact fun ⟨e, he⟩ => ⟨e.mailbox, e, he, rfl⟩
  case mpr => exact fun ⟨_, e, he, _⟩ => ⟨e, he⟩

theorem Sound.owns (h : x.Sound) (he : x.roster.entry? v = some e) : x.Owns v e.mailbox := by
  intro w
  simp only [address, Option.map_eq_some_iff]
  constructor
  case mp =>
    rintro ⟨e', he', hk⟩
    exact h.apart w v e' e he' he hk
  case mpr =>
    rintro rfl
    exact ⟨e, he, rfl⟩

-- Who comes or goes decides on addresses, and nothing else does.
theorem address_apply :
    (act.apply x).address v =
      match act with
      | .retire id => if id = v then none else x.address v
      | .enter r   => if r.id = v then some r.mailbox else x.address v
      | _          => x.address v := by
  cases act
  case offer => simp [Act.apply, address, offer_roster]
  case join => exact Roster.map_entry?_join _ fun _ _ => rfl
  case leave => exact Roster.map_entry?_leave _ fun _ _ => rfl
  case issue | strike => rfl
  case retire id =>
    simp only [Act.apply]
    split
    case h_1 he =>
      split
      case isTrue hv => simp [address, ← hv, he]
      case isFalse => rfl
    case h_2 e he =>
      change ((Roster.entry? (x.roster.remove id) v).map _) = _
      rw [Roster.entry?_remove]
      split <;> rfl
  case enter r =>
    have hr : (x.enter r).roster = x.roster.insert r.id r.identity r.mailbox := by
      simp only [enter]
      split <;> rfl
    simp only [Act.apply, address, hr, Roster.entry?_insert]
    split <;> rfl

-- Acts by which a connection neither goes nor comes.
def Keeps (v : ConnectionId) (as : List Act) : Prop :=
  .retire v ∉ as ∧ ∀ r, .enter r ∈ as → r.id ≠ v

theorem keeps_cons : Keeps v (act :: as) ↔ Keeps v [act] ∧ Keeps v as := by
  simp only [Keeps, List.mem_cons, List.not_mem_nil, or_false]
  grind

theorem Keeps.address_apply (h : Keeps v [act]) : (act.apply x).address v = x.address v := by
  rw [Exchange.address_apply]
  cases act
  case retire id =>
    have hn : id ≠ v := fun heq => h.1 (heq ▸ List.mem_cons_self)
    exact if_neg hn
  case enter r => exact if_neg (h.2 r List.mem_cons_self)
  all_goals rfl

theorem Keeps.address_replay (h : Keeps v as) : (x.replay as).address v = x.address v := by
  induction as generalizing x
  case nil => rfl
  case cons act as hi =>
    have ⟨ha, h⟩ := keeps_cons.mp h
    exact (hi h).trans ha.address_apply

-- Acts that keep the mailbox of a connection for it alone.
def Spares (v : ConnectionId) (k : Nat) (as : List Act) : Prop :=
  .retire v ∉ as ∧ ∀ r, .enter r ∈ as → r.id ≠ v ∧ r.mailbox ≠ k

theorem spares_cons : Spares v k (act :: as) ↔ Spares v k [act] ∧ Spares v k as := by
  simp only [Spares, List.mem_cons, List.not_mem_nil, or_false]
  grind

theorem spares_append : Spares v k (as ++ bs) ↔ Spares v k as ∧ Spares v k bs := by
  simp only [Spares, List.mem_append]
  grind

theorem Owns.apply (h : x.Owns v k) (hs : Spares v k [act]) : (act.apply x).Owns v k := by
  intro w
  rw [address_apply]
  cases act
  case retire id =>
    have hn : id ≠ v := fun heq => hs.1 (heq ▸ List.mem_cons_self)
    have := h w
    grind
  case enter r =>
    have ⟨hn, hk⟩ := hs.2 r List.mem_cons_self
    have := h w
    grind
  all_goals exact h w

theorem Owns.replay (h : x.Owns v k) (hs : Spares v k as) : (x.replay as).Owns v k := by
  induction as generalizing x
  case nil => exact h
  case cons act as hi =>
    have ⟨ha, hs⟩ := spares_cons.mp hs
    exact hi (h.apply ha) hs

theorem address_of_attempt? (h : act.attempt? x = some a) : x.address a.recipient = some a.mailbox := by
  cases act <;> simp only [Act.attempt?, reduceCtorEq, Option.map_eq_some_iff] at h
  case offer =>
    have ⟨e, he, ha⟩ := h
    simp [address, ← ha, he]

theorem mem_attempts_cons :
    a ∈ x.attempts (act :: as) ↔ act.attempt? x = some a ∨ a ∈ (act.apply x).attempts as := by
  simp [attempts]

theorem offer_mem_of_mem_attempts (h : a ∈ x.attempts as) : .offer a.own a.notice a.recipient ∈ as := by
  induction as generalizing x
  case nil => cases h
  case cons act as hi =>
    cases mem_attempts_cons.mp h
    case inr hm => exact List.mem_cons_of_mem _ (hi hm)
    case inl hm =>
      cases act <;> simp only [Act.attempt?, reduceCtorEq, Option.map_eq_some_iff] at hm
      case offer =>
        have ⟨_, _, ha⟩ := hm
        subst ha
        exact List.mem_cons_self

-- Whatever a connection is offered is meant for its mailbox.
theorem Keeps.address_eq (h : Keeps a.recipient as) (ha : a ∈ x.attempts as) :
    x.address a.recipient = some a.mailbox := by
  induction as generalizing x
  case nil => cases ha
  case cons act as hi =>
    have ⟨hact, h⟩ := keeps_cons.mp h
    cases mem_attempts_cons.mp ha
    case inl hm => exact address_of_attempt? hm
    case inr hm => exact hact.address_apply.symm.trans (hi h hm)

-- What goes into somebody's mailbox was meant for them.
theorem Owns.mailbox_eq_iff (h : x.Owns v k) (hs : Spares v k as) (ha : a ∈ x.attempts as) :
    a.mailbox = k ↔ a.recipient = v := by
  induction as generalizing x
  case nil => cases ha
  case cons act as hi =>
    have ⟨hact, hs⟩ := spares_cons.mp hs
    cases mem_attempts_cons.mp ha
    case inr hm => exact hi (h.apply hact) hs hm
    case inl hm =>
      have := address_of_attempt? hm
      have := h a.recipient
      grind

theorem filterMap_enqueued? {l : List Attempt} (hb : ∀ a ∈ l, a.mailbox = k ↔ a.recipient = v)
    (ha : ∀ a ∈ l, a.recipient = v → a.outcome = .accepted) :
    l.filterMap (·.enqueued? k) = (l.filter (·.recipient = v)).map (·.notice) := by
  induction l
  case nil => rfl
  case cons a l hi =>
    have hi := hi (fun a hm => hb a (List.mem_cons_of_mem _ hm)) fun a hm => ha a (List.mem_cons_of_mem _ hm)
    have hb := hb a List.mem_cons_self
    by_cases hr : a.recipient = v
    case pos =>
      have he : a.enqueued? k = some a.notice := if_pos ⟨hb.mpr hr, ha a List.mem_cons_self hr⟩
      simp [he, hr, hi]
    case neg =>
      have he : a.enqueued? k = none := if_neg fun h => hr (hb.mp h.1)
      simp [he, hr, hi]

-- Whoever refuses nothing finds all that it was offered in its mailbox.
theorem Owns.queue_replay (h : x.Owns v k) (hs : Spares v k as)
    (ha : ∀ a ∈ x.attempts as, a.recipient = v → a.outcome = .accepted) :
    (x.replay as).queue k = x.queue k ++ x.offered v as := by
  rw [Exchange.queue_replay, filterMap_enqueued? (fun _ => h.mailbox_eq_iff hs) ha, offered]

theorem isLive_apply (h : act ≠ .retire v) (hl : x.roster.IsLive v) : (act.apply x).roster.IsLive v := by
  rw [isLive_iff_address] at hl ⊢
  rw [address_apply]
  cases act
  case retire id =>
    have hn : id ≠ v := fun heq => h (heq ▸ rfl)
    simpa [hn] using hl
  case enter r => grind
  all_goals exact hl

theorem isLive_replay (h : .retire v ∉ as) (hl : x.roster.IsLive v) : (x.replay as).roster.IsLive v := by
  induction as generalizing x
  case nil => exact hl
  case cons act as hi =>
    have ⟨hn, h⟩ := not_or.mp <| mt List.mem_cons.mpr h
    exact hi h (isLive_apply (Ne.symm hn) hl)

theorem isLive_of_apply (h : ∀ r, act ≠ .enter r) (hl : (act.apply x).roster.IsLive v) :
    x.roster.IsLive v := by
  rw [isLive_iff_address] at hl ⊢
  rw [address_apply] at hl
  cases act
  case retire id =>
    simp only at hl
    split at hl
    case isTrue => exact nomatch hl
    case isFalse => exact hl
  case enter r => exact absurd rfl (h r)
  all_goals exact hl

-- Unless someone is entered, whoever is offered anything has been there from the beginning.
theorem isLive_of_mem_attempts (h : ∀ r, .enter r ∉ as) (ha : a ∈ x.attempts as) :
    x.roster.IsLive a.recipient := by
  induction as generalizing x
  case nil => cases ha
  case cons act as hi =>
    cases mem_attempts_cons.mp ha
    case inl hm => exact isLive_iff_address.mpr ⟨_, address_of_attempt? hm⟩
    case inr hm =>
      have hl := hi (fun r hr => h r (List.mem_cons_of_mem _ hr)) hm
      exact isLive_of_apply (fun r hr => h r (hr ▸ List.mem_cons_self)) hl

-- Only the living are offered anything, and they live on until they are retired.
theorem isLive_replay_of_attempt (h : .retire a.recipient ∉ as) (ha : a ∈ x.attempts as) :
    (x.replay as).roster.IsLive a.recipient := by
  induction as generalizing x
  case nil => cases ha
  case cons act as hi =>
    have ⟨hn, hs⟩ := not_or.mp <| mt List.mem_cons.mpr h
    cases mem_attempts_cons.mp ha
    case inr hm => exact hi hs hm
    case inl hm =>
      have hl := isLive_iff_address.mpr ⟨_, address_of_attempt? hm⟩
      have hr : ((act.apply x).replay as).roster.IsLive a.recipient :=
        isLive_replay hs <| isLive_apply (Ne.symm hn) hl
      exact hr

theorem offered_append : x.offered v (as ++ bs) = x.offered v as ++ (x.replay as).offered v bs := by
  simp [offered, attempts_append]

theorem offer_mem_of_mem_offered (h : n ∈ x.offered v as) : ∃ own, .offer own n v ∈ as := by
  have ⟨a, hm, hn⟩ := List.mem_map.mp h
  have ⟨hm, hr⟩ := List.mem_filter.mp hm
  exact ⟨a.own, hn ▸ of_decide_eq_true hr ▸ offer_mem_of_mem_attempts hm⟩

-- Of a notice for many, everyone among them gets one offer.
theorem filter_attempts_offers {b : Bool} {q : Bool → Notice → Prop} [∀ own n, Decidable (q own n)]
    (hn : ids.Nodup) (hl : ∀ id ∈ ids, x.roster.IsLive id) :
    ((x.attempts (ids.map (.offer b n))).filter fun a =>
      a.recipient = v ∧ q a.own a.notice).map (·.notice) = if v ∈ ids ∧ q b n then [n] else [] := by
  induction ids generalizing x
  case nil => simp [attempts]
  case cons id ids hi =>
    have ⟨hnm, hn⟩ := List.nodup_cons.mp hn
    have ⟨e, he⟩ := Roster.isLive_iff.mp (hl id List.mem_cons_self)
    have hl' : ∀ id' ∈ ids, (x.offer n id).roster.IsLive id' := by
      intro id' hm
      rw [offer_roster]
      exact hl id' (List.mem_cons_of_mem _ hm)
    rw [List.map_cons, attempts, List.filter_append, List.map_append]
    change _ ++ (((x.offer n id).attempts _).filter _).map _ = _
    rw [hi hn hl']
    by_cases hv : v = id
    case pos => by_cases hq : q b n <;> simp [Act.attempt?, he, hv, hnm, hq]
    case neg => simp [Act.attempt?, he, hv, Ne.symm hv]

theorem offered_offers (hn : ids.Nodup) (hl : ∀ id ∈ ids, x.roster.IsLive id) :
    x.offered v (ids.map (.offer own n)) = if v ∈ ids then [n] else [] := by
  have h := filter_attempts_offers (v := v) (n := n) (q := fun _ _ => True) (b := own) hn hl
  simpa [offered] using h

end Exchange
end Parley
