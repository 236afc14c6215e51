import Parley.Proofs.Exchange.Outcome

namespace Parley

open Std

namespace Exchange

-- A registration that comes with an id that is not in use, and with a mailbox of its own, which nobody has
-- let go of so far.
structure Newcomer (x : Exchange) (r : Registration) : Prop where
  fresh : ¬ x.roster.IsLive r.id
  held  : x.writable? r.mailbox = some true
  own   : ∀ id e, x.roster.entry? id = some e → e.mailbox ≠ r.mailbox

-- Commands that the exchange may be given; only registrations are held to anything.
def Allows (x : Exchange) : Command → Prop
  | .register r => x.Newcomer r
  | _           => True

theorem Allows.admits {x : Exchange} {c : Command} (h : x.Allows c) : x.Admits c := by
  cases c
  case register => exact h.fresh
  all_goals trivial

variable {x : Exchange} {n : Notice} {id v : ConnectionId} {ids : List ConnectionId} {e e' : Entry}
  {k : Nat} {l : Listing} {c : Command} {r : Registration} {name room : String}
  {make : Notice.Stamp → Notice} {who : Identity} {a : Audience} {except : Bool} {p : Post}

-- Where nobody is there, whoever comes needs nothing but a mailbox.
theorem newcomer_first (hx : ∀ id, ¬ x.roster.IsLive id) (hw : x.writable? r.mailbox = some true) : x.Newcomer r :=
  ⟨hx r.id, hw, fun _ _ he => absurd (Roster.IsLive.of_some he) (hx _)⟩

-- Where nobody was there, whoever comes second needs a mailbox other than that of the first.
theorem newcomer_second {r' : Registration} (hx : ∀ id, ¬ x.roster.IsLive id) (hi : r'.id ≠ r.id)
    (hk : r.mailbox ≠ r'.mailbox) (hw : (x.perform l (.register r)).writable? r'.mailbox = some true) :
    (x.perform l (.register r)).Newcomer r' := by
  have hall (id : ConnectionId) (e : Entry) (he : (x.perform l (.register r)).roster.entry? id = some e) :
      id = r.id ∧ e.mailbox = r.mailbox := by
    rw [perform_roster, nextRoster, Roster.entry?_insert] at he
    split at he
    case isTrue heq => cases he; exact ⟨heq.symm, rfl⟩
    case isFalse =>
      rw [Roster.entry?_vacate] at he
      split at he
      case isTrue => cases he
      case isFalse => exact absurd (Roster.IsLive.of_some he) (hx id)
  refine ⟨fun hl => ?_, hw, fun id e he => (hall id e he).2 ▸ hk⟩
  obtain ⟨e, he⟩ := Roster.isLive_iff.mp hl
  exact hi (hall _ e he).1

theorem writable?_offerAll : (x.offerAll n ids).writable? k = x.writable? k := by
  induction ids generalizing x
  case nil => rfl
  case cons hi => exact hi.trans writable?_offer

theorem writable?_retired (h : e.mailbox ≠ k) : (x.retired id e).writable? k = x.writable? k := by
  rw [writable?, getElem?_retired, if_neg h]
  rfl

theorem Sound.writable?_unregister (h : x.Sound) (hk : ∀ e, x.roster.entry? id = some e → e.mailbox ≠ k) :
    (x.unregister l id).writable? k = x.writable? k := by
  cases he : x.roster.entry? id
  case none => simp [Exchange.unregister, he]
  case some e => rw [unregister_eq h.roster he, writable?_offerAll, writable?_retired (hk e he)]

-- An operation that lets at most one connection go.
theorem displace_eq (x : Exchange) (l : Listing) (name : String) : x.displace l name = x ∨
    ∃ old, x.roster.lookup name = some old ∧ x.displace l name = x.unregister l old := by
  simp only [displace]
  split
  case h_1 old hl => exact .inr ⟨old, hl, rfl⟩
  case h_2 => exact .inl rfl

theorem enter_eq (h : ¬ x.roster.IsLive r.id) :
    x.enter r = { x with roster := x.roster.insert r.id r.identity r.mailbox } := by
  simp [enter, Roster.not_isLive_iff.mp h]

namespace Sound

theorem displace (h : x.Sound) : (x.displace l name).Sound := by
  obtain hd | ⟨old, _, hd⟩ := displace_eq x l name
  · exact hd.symm ▸ h
  · exact hd ▸ h.unregister

-- The name is free once whoever had it is gone.
theorem lookup_displace (h : x.Sound) : (x.displace l name).roster.lookup name = none := by
  rw [displace_roster]
  exact h.roster.lookup_vacate

theorem newcomer_displace (h : x.Sound) (hr : x.Newcomer r) : (x.displace l name).Newcomer r := by
  obtain hd | ⟨old, _, hd⟩ := displace_eq x l name
  case inl => exact hd.symm ▸ hr
  case inr =>
    rw [hd]
    refine ⟨?fresh, ?held, ?own⟩
    case fresh =>
      rw [unregister_roster, Roster.isLive_remove]
      exact fun hl => hr.fresh hl.2
    case held => rw [h.writable?_unregister fun e => hr.own old e, hr.held]
    case own =>
      intro id e he
      rw [unregister_roster, Roster.entry?_remove] at he
      split at he
      case isTrue => cases he
      case isFalse => exact hr.own id e he

theorem enter (h : x.Sound) (hr : x.Newcomer r) (hn : x.roster.lookup r.identity.name = none) :
    (x.enter r).Sound := by
  rw [enter_eq hr.fresh]
  refine ⟨h.roster.insert hr.fresh hn, ?held, ?apart⟩
  case held =>
    intro id e he
    rw [Roster.entry?_insert] at he
    split at he
    case isTrue => cases he; exact hr.held
    case isFalse => exact h.held id e he
  case apart =>
    intro id id' e e' he he' hb
    rw [Roster.entry?_insert] at he he'
    split at he <;> split at he'
    case isTrue.isTrue hi hi' => exact hi.symm.trans hi'
    case isTrue.isFalse => cases he; exact absurd hb.symm (hr.own id' e' he')
    case isFalse.isTrue => cases he'; exact absurd hb (hr.own id e he)
    case isFalse.isFalse => exact h.apart id id' e e' he he' hb

theorem register (h : x.Sound) (hr : x.Newcomer r) : (x.register l r).Sound := by
  have he : ((x.displace l r.identity.name).enter r).Sound :=
    h.displace.enter (h.newcomer_displace hr) h.lookup_displace
  simp only [Exchange.register]
  exact he.tell.tell.announce

-- A change of rooms has no bearing on mailboxes.
theorem setRoster {r : Roster} (h : x.Sound) (hr : r.Consistent)
    (hb : ∀ id, (r.entry? id).map (·.mailbox) = (x.roster.entry? id).map (·.mailbox)) :
    Sound { x with roster := r } := by
  have he {id e} (he : r.entry? id = some e) :
      ∃ e', x.roster.entry? id = some e' ∧ e'.mailbox = e.mailbox := by
    have := hb id
    rw [he] at this
    exact Option.map_eq_some_iff.mp this.symm
  refine ⟨hr, ?held, ?apart⟩
  case held =>
    intro id e hid
    have ⟨e', hid', hm⟩ := he hid
    exact hm ▸ h.held id e' hid'
  case apart =>
    intro id id' e e' hid hid' hm
    have ⟨_, hid, hm₁⟩ := he hid
    have ⟨_, hid', hm₂⟩ := he hid'
    exact h.apart id id' _ _ hid hid' (hm₁.trans <| hm.trans hm₂.symm)

theorem join (h : x.Sound) : (x.join l id room).Sound := by
  simp only [Exchange.join]
  split
  case h_1 => exact h
  case h_2 =>
    split
    case h_1 => exact h.tell
    case h_2 hf =>
      have hs : Sound { x with roster := (x.roster.join id room).2 } :=
        h.setRoster (h.roster.join hf) fun _ => Roster.map_entry?_join _ fun _ _ => rfl
      split
      case h_1 => exact hs.tell.announce
      case h_2 => exact hs.tell

theorem leave (h : x.Sound) : (x.leave l id room).Sound := by
  have hs : Sound { x with roster := (x.roster.leave id room).2 } :=
    h.setRoster h.roster.leave fun _ => Roster.map_entry?_leave _ fun _ _ => rfl
  simp only [Exchange.leave]
  split
  case h_1 => exact h
  case h_2 =>
    split
    case h_1 hl =>
      rw [hl] at hs
      split
      case isTrue => exact hs.tell.announce
      case isFalse => exact hs.tell
    case h_2 => exact h.tell
    case h_3 => exact h

theorem perform (h : x.Sound) (ha : x.Allows c) : (x.perform l c).Sound := by
  cases c
  case register r => exact h.register ha
  case unregister => exact h.unregister
  case post => exact h.post
  case join => exact h.join
  case leave => exact h.leave
  case query => exact h

theorem handle (h : x.Sound) (ha : x.Allows c) : (x.handle l c).Sound := by
  rw [Exchange.handle, ← (cascade l (x.perform l c)).last_eq_settle]
  exact (cascade l _).sound_last <| h.perform ha

end Sound

end Exchange
end Parley
