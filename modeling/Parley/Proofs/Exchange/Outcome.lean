import Parley.Proofs.Exchange.Cascade

namespace Parley

open Std

namespace Roster

variable {r : Roster} {name : String} {v : ConnectionId}

-- The roster without the one who has a name.
def vacate (r : Roster) (name : String) : Roster :=
  match r.lookup name with
  | some old => r.remove old
  | none     => r

theorem entry?_vacate :
    Roster.entry? (r.vacate name) v = if r.lookup name = some v then none else r.entry? v := by
  simp only [vacate]
  cases r.lookup name
  case none => simp
  case some => simp [entry?_remove]

namespace Consistent

theorem vacate (h : r.Consistent) : (r.vacate name).Consistent := by
  simp only [Roster.vacate]
  split
  case h_1 => exact h.remove
  case h_2 => exact h

theorem lookup_vacate (h : r.Consistent) : (r.vacate name).lookup name = none := by
  apply Option.eq_none_iff_forall_ne_some.mpr
  intro v hv
  have ⟨e, he, hn⟩ := h.vacate.lookup_eq_some_iff.mp hv
  rw [entry?_vacate] at he
  split at he
  case isTrue => cases he
  case isFalse hne => exact hne (hn ▸ h.lookup_name he)

end Consistent
end Roster

namespace Exchange

-- Commands that come with new ids, if they come with any.
def Admits (x : Exchange) : Command → Prop
  | .register r => ¬ x.roster.IsLive r.id
  | _           => True

variable {x : Exchange} {v : ConnectionId} {l : Listing} {c : Command} {r : Registration} {name : String}

-- Whom a command removes by itself.
def target? (x : Exchange) : Command → Option ConnectionId
  | .register r    => x.roster.lookup r.identity.name
  | .unregister id => if x.roster.IsLive id then some id else none
  | _              => none

-- The roster that a command leads to before anyone is evicted for it.
def nextRoster (x : Exchange) : Command → Roster
  | .register r    => (x.roster.vacate r.identity.name).insert r.id r.identity r.mailbox
  | .unregister id => x.roster.remove id
  | .join id room  => if RoomName.fault? room = none then (x.roster.join id room).2 else x.roster
  | .leave id room => (x.roster.leave id room).2
  | .post _        => x.roster
  | .query _       => x.roster

-- Who a connection is, if it is there before a command or comes with it.
def identity? (x : Exchange) (c : Command) (id : ConnectionId) : Option Identity :=
  match c with
  | .register r => if r.id = id then some r.identity else (x.roster.entry? id).map (·.identity)
  | _ => (x.roster.entry? id).map (·.identity)

-- Whoever is known comes with the command, or was there before.
theorem identity?_cases {who : Identity} (h : x.identity? c v = some who) :
    (∃ r, c = .register r ∧ r.id = v ∧ r.identity = who) ∨ ∃ e, x.roster.entry? v = some e ∧ e.identity = who := by
  cases c
  case register r =>
    simp only [identity?] at h
    split at h
    case isTrue hv => exact .inl ⟨r, rfl, hv, Option.some.inj h⟩
    case isFalse => exact .inr (Option.map_eq_some_iff.mp h)
  all_goals exact .inr (Option.map_eq_some_iff.mp h)

theorem displace_roster : (x.displace l name).roster = x.roster.vacate name := by
  simp only [displace, Roster.vacate]
  cases x.roster.lookup name
  case none => rfl
  case some => exact unregister_roster ..

theorem enter_roster : (x.enter r).roster = x.roster.insert r.id r.identity r.mailbox := by
  simp only [enter]
  split <;> rfl

-- The order in which connections are gone through has no bearing on the roster.
theorem perform_roster : (x.perform l c).roster = x.nextRoster c := by
  cases c
  case register =>
    simp only [perform, register, announce_roster, tell_roster, enter_roster, displace_roster,
      nextRoster]
  case unregister => exact unregister_roster ..
  case post => exact post_roster ..
  case query => rfl
  case join id room =>
    simp only [perform, join, nextRoster]
    split
    case h_1 he => simp [Roster.join, he]
    case h_2 =>
      split
      case h_1 hf => simp [hf, tell_roster]
      case h_2 hf =>
        rw [if_pos hf]
        split
        case h_1 => rw [announce_roster, tell_roster]
        case h_2 => rw [tell_roster]
  case leave id room =>
    simp only [perform, leave, nextRoster]
    split
    case h_1 he => simp [Roster.leave, he]
    case h_2 e he =>
      cases hl : x.roster.leave id room
      case mk outcome roster =>
        cases outcome
        case left =>
          simp only
          split
          case isTrue => rw [announce_roster, tell_roster]
          case isFalse => rw [tell_roster]
        -- Nobody leaves a room without being in it.
        case notMember | unknownConnection =>
          simp only [Roster.leave, he] at hl
          split at hl <;> cases hl <;> simp [tell_roster]

theorem consistent_nextRoster (h : x.roster.Consistent) (ha : x.Admits c) : (x.nextRoster c).Consistent := by
  cases c
  case register r =>
    have hf : ¬ (x.roster.vacate r.identity.name).IsLive r.id := by
      rw [Roster.not_isLive_iff, Roster.entry?_vacate, Roster.not_isLive_iff.mp ha, ite_self]
    exact h.vacate.insert hf h.lookup_vacate
  case unregister => exact h.remove
  case join id room =>
    simp only [nextRoster]
    split
    case isTrue hf => exact h.join hf
    case isFalse => exact h
  case leave => exact h.leave
  case post | query => exact h

theorem consistent_perform (h : x.roster.Consistent) (ha : x.Admits c) :
    (x.perform l c).roster.Consistent :=
  perform_roster ▸ consistent_nextRoster h ha

theorem consistent_handle (h : x.roster.Consistent) (ha : x.Admits c) :
    (x.handle l c).roster.Consistent := by
  rw [handle, ← (cascade l (x.perform l c)).last_eq_settle]
  exact (cascade l _).consistent_last <| consistent_perform h ha

-- Whoever is there after a command was there before, or came with it, and is who they were.
theorem identity_perform (h : x.roster.Consistent) (ha : x.Admits c) :
    (Roster.entry? (x.perform l c).roster v).map (·.identity) =
      if x.target? c = some v then none else x.identity? c v := by
  rw [perform_roster]
  cases c
  case post | query => rfl
  case join id room =>
    simp only [nextRoster, target?, identity?]
    split
    case isTrue => exact Roster.map_entry?_join _ fun _ _ => rfl
    case isFalse => rfl
  case leave id room => exact Roster.map_entry?_leave _ fun _ _ => rfl
  case unregister id =>
    simp only [nextRoster, target?, identity?, Roster.entry?_remove]
    by_cases hv : id = v
    case neg => simp [hv]
    case pos =>
      subst hv
      by_cases hl : x.roster.IsLive id
      case pos => simp [hl]
      case neg => simp [hl, Roster.not_isLive_iff.mp hl]
  case register r =>
    simp only [nextRoster, target?, identity?, Roster.entry?_insert]
    by_cases hv : r.id = v
    case pos =>
      -- The newcomer is not the one that has to go.
      have hn : x.roster.lookup r.identity.name ≠ some v := by
        intro hl
        have ⟨e, he, _⟩ := h.lookup_eq_some_iff.mp hl
        exact ha <| hv ▸ .of_some he
      simp [hv, hn]
    case neg =>
      simp only [hv, if_false, Roster.entry?_vacate]
      split <;> rfl

theorem isLive_perform (h : x.roster.Consistent) (ha : x.Admits c) :
    (x.perform l c).roster.IsLive v ↔ x.target? c ≠ some v ∧ (x.identity? c v).isSome := by
  have hi := identity_perform (v := v) (l := l) h ha
  rw [Roster.isLive_iff]
  cases he : Roster.entry? (x.perform l c).roster v
  case none => grind
  case some => grind

-- The same goes for whoever is not evicted.
theorem identity?_of_handle {e : Entry} (h : x.roster.Consistent) (ha : x.Admits c)
    (he : (x.handle l c).roster.entry? v = some e) : x.identity? c v = some e.identity := by
  rw [handle, ← (cascade l (x.perform l c)).last_eq_settle, Cascade.entry?_last] at he
  have hi := identity_perform (v := v) (l := l) h ha
  split at he
  case isTrue => cases he
  case isFalse =>
    rw [he] at hi
    split at hi
    case isTrue => cases hi
    case isFalse => exact hi.symm

theorem handle_eq_perform (h : (x.perform l c).doomed = []) : x.handle l c = x.perform l c :=
  settle_of_doomed_nil h

theorem doomed_handle : (x.handle l c).doomed = [] := by
  rw [handle, ← (cascade l (x.perform l c)).last_eq_settle]
  exact (cascade l _).doomed_last

end Exchange
end Parley
