import Parley.Proofs.Exchange.Command
import Parley.Service

namespace Parley

open Std

-- A notice with which a session answers its own client.
def Notice.IsReply (n : Notice) : Prop :=
  ∃ stamp id who payload, (Session.Reaction.ofPayload stamp id who payload).reply = some n

theorem Mailbox.suffix_takeNotice {m : Mailbox} : (Service.takeNotice m).pipe.queue <:+ m.pipe.queue := by
  simp only [Service.takeNotice, Pipe.receive]
  split
  case h_1 h => exact h ▸ List.suffix_cons ..
  case h_2 => exact List.suffix_rfl

namespace Exchange

-- What may happen while no command is handled.
inductive Interlude where
  | prepare (k capacity : Nat)
  | take (k : Nat)
  | lend (k : Nat)
  | reply (k : Nat) (n : Notice)
  | giveBack (k : Nat)
  | abandon (k : Nat)
  | cancel (k : Nat)
  | release (k : Nat)
  | issue
  | wait (time : Nat)

def Interlude.apply (x : Exchange) : Interlude → Exchange
  | prepare k capacity => x.openMailbox k capacity
  | take k             => x.changeMailbox k Service.takeNotice
  | lend k             => x.changeMailbox k Mailbox.lend
  | reply k n          => x.changeMailbox k (·.reply n)
  | giveBack k         => x.changeMailbox k Mailbox.giveBack
  | abandon k          => x.changeMailbox k Mailbox.abandon
  | cancel k           => x.changeMailbox k (·.cancel x.supply.now)
  | release k          => x.changeMailbox k Mailbox.release
  | issue              => { x with supply := x.supply.next }
  | wait time          => { x with supply := { x.supply with now := max x.supply.now time } }

-- New mailboxes have new numbers, sessions put nothing but answers into theirs, and only a registration that
-- is given up lets go of its mailbox without the exchange.
def Permits (x : Exchange) : Interlude → Prop
  | .prepare k _ => k ∉ x.mailboxes
  | .reply _ n   => n.IsReply
  | .release k   => ∀ id e, x.roster.entry? id = some e → e.mailbox ≠ k
  | _            => True

-- What commands there may be is left open.
inductive Step (A : Exchange → Command → Prop) : Exchange → Exchange → Type
  | command {x} (l : Listing) (c : Command) (h : A x c) : Step A x (x.handle l c)
  | between {x} (i : Interlude) (h : x.Permits i) : Step A x (i.apply x)

inductive Run (A : Exchange → Command → Prop) : Exchange → Exchange → Type
  | refl {x} : Run A x x
  | step {x y z} : Run A x y → Step A y z → Run A x z

variable {A : Exchange → Command → Prop} {x y : Exchange} {k : Nat} {i : Interlude}

theorem apply_roster (i : Interlude) : (i.apply x).roster = x.roster := by
  cases i <;> rfl

theorem apply_doomed (i : Interlude) : (i.apply x).doomed = x.doomed := by
  cases i <;> rfl

theorem writable?_changeMailbox {f : Mailbox → Mailbox} {j : Nat}
    (hf : j = k → ∀ m, (f m).pipe.writable = m.pipe.writable) :
    (x.changeMailbox j f).writable? k = x.writable? k := by
  simp only [writable?, getElem?_changeMailbox]
  split
  case isTrue h => cases x.mailboxes[k]? <;> simp [hf h]
  case isFalse => rfl

theorem writable?_apply (h : x.Permits i) {id : ConnectionId} {e : Entry}
    (he : x.roster.entry? id = some e) (hw : x.writable? e.mailbox = some true) :
    (i.apply x).writable? e.mailbox = x.writable? e.mailbox := by
  cases i
  case prepare k capacity =>
    have hk : k ≠ e.mailbox := by
      rintro rfl
      have hm : x.mailboxes[e.mailbox]? = none := ExtTreeMap.getElem?_eq_none h
      simp [writable?, hm] at hw
    simp [Interlude.apply, openMailbox, writable?, ExtTreeMap.getElem?_insert, hk]
  case take =>
    refine writable?_changeMailbox fun _ m => ?_
    simp only [Service.takeNotice, Pipe.receive]
    split <;> rfl
  case lend => exact writable?_changeMailbox fun _ _ => congrArg Pipe.writable Mailbox.pipe_lend
  case reply => exact writable?_changeMailbox fun _ _ => Mailbox.writable_reply
  case release k => exact writable?_changeMailbox fun hk => absurd hk.symm (h id e he)
  case giveBack | abandon | cancel => exact writable?_changeMailbox fun _ _ => rfl
  case issue | wait => rfl

theorem Sound.apply (hs : x.Sound) (h : x.Permits i) : (i.apply x).Sound :=
  hs.of_writable? (apply_roster i) fun id e he => writable?_apply h he (hs.held id e he)

theorem sound_empty : Sound empty where
  roster := Roster.consistent_empty
  held _ _ h := by simp [empty, Roster.empty, Roster.entry?] at h
  apart _ _ _ _ h := by simp [empty, Roster.empty, Roster.entry?] at h

namespace Run

theorem consistent (run : Run Admits x y) (h : x.roster.Consistent) : y.roster.Consistent := by
  induction run
  case refl => exact h
  case step s hi =>
    cases s
    case command ha => exact consistent_handle hi ha
    case between i _ => exact (apply_roster i).symm ▸ hi

theorem sound (run : Run Allows x y) (h : x.Sound) : y.Sound := by
  induction run
  case refl => exact h
  case step s hi =>
    cases s
    case command ha => exact hi.handle ha
    case between hp => exact hi.apply hp

theorem undoomed (run : Run A x y) (h : x.doomed = []) : y.doomed = [] := by
  induction run
  case refl => exact h
  case step s hi =>
    cases s
    case command => exact doomed_handle
    case between i _ => exact (apply_doomed i).trans hi

-- The rooms and the connections tell the same of who is where, whoever is in a room is alive, and no room is
-- empty.  The directory of names is the other way round of the entries.  Rooms are named as they should be.
theorem roster_agrees (run : Run Admits .empty x) :
    (∀ id room, (∃ m, x.roster.room? room = some m ∧ id ∈ m.members) ↔
      ∃ e, x.roster.entry? id = some e ∧ room ∈ e.rooms) ∧
    (∀ room m id, x.roster.room? room = some m → id ∈ m.members → x.roster.IsLive id) ∧
    (∀ room m, x.roster.room? room = some m → m.members ≠ ∅) ∧
    (∀ name id, x.roster.lookup name = some id ↔
      ∃ e, x.roster.entry? id = some e ∧ e.identity.name = name) ∧
    (∀ id id' e e', x.roster.entry? id = some e → x.roster.entry? id' = some e' →
      e.identity.name = e'.identity.name → id = id') ∧
    x.roster.directory.count = x.roster.count ∧
    (∀ room m, x.roster.room? room = some m →
      room ≠ "" ∧ room.utf8ByteSize ≤ 256 ∧ ∀ c ∈ room.toList, ¬ Text.IsControl c) ∧
    x.doomed = [] := by
  have h := run.consistent Roster.consistent_empty
  refine ⟨?members, ?live, ?inhabited, ?names, ?unique, h.count_eq, ?rooms, run.undoomed rfl⟩
  case members => exact fun id room => h.member_iff room id
  case live =>
    intro room m id hm hi
    exact ((h.member_iff room id).mp ⟨m, hm, hi⟩).isLive
  case inhabited =>
    intro room m hm he
    have ⟨id, hi⟩ := h.inhabited room m hm
    exact ExtTreeSet.not_mem_empty (he ▸ hi)
  case names => exact fun _ _ => h.lookup_eq_some_iff
  case unique => exact fun _ _ _ _ he he' => h.name_inj he he'
  case rooms =>
    intro room m hm
    exact RoomName.fault?_eq_none_iff.mp (h.named room m hm).2

end Run
end Exchange
end Parley
