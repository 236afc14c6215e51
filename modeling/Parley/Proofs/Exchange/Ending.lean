import Parley.Proofs.Exchange.Journal

namespace Parley

open Std

-- The mailbox that someone is to be registered with by a command.
def Command.mailbox? : Command → Option Nat
  | register r => some r.mailbox
  | _          => none

namespace Exchange

variable {x : Exchange} {id : ConnectionId} {k : Nat} {l : Listing} {message : String} {c : Command}
  {cs : List Command}

-- The last notice of the exchange, if anyone is there to hear it.
def Acts.closeAll (x : Exchange) (l : Listing) (message : String) : List Act :=
  if x.roster.count = 0 then []
  else
    let (n, y) := x.issue fun s => Notice.system s message
    .issue :: post y true l (.toEveryone n)

theorem closeAll_eq : x.closeAll l message = (x.replay (Acts.closeAll x l message)).dismiss := by
  simp only [closeAll, Acts.closeAll]
  split
  case isTrue => rfl
  case isFalse => exact congrArg dismiss replay_post.symm

-- To let go of a mailbox twice is to let go of it once.
theorem getElem?_foldl_modify {es : List (ConnectionId × Entry)} {f : Mailbox → Mailbox}
    {boxes : ExtTreeMap Nat Mailbox} (hf : ∀ m, f (f m) = f m) :
    (es.foldl (fun boxes e => boxes.modify e.2.mailbox f) boxes)[k]? =
      if ∃ e ∈ es, e.2.mailbox = k then boxes[k]?.map f else boxes[k]? := by
  induction es generalizing boxes
  case nil => simp
  case cons e es hi =>
    simp only [List.foldl_cons, hi, ExtTreeMap.getElem?_modify, LawfulEqCmp.compare_eq_iff_eq,
      List.mem_cons, exists_eq_or_imp]
    by_cases he : e.2.mailbox = k
    case neg => simp only [he, if_false, false_or]
    case pos =>
      subst he
      cases boxes[e.2.mailbox]? <;> simp [hf]

theorem getElem?_dismiss :
    x.dismiss.mailboxes[k]? =
      if ∃ e ∈ x.roster.entries.toList, e.2.mailbox = k then
        x.mailboxes[k]?.map fun m => (m.cancel x.supply.now).release
      else x.mailboxes[k]? :=
  getElem?_foldl_modify fun m => by
    cases hc : m.cancelledAt <;> simp [Mailbox.cancel, Mailbox.release, Pipe.closeWriter, hc]

theorem exists_entry_iff :
    (∃ e ∈ x.roster.entries.toList, e.2.mailbox = k) ↔ ∃ id, x.address id = some k := by
  simp only [Prod.exists, ExtTreeMap.mem_toList_iff_getElem?_eq_some, address, Roster.entry?,
    Option.map_eq_some_iff]

theorem queue_dismiss : x.dismiss.queue k = x.queue k := by
  simp only [queue, getElem?_dismiss]
  split
  case isTrue => cases x.mailboxes[k]? <;> rfl
  case isFalse => rfl

theorem queue_closeAll :
    (x.closeAll l message).queue k =
      x.queue k ++ (x.attempts (Acts.closeAll x l message)).filterMap (·.enqueued? k) := by
  rw [closeAll_eq, queue_dismiss, queue_replay]

theorem roster_closeAll : (x.closeAll l message).roster = .empty := by
  rw [closeAll_eq]
  rfl

theorem supply_closeAll :
    (x.closeAll l message).supply = (x.replay (Acts.closeAll x l message)).supply := by
  rw [closeAll_eq]
  rfl

-- Where nobody is there, nobody shares a mailbox.
theorem sound_of_roster_empty (h : x.roster = .empty) : x.Sound where
  roster := h ▸ Roster.consistent_empty
  held _ _ he := by simp [h, Roster.entry?_empty] at he
  apart _ _ _ _ he := by simp [h, Roster.entry?_empty] at he

theorem getElem?_forgo :
    (x.forgo c).mailboxes[k]? =
      if c.mailbox? = some k then x.mailboxes[k]?.map Mailbox.release else x.mailboxes[k]? := by
  cases c
  case register r => simp [forgo, getElem?_changeMailbox, Command.mailbox?]
  all_goals rfl

theorem getElem?_forgoAll :
    (x.forgoAll cs).mailboxes[k]? =
      if k ∈ cs.filterMap Command.mailbox? then x.mailboxes[k]?.map Mailbox.release else x.mailboxes[k]? := by
  induction cs generalizing x
  case nil => rfl
  case cons c cs hi =>
    rw [show x.forgoAll (c :: cs) = (x.forgo c).forgoAll cs from rfl, hi, getElem?_forgo]
    by_cases hc : c.mailbox? = some k
    case neg => simp [hc]
    case pos =>
      -- To let go twice is to let go once.
      cases x.mailboxes[k]? <;> simp [hc, Mailbox.release, Pipe.closeWriter]

theorem queue_forgoAll : (x.forgoAll cs).queue k = x.queue k := by
  simp only [queue, getElem?_forgoAll]
  split
  case isTrue => cases x.mailboxes[k]? <;> rfl
  case isFalse => rfl

@[simp] theorem roster_forgo : (x.forgo c).roster = x.roster := by
  cases c <;> rfl

@[simp] theorem supply_forgo : (x.forgo c).supply = x.supply := by
  cases c <;> rfl

@[simp] theorem doomed_forgo : (x.forgo c).doomed = x.doomed := by
  cases c <;> rfl

@[simp] theorem evictions_forgo : (x.forgo c).evictions = x.evictions := by
  cases c <;> rfl

-- What commands do not change one by one, they do not change together.
theorem forgoAll_eq {α : Type} {f : Exchange → α} (hf : ∀ x c, f (forgo x c) = f x) : f (x.forgoAll cs) = f x := by
  induction cs generalizing x
  case nil => rfl
  case cons c cs hi => exact hi.trans (hf x c)

@[simp] theorem roster_forgoAll : (x.forgoAll cs).roster = x.roster :=
  forgoAll_eq fun _ _ => roster_forgo

@[simp] theorem supply_forgoAll : (x.forgoAll cs).supply = x.supply :=
  forgoAll_eq fun _ _ => supply_forgo

@[simp] theorem doomed_forgoAll : (x.forgoAll cs).doomed = x.doomed :=
  forgoAll_eq fun _ _ => doomed_forgo

@[simp] theorem evictions_forgoAll : (x.forgoAll cs).evictions = x.evictions :=
  forgoAll_eq fun _ _ => evictions_forgo

end Exchange
end Parley
