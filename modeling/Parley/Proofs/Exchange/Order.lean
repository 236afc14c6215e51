import Mathlib.Data.List.Perm.Subperm
import Parley.Proofs.Exchange.Ending
import Parley.Proofs.Exchange.Presence

namespace Parley

open Std

-- What a command posts.
def Command.posted : Command → List Notice
  | .post p => [p.notice]
  | _       => []

namespace Exchange

-- Acts that offer nothing.
def Act.IsQuiet : Act → Prop
  | offer .. => False
  | _        => True

variable {x y z : Exchange} {n : Notice} {id : ConnectionId} {ids : List ConnectionId} {k : Nat} {l : Listing}
  {p : Post} {c : Command} {r : Registration} {name room message : String} {as bs : List Act} {act : Act}
  {own : Bool} {ns ms : List Notice} {make : Notice.Stamp → Notice} {who : Identity} {a : Audience}
  {except : Bool}

-- The ids that were given out on the way from one state to another.
def coined (x y : Exchange) : List String :=
  (List.range' x.supply.issued (y.supply.issued - x.supply.issued)).map Supply.uuid

-- What a mailbox gets.
def delivered (x : Exchange) (k : Nat) (as : List Act) : List Notice :=
  (x.attempts as).filterMap (·.enqueued? k)

-- Acts that go through some notices one after the other.  Every mailbox gets some of them, in this order.
-- They are the exchange's own, with ids given out on the way, or among those that were posted.
def Orderly (x : Exchange) (posted : List Notice) (as : List Act) : Prop :=
  ∃ ns : List Notice, (∀ k, (x.delivered k as).Sublist ns) ∧
    (ns.map (·.id)).Subperm (posted.map (·.id) ++ x.coined (x.replay as))

theorem issued_apply_le : x.supply.issued ≤ (act.apply x).supply.issued := by
  cases act
  case issue => exact Nat.le_succ _
  case offer => exact Nat.le_of_eq (congrArg Supply.issued offer_supply.symm)
  case enter =>
    simp only [Act.apply, enter]
    split <;> exact Nat.le_refl _
  case retire =>
    simp only [Act.apply]
    split <;> exact Nat.le_refl _
  case join | leave | strike => exact Nat.le_refl _

theorem issued_replay_le : x.supply.issued ≤ (x.replay as).supply.issued := by
  induction as generalizing x
  case nil => exact Nat.le_refl _
  case cons hi => exact Nat.le_trans issued_apply_le hi

theorem coined_append (hx : x.supply.issued ≤ y.supply.issued) (hy : y.supply.issued ≤ z.supply.issued) :
    x.coined y ++ y.coined z = x.coined z := by
  have hs : y.supply.issued = x.supply.issued + 1 * (y.supply.issued - x.supply.issued) := by omega
  have hz : z.supply.issued - x.supply.issued =
      y.supply.issued - x.supply.issued + (z.supply.issued - y.supply.issued) := by omega
  rw [coined, coined, coined, ← List.map_append, hz, ← List.range'_append, ← hs]

theorem coined_issue (make : Notice.Stamp → Notice) :
    x.coined (x.issue make).2 = [Supply.uuid x.supply.issued] := by
  simp [coined, issue, Supply.next]

theorem perm_append_shuffle {α : Type} {as bs cs ds : List α} :
    (as ++ bs ++ (cs ++ ds)).Perm (as ++ cs ++ (bs ++ ds)) := by
  simp only [List.append_assoc]
  refine .append_left _ ?_
  simp only [← List.append_assoc]
  exact .append_right _ List.perm_append_comm

theorem delivered_append : x.delivered k (as ++ bs) = x.delivered k as ++ (x.replay as).delivered k bs := by
  rw [delivered, attempts_append, List.filterMap_append]
  rfl

theorem orderly_nil : Orderly x ns [] :=
  ⟨[], fun _ => .refl _, List.nil_subperm⟩

theorem Orderly.append (h : Orderly x ns as) (h' : Orderly (x.replay as) ms bs) :
    Orderly x (ns ++ ms) (as ++ bs) := by
  have ⟨ns', hd, hi⟩ := h
  have ⟨ms', hd', hi'⟩ := h'
  refine ⟨ns' ++ ms', fun k => delivered_append ▸ (hd k).append (hd' k), ?_⟩
  rw [replay_append, ← coined_append issued_replay_le issued_replay_le, List.map_append, List.map_append]
  exact (hi.append hi').trans perm_append_shuffle.subperm

theorem Orderly.append_own (h : Orderly x [] as) (h' : Orderly (x.replay as) [] bs) :
    Orderly x [] (as ++ bs) :=
  h.append h'

-- More may have been posted than was offered.
theorem Orderly.weaken (h : Orderly x [] as) : Orderly x ns as := by
  have ⟨ns', hd, hi⟩ := h
  exact ⟨ns', hd, hi.trans (List.sublist_append_right _ _).subperm⟩

theorem Orderly.quiet_cons (ha : act.IsQuiet) (h : Orderly (act.apply x) ns as) :
    Orderly x ns (act :: as) := by
  have ⟨ns', hd, hi⟩ := h
  have hq : act.attempt? x = none := by
    cases act
    case offer => exact ha.elim
    all_goals rfl
  have hs : (x.coined ((act.apply x).replay as)) =
      x.coined (act.apply x) ++ (act.apply x).coined ((act.apply x).replay as) :=
    (coined_append issued_apply_le issued_replay_le).symm
  refine ⟨ns', fun k => ?_, hi.trans ?_⟩
  case refine_1 =>
    rw [delivered, attempts, hq]
    exact hd k
  case refine_2 =>
    change List.Subperm _ (ns.map (·.id) ++ x.coined ((act.apply x).replay as))
    rw [hs]
    exact ((List.sublist_append_right _ _).append_left _).subperm

-- A notice of the exchange's own gets an id of its own.
theorem Orderly.issue_cons (hn : n.id = Supply.uuid x.supply.issued)
    (h : Orderly (Act.apply x .issue) [n] as) : Orderly x [] (.issue :: as) := by
  have ⟨ns', hd, hi⟩ := h
  have hs : x.coined ((Act.apply x .issue).replay as) =
      Supply.uuid x.supply.issued :: (Act.apply x .issue).coined ((Act.apply x .issue).replay as) := by
    rw [← coined_append (Nat.le_succ _) issued_replay_le]
    exact congrArg (· ++ _) (coined_issue fun s => Notice.system s "")
  refine ⟨ns', hd, ?_⟩
  change List.Subperm _ ([] ++ x.coined ((Act.apply x .issue).replay as))
  rw [hs, ← hn]
  exact hi

-- One notice for many: nobody gets it twice, since nobody shares a mailbox.
theorem Sound.orderly_offers (h : x.Sound) (hn : ids.Nodup) (hl : ∀ id ∈ ids, x.roster.IsLive id) :
    Orderly x [n] (ids.map (.offer own n)) := by
  refine ⟨[n], fun k => ?_, (List.sublist_append_left _ _).subperm⟩
  have hq : (x.offerAll n ids).queue k = x.queue k ++ x.delivered k (ids.map (.offer own n)) := by
    have hr : x.replay (ids.map (.offer own n)) = x.offerAll n ids := replay_offers
    rw [← hr, queue_replay]
    rfl
  have ho : ∃ ms, (x.offerAll n ids).queue k = x.queue k ++ ms ∧ ms.Sublist [n] := by
    simp only [queue, h.getElem?_offerAll hn hl]
    split
    case isFalse => exact ⟨[], (List.append_nil _).symm, List.nil_sublist _⟩
    case isTrue =>
      cases x.mailboxes[k]?
      case none => exact ⟨[], rfl, List.nil_sublist _⟩
      case some m =>
        refine ⟨_, Mailbox.queue_put, ?_⟩
        split
        case isTrue => exact .refl _
        case isFalse => exact List.nil_sublist _
  obtain ⟨ms, hm, hs⟩ := ho
  rw [hq] at hm
  exact List.append_cancel_left hm ▸ hs

namespace Sound

theorem orderly_tell (h : x.Sound) (hl : x.roster.IsLive id)
    (hm : ∀ s : Notice.Stamp, (make s).id = s.id) : Orderly x [] (Acts.tell x id make) := by
  refine .issue_cons (hm x.supply.stamp) ?_
  exact (h.issue make).orderly_offers (List.pairwise_singleton ..) fun _ hi => List.mem_singleton.mp hi ▸ hl

theorem orderly_post (h : x.Sound) : Orderly x [p.notice] (Acts.post x own l p) := by
  simp only [Acts.post]
  split
  case h_1 ids ha =>
    obtain ⟨hn, hl⟩ := h.audience ha
    exact h.orderly_offers (nodup_recipients hn) fun id hm => hl id (mem_recipients.mp hm).1
  case h_2 =>
    split
    case h_1 origin ho =>
      obtain ⟨e, he, _⟩ := h.roster.lookup_eq_some_iff.mp ho
      exact (h.orderly_tell (.of_some he) fun _ => rfl).weaken
    case h_2 => exact orderly_nil
  case h_3 => exact orderly_nil

theorem orderly_announce (h : x.Sound) (hm : ∀ s : Notice.Stamp, (make s).id = s.id) :
    Orderly x [] (Acts.announce x l who a except make) :=
  .issue_cons (hm x.supply.stamp) (h.issue make).orderly_post

theorem orderly_unregister (h : x.Sound) : Orderly x [] (Acts.unregister x l id) := by
  cases he : x.roster.entry? id
  case none =>
    have hu : Acts.unregister x l id = [] := by simp [Acts.unregister, he]
    exact hu ▸ orderly_nil
  case some e =>
    have hr : Act.apply x (.retire id) = x.retire id e := by simp only [Act.apply, he]
    rw [acts_unregister_eq h.roster he]
    refine .quiet_cons trivial ?_
    rw [hr]
    refine .issue_cons (n := farewell x.supply.stamp e.identity) rfl ?_
    exact (h.retired he).orderly_offers nodup_mourners fun _ => isLive_of_mem_mourners

theorem orderly_displace (h : x.Sound) : Orderly x [] (Acts.displace x l name) := by
  simp only [Acts.displace]
  split
  case h_1 => exact h.orderly_unregister
  case h_2 => exact orderly_nil

theorem orderly_welcome (h : x.Sound) (hl : x.roster.IsLive r.id) : Orderly x [] (Acts.welcome x l r) := by
  simp only [Acts.welcome]
  refine .append_own (.append_own ?greeting ?list) ?news
  case greeting => exact h.orderly_tell hl fun _ => rfl
  case list =>
    rw [replay_tell]
    refine h.tell.orderly_tell ?_ fun _ => rfl
    rw [tell_roster]
    exact hl
  case news =>
    rw [replay_append, replay_tell, replay_tell]
    exact h.tell.tell.orderly_announce fun _ => rfl

theorem orderly_register (h : x.Sound) (hr : x.Newcomer r) : Orderly x [] (Acts.register x l r) := by
  rw [register_acts_eq]
  refine .append_own h.orderly_displace ?_
  rw [replay_displace]
  exact .quiet_cons trivial <| (h.admitted hr).orderly_welcome (.of_some entry?_admitted)

-- What follows a change of rooms: an answer, and then news for the others.
theorem orderly_join (h : x.Sound) : Orderly x [] (Acts.join x l id room) := by
  simp only [Acts.join]
  split
  case h_1 => exact orderly_nil
  case h_2 e he =>
    have hl := Roster.IsLive.of_some he
    split
    case h_1 => exact h.orderly_tell hl fun _ => rfl
    case h_2 hf =>
      have hs : Sound (Act.apply x (.join id room)) :=
        h.setRoster (h.roster.join hf) fun _ => Roster.map_entry?_join _ fun _ _ => rfl
      refine .quiet_cons trivial ?_
      refine .append_own (hs.orderly_tell (isLive_apply (by simp) hl) fun _ => rfl) ?_
      split
      case h_1 =>
        rw [replay_tell]
        exact hs.tell.orderly_announce fun _ => rfl
      case h_2 => exact orderly_nil

theorem orderly_leave (h : x.Sound) : Orderly x [] (Acts.leave x l id room) := by
  simp only [Acts.leave]
  split
  case h_1 => exact orderly_nil
  case h_2 e he =>
    have hl := Roster.IsLive.of_some he
    have hs : Sound (Act.apply x (.leave id room)) :=
      h.setRoster h.roster.leave fun _ => Roster.map_entry?_leave _ fun _ _ => rfl
    split
    case h_1 =>
      refine .quiet_cons trivial ?_
      refine .append_own (hs.orderly_tell (isLive_apply (by simp) hl) fun _ => rfl) ?_
      split
      case isTrue =>
        rw [replay_tell]
        exact hs.tell.orderly_announce fun _ => rfl
      case isFalse => exact orderly_nil
    case h_2 => exact h.orderly_tell hl fun _ => rfl
    case h_3 => exact orderly_nil

end Sound

theorem Cascade.orderly_acts (c : Cascade l x) (h : x.Sound) : Orderly x [] c.acts := by
  induction c
  case rest => exact orderly_nil
  case pass x id doomed hd hl c hi =>
    refine .quiet_cons trivial ?_
    rw [apply_pass hd]
    exact hi (h.of_writable? rfl fun _ _ _ => rfl)
  case evict x id doomed e hd he c hi =>
    refine .quiet_cons trivial ?_
    rw [apply_evict hd]
    refine .append_own h.strike.orderly_unregister ?_
    rw [replay_unregister]
    exact hi h.evict

namespace Sound

theorem orderly_perform (h : x.Sound) (ha : x.Allows c) : Orderly x c.posted (Acts.perform x l c) := by
  cases c
  case register => exact h.orderly_register ha
  case unregister => exact h.orderly_unregister
  case post => exact h.orderly_post
  case join => exact h.orderly_join
  case leave => exact h.orderly_leave
  case query => exact orderly_nil

theorem orderly_journal (h : x.Sound) (ha : x.Allows c) : Orderly x c.posted (x.journal l c) := by
  have hc := Cascade.orderly_acts (cascade l (x.perform l c)) (h.perform ha)
  have hp : Orderly x (c.posted ++ []) (x.journal l c) :=
    (h.orderly_perform ha).append (replay_perform ▸ hc)
  exact List.append_nil c.posted ▸ hp

theorem orderly_closeAll (h : x.Sound) : Orderly x [] (Acts.closeAll x l message) := by
  simp only [Acts.closeAll]
  split
  case isTrue => exact orderly_nil
  case isFalse =>
    let n := Notice.system x.supply.stamp message
    let y := Act.apply x .issue
    have hp : Orderly y [n] (Acts.post y true l (.toEveryone n)) :=
      (h.issue fun s => Notice.system s message).orderly_post
    exact .issue_cons rfl hp

end Sound

end Exchange
end Parley
