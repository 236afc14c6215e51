import Parley.Proofs.Exchange.Ending
import Parley.Proofs.Exchange.Eviction

namespace Parley

open Std

namespace Exchange

-- Which connection, of which identity, a notice tells of that is given while a command is handled: the one that
-- comes, is removed, or enters or leaves a room.
inductive Concerns (x : Exchange) (l : Listing) (c : Command) (n : Notice) : ConnectionId → Identity → Prop
  | arrival {r} (hc : c = .register r) (hk : n.kind = .userConnected) : Concerns x l c n r.id r.identity
  | removal {v who} (hr : x.Removes l c v) (hi : x.identity? c v = some who) (hk : n.kind = .userDisconnected) :
      Concerns x l c n v who
  | entry {v room e} (hc : c = .join v room) (he : x.roster.entry? v = some e)
      (hk : n.kind = .roomJoined ∨ n.kind = .userJoined) : Concerns x l c n v e.identity
  | exit {v room e} (hc : c = .leave v room) (he : x.roster.entry? v = some e)
      (hk : n.kind = .roomLeft ∨ n.kind = .userLeft) : Concerns x l c n v e.identity

-- What may be said while a command is handled.
def Voices (x : Exchange) (l : Listing) (c : Command) (n : Notice) : Prop :=
  n.IsOfServer ∨ (∃ p, c = .post p ∧ n = p.notice) ∨ ∃ v who, x.Concerns l c n v who ∧ n.Names who

variable {x : Exchange} {id v : ConnectionId} {e : Entry} {k : Nat} {l : Listing} {c : Command} {n : Notice}
  {own : Bool} {who : Identity} {s : Notice.Stamp} {message : String} {as : List Act}

-- A removal is told of in the name of the one who goes.
theorem exists_of_mem_unregister (h : x.roster.Consistent) (hm : .offer own n v ∈ Acts.unregister x l id) :
    ∃ e s, x.roster.entry? id = some e ∧ n = farewell s e.identity := by
  cases he : x.roster.entry? id
  case none => simp [Acts.unregister, he] at hm
  case some e =>
    rw [acts_unregister_eq h he] at hm
    refine ⟨e, x.supply.stamp, rfl, ?_⟩
    simp only [List.mem_append, List.mem_cons, List.not_mem_nil, reduceCtorEq, or_false, false_or,
      List.mem_map, Act.offer.injEq] at hm
    obtain ⟨_, _, _, hn, _⟩ := hm
    exact hn.symm

theorem Cascade.exists_of_mem_acts (c : Cascade l x) (h : x.roster.Consistent) (hm : .offer own n v ∈ c.acts) :
    ∃ w ∈ c.evicted, ∃ e s, x.roster.entry? w = some e ∧ n = farewell s e.identity := by
  induction c
  case rest => cases hm
  case pass c hi => exact hi h ((List.mem_cons.mp hm).resolve_left nofun)
  case evict x id doomed e hd he c hi =>
    obtain hm | hm := List.mem_append.mp ((List.mem_cons.mp hm).resolve_left nofun)
    case inl =>
      obtain ⟨e', s, he', hn⟩ := exists_of_mem_unregister (x := x.struck doomed) h hm
      exact ⟨id, List.mem_cons_self, e', s, he', hn⟩
    case inr =>
      obtain ⟨w, hw, e', s, he', hn⟩ := hi (consistent_evict h) hm
      rw [entry?_evict] at he'
      split at he'
      case isTrue => cases he'
      case isFalse => exact ⟨w, List.mem_cons_of_mem _ hw, e', s, he', hn⟩

section Journal

variable (h : x.roster.Consistent) (ha : x.Admits c)

include h ha

theorem voices_farewell (ht : x.target? c = some v ∨ v ∈ x.evicted l c) (hi : x.identity? c v = some who) :
    x.Voices l c (farewell s who) :=
  .inr <| .inr ⟨v, who, .removal ((removes_iff h ha).mpr ht) hi rfl, Notice.names_about.withContent⟩

theorem voices_of_mem_unregister (ht : x.target? c = some id) (hm : .offer own n v ∈ Acts.unregister x l id) :
    x.Voices l c n := by
  obtain ⟨e, s, he, rfl⟩ := exists_of_mem_unregister h hm
  exact voices_farewell h ha (.inl ht) (identity?_of_entry ha he)

theorem voices_of_mem_perform (hm : .offer own n v ∈ Acts.perform x l c) : x.Voices l c n := by
  cases c
  case register r =>
    let entry := Acts.displace x l r.identity.name ++ [.enter r]
    have hw : Says (fun _ => x.Voices l (.register r)) (Acts.welcome (x.replay entry) l r) :=
      says_welcome (fun _ => .inl) fun _ hk hn => .inr <| .inr ⟨r.id, r.identity, .arrival rfl hk, hn⟩
    obtain hm | hm := List.mem_append.mp hm
    case inr => exact hw _ hm
    case inl =>
      have hm := (List.mem_append.mp hm).resolve_right (by simp)
      simp only [Acts.displace] at hm
      split at hm
      case h_1 old hl => exact voices_of_mem_unregister h ha hl hm
      case h_2 => cases hm
  case unregister id =>
    obtain ⟨e, _, he, _⟩ := exists_of_mem_unregister h hm
    exact voices_of_mem_unregister h ha (if_pos (.of_some he)) hm
  case post p =>
    have hs : Says (fun _ => x.Voices l (.post p)) (Acts.post x false l p) :=
      says_post (.inr <| .inl ⟨p, rfl, rfl⟩) fun _ => .inl
    exact hs _ hm
  case join id room =>
    have hs : Says (fun _ => x.Voices l (.join id room)) (Acts.join x l id room) :=
      says_join (fun _ => .inl) fun e _ he hk hn => .inr <| .inr ⟨id, e.identity, .entry rfl he hk, hn⟩
    exact hs _ hm
  case leave id room =>
    have hs : Says (fun _ => x.Voices l (.leave id room)) (Acts.leave x l id room) :=
      says_leave (fun _ => .inl) fun e _ he hk hn => .inr <| .inr ⟨id, e.identity, .exit rfl he hk, hn⟩
    exact hs _ hm
  case query => cases hm

theorem voices_of_mem_journal (hm : .offer own n v ∈ x.journal l c) : x.Voices l c n := by
  obtain hm | hm := List.mem_append.mp hm
  case inl => exact voices_of_mem_perform h ha hm
  case inr =>
    obtain ⟨w, hw, e, s, he, rfl⟩ := Cascade.exists_of_mem_acts _ (consistent_perform h ha) hm
    refine voices_farewell h ha (.inr hw) ?_
    -- Whoever is evicted had not been removed by the command itself.
    have hi := identity_perform (v := w) (l := l) h ha
    rw [he] at hi
    split at hi
    case isTrue => cases hi
    case isFalse => exact hi.symm

end Journal

-- The last notice is the server's own.
theorem says_closeAll : Says (fun _ => Notice.IsOfServer) (Acts.closeAll x l message) := by
  simp only [Acts.closeAll]
  split
  case isTrue => exact says_nil
  case isFalse => exact List.forall_mem_cons.mpr ⟨trivial, says_post Notice.isOfServer_system fun _ => id⟩

-- Mailboxes are given nothing that was not offered.
theorem exists_offer_of_mem_enqueued (h : n ∈ (x.attempts as).filterMap (·.enqueued? k)) :
    ∃ own v, .offer own n v ∈ as := by
  obtain ⟨a, hm, hn⟩ := List.mem_filterMap.mp h
  simp only [Attempt.enqueued?] at hn
  split at hn
  case isTrue =>
    cases hn
    exact ⟨a.own, a.recipient, offer_mem_of_mem_attempts hm⟩
  case isFalse => cases hn

end Exchange
end Parley
