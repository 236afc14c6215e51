import Parley.Proofs.Exchange.Posting

namespace Parley

open Std

-- Whom a notice is about.
def Notice.identity? (n : Notice) : Option Identity :=
  n.user.map (⟨·, n.username⟩)

-- What the others are told of a connection that went away.
def farewell (s : Notice.Stamp) (who : Identity) : Notice :=
  (Notice.about s .userDisconnected who).withContent s!"{who.name} disconnected"

theorem identity?_farewell {s : Notice.Stamp} {who : Identity} :
    (farewell s who).identity? = some who :=
  rfl

namespace Exchange

variable {x : Exchange} {id id' v : ConnectionId} {e e' : Entry} {k : Nat} {l : Listing}

-- The exchange after it has let go of a connection, before anyone is told.
def retired (id : ConnectionId) (e : Entry) (x : Exchange) : Exchange :=
  ((x.retire id e).issue (farewell · e.identity)).2

-- The others, in the order in which they are told.
def mourners (l : Listing) (id : ConnectionId) (x : Exchange) : List ConnectionId :=
  l.arrange (x.supply.issued + 1) (x.roster.remove id).ids

theorem mem_mourners : v ∈ x.mourners l id ↔ id ≠ v ∧ x.roster.IsLive v := by
  rw [mourners, (l.perm _ _).mem_iff, Roster.mem_ids, Roster.isLive_remove]

theorem nodup_mourners : (x.mourners l id).Nodup :=
  (l.perm _ _).nodup_iff.mpr Roster.nodup_ids

theorem isLive_of_mem_mourners (h : v ∈ x.mourners l id) : (x.retired id e).roster.IsLive v :=
  Roster.isLive_remove.mpr <| mem_mourners.mp h

theorem entry?_retired_iff :
    (x.retired id e).roster.entry? v = some e' ↔ id ≠ v ∧ x.roster.entry? v = some e' := by
  change Roster.entry? (x.roster.remove id) v = some e' ↔ _
  rw [Roster.entry?_remove]
  split <;> simp_all

theorem getElem?_retired :
    (x.retired id e).mailboxes[k]? =
      if e.mailbox = k then x.mailboxes[k]?.map fun m => (m.cancel x.supply.now).release
      else x.mailboxes[k]? :=
  getElem?_changeMailbox

theorem queue_retired : (x.retired id e).queue k = x.queue k := by
  simp only [queue, getElem?_retired]
  split
  case isTrue => cases x.mailboxes[k]? <;> rfl
  case isFalse => rfl

-- The name has been given up already when the farewell goes out, so nobody is excepted.
theorem recipients_retired (h : x.roster.Consistent) (he : x.roster.entry? id = some e) {n : Notice} :
    (x.retired id e).recipients l ⟨n, .everyone, some e.identity.name⟩ (x.roster.remove id).ids =
      x.mourners l id := by
  have hl : (x.roster.remove id).lookup e.identity.name = none := by
    apply Option.eq_none_iff_forall_ne_some.mpr
    intro v hv
    have ⟨e', he', hn⟩ := h.remove.lookup_eq_some_iff.mp hv
    rw [Roster.entry?_remove] at he'
    split at he'
    case isTrue => cases he'
    case isFalse hd => exact hd <| h.name_inj he he' hn.symm
  have hx : (x.retired id e).excepted? ⟨n, .everyone, some e.identity.name⟩ = none := hl
  rw [recipients, hx, List.filter_eq_self.mpr (by simp)]
  rfl

theorem unregister_eq (h : x.roster.Consistent) (he : x.roster.entry? id = some e) :
    x.unregister l id =
      (x.retired id e).offerAll (farewell x.supply.stamp e.identity) (x.mourners l id) := by
  rw [← recipients_retired h he]
  simp only [unregister, he, announce]
  exact post_eq_offerAll rfl

namespace Sound

-- Whoever stays has another mailbox than the one who goes.
theorem mailbox_ne (h : x.Sound) (he : x.roster.entry? id = some e)
    (hev : x.roster.entry? v = some e') (hn : id ≠ v) : e.mailbox ≠ e'.mailbox :=
  fun hb => hn <| h.apart id v e e' he hev hb

theorem retired (h : x.Sound) (he : x.roster.entry? id = some e) : (x.retired id e).Sound where
  roster := h.roster.remove
  held v e' hv := by
    have ⟨hn, hv⟩ := entry?_retired_iff.mp hv
    rw [writable?, getElem?_retired, if_neg (h.mailbox_ne he hv hn)]
    exact h.held v e' hv
  apart v w e₁ e₂ hv hw := by
    have ⟨_, hv⟩ := entry?_retired_iff.mp hv
    have ⟨_, hw⟩ := entry?_retired_iff.mp hw
    exact h.apart v w e₁ e₂ hv hw

theorem vacancy_retired (h : x.Sound) (he : x.roster.entry? id = some e) (hv : x.roster.IsLive v)
    (hn : id ≠ v) : (x.retired id e).vacancy v = x.vacancy v := by
  have ⟨e', hev⟩ := Roster.isLive_iff.mp hv
  rw [vacancy_eq (entry?_retired_iff.mpr ⟨hn, hev⟩), vacancy_eq hev, getElem?_retired,
    if_neg (h.mailbox_ne he hev hn)]

theorem unregister (h : x.Sound) : (x.unregister l id).Sound := by
  cases he : x.roster.entry? id
  case none => simpa [Exchange.unregister, he] using h
  case some e => exact unregister_eq h.roster he ▸ (h.retired he).offerAll

variable (h : x.Sound) (he : x.roster.entry? id = some e)

include h he

theorem doomed_unregister :
    (x.unregister l id).doomed = x.doomed ++ (x.mourners l id).filter (x.vacancy · = 0) := by
  have hc := (h.retired he).offerAll_counts (n := farewell x.supply.stamp e.identity)
    nodup_mourners fun _ => isLive_of_mem_mourners (l := l)
  rw [unregister_eq h.roster he, hc.1]
  congr 1
  apply List.filter_congr
  intro v hv
  have ⟨hn, hv⟩ := mem_mourners.mp hv
  rw [h.vacancy_retired he hv hn]

theorem mem_doomed_unregister :
    v ∈ (x.unregister l id).doomed ↔
      v ∈ x.doomed ∨ (id ≠ v ∧ x.roster.IsLive v ∧ x.vacancy v = 0) := by
  simp [h.doomed_unregister he, mem_mourners, and_assoc]

theorem vacancy_unregister (hv : x.roster.IsLive v) (hn : id ≠ v) :
    (x.unregister l id).vacancy v = x.vacancy v - 1 := by
  have hm : v ∈ x.mourners l id := mem_mourners.mpr ⟨hn, hv⟩
  rw [unregister_eq h.roster he, (h.retired he).vacancy_offerAll nodup_mourners
    (fun _ => isLive_of_mem_mourners) (isLive_of_mem_mourners hm), if_pos hm,
    h.vacancy_retired he hv hn]

theorem queue_unregister (hev : x.roster.entry? v = some e') (hn : id ≠ v) :
    (x.unregister l id).queue e'.mailbox =
      x.queue e'.mailbox ++
        if 0 < x.vacancy v then [farewell x.supply.stamp e.identity] else [] := by
  have hv := Roster.IsLive.of_some hev
  have hm : v ∈ x.mourners l id := mem_mourners.mpr ⟨hn, hv⟩
  rw [unregister_eq h.roster he, (h.retired he).queue_offerAll nodup_mourners
    (fun _ => isLive_of_mem_mourners) (entry?_retired_iff.mpr ⟨hn, hev⟩), queue_retired,
    h.vacancy_retired he hv hn]
  simp [hm]

-- Nothing is put into a mailbox once its connection is let go of.
theorem queue_unregister_of_free
    (hk : ∀ v e', id ≠ v → x.roster.entry? v = some e' → e'.mailbox ≠ k) :
    (x.unregister l id).queue k = x.queue k := by
  rw [unregister_eq h.roster he, (h.retired he).queue_offerAll_of_free nodup_mourners
    (fun _ => isLive_of_mem_mourners), queue_retired]
  intro v e' hv
  have ⟨hn, hv⟩ := entry?_retired_iff.mp hv
  exact hk v e' hn hv

end Sound
end Exchange
end Parley
