import Parley.Proofs.Exchange.Audience
import Parley.Proofs.Exchange.Voice

namespace Parley

open Std

namespace Exchange

variable {x : Exchange} {v : ConnectionId} {e : Entry} {l : Listing} {p : Post} {c : Command} {name : String} {k : Nat}
  {as bs : List Act} {n : Notice}

-- The complaints that are put into a mailbox.
def complaints (x : Exchange) (k : Nat) (as : List Act) : List Notice :=
  ((x.attempts as).filterMap (·.enqueued? k)).filter (·.kind = .error)

theorem complaints_append : x.complaints k (as ++ bs) = x.complaints k as ++ (x.replay as).complaints k bs := by
  simp only [complaints, attempts_append, List.filterMap_append, List.filter_append]

theorem complaints_eq_nil (h : ∀ own n v, .offer own n v ∈ as → n.kind ≠ .error) : x.complaints k as = [] := by
  refine List.filter_eq_nil_iff.mpr fun n hm hk => ?_
  obtain ⟨own, v, ho⟩ := exists_offer_of_mem_enqueued hm
  exact h own n v ho (of_decide_eq_true hk)

-- Whoever is evicted is missed, but nobody has made a mistake.
theorem complaints_cascade (h : x.roster.Consistent) : x.complaints k (cascade l x).acts = [] := by
  refine complaints_eq_nil fun own n v ho => ?_
  obtain ⟨_, _, _, _, _, rfl⟩ := Cascade.exists_of_mem_acts _ h ho
  exact nofun

theorem complaints_tell (make : Notice.Stamp → Notice) (hk : (make x.supply.stamp).kind = .error) :
    x.complaints k (Acts.tell x v make) =
      if x.address v = some k ∧ 0 < x.vacancy v then [make x.supply.stamp] else [] := by
  cases he : x.roster.entry? v
  case none => simp [complaints, Acts.tell, attempts, Act.attempt?, Act.apply, address, he]
  case some e =>
    let outcome := (x.mailboxes[e.mailbox]?.map (·.pipe.outcome)).getD .closed
    have ha : x.attempts (Acts.tell x v make) = [⟨true, make x.supply.stamp, v, e.mailbox, outcome⟩] := by
      simp [Acts.tell, attempts, Act.attempt?, Act.apply, he, outcome]
    have ho : outcome = .accepted ↔ 0 < x.vacancy v := by
      rw [vacancy_eq he]
      cases hm : x.mailboxes[e.mailbox]? <;> simp [outcome, hm, Mailbox.outcome_eq_accepted_iff]
    simp only [complaints, ha, List.filterMap_cons, List.filterMap_nil, Attempt.enqueued?, ho, address, he,
      Option.map_some, Option.some_inj]
    by_cases hv : e.mailbox = k ∧ 0 < x.vacancy v <;> simp [hv, hk]

-- The one who is told is the one who has the name in which the post is.
theorem complaints_of_lost (h : x.roster.Consistent) (hn : x.IsLost p name) :
    x.complaints k (x.journal l (.post p)) =
      match x.roster.lookup p.notice.username with
      | some v =>
        if x.address v = some k ∧ 0 < x.vacancy v then
          [(Notice.error x.supply.stamp (offlineMessage name)).withRecipient name]
        else []
      | none => [] := by
  have hc : (x.perform l (.post p)).roster.Consistent := consistent_perform h trivial
  have hu := effectiveAudience_user_iff.mpr hn.1
  have ha : x.audience? (.user name) = none := Option.map_eq_none_iff.mpr hn.2
  rw [journal, complaints_append, replay_perform, complaints_cascade hc, List.append_nil, Acts.perform, Acts.post]
  cases ho : x.roster.lookup p.notice.username <;> simp only [hu, ha]
  case none => rfl
  case some =>
    exact complaints_tell (fun s => (Notice.error s (offlineMessage name)).withRecipient name) rfl

end Exchange
end Parley
