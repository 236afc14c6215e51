import Parley.Proofs.Exchange.Delivery

namespace Parley

open Std

namespace Exchange

variable {x : Exchange} {n : Notice} {id id' : ConnectionId} {ids : List ConnectionId} {e e' : Entry}
  {k : Nat} {l : Listing} {p : Post} {a : Audience} {make : Notice.Stamp → Notice} {who : Identity}

-- Whom a post is offered to, given its audience.
def recipients (l : Listing) (p : Post) (ids : List ConnectionId) (x : Exchange) : List ConnectionId :=
  (l.arrange x.supply.issued ids).filter (some · ≠ x.excepted? p)

theorem mem_recipients : id ∈ x.recipients l p ids ↔ id ∈ ids ∧ some id ≠ x.excepted? p := by
  simp [recipients, (l.perm _ _).mem_iff]

theorem nodup_recipients (h : ids.Nodup) : (x.recipients l p ids).Nodup :=
  ((l.perm _ _).nodup_iff.mpr h).filter _

theorem post_eq_offerAll (h : x.audience? p.effectiveAudience = some ids) :
    x.post l p = x.offerAll p.notice (x.recipients l p ids) := by
  simp [post, h, recipients]

-- A user who is not there is told about to the one in whose name the post is.
theorem post_of_offline {name : String} (ha : p.effectiveAudience = .user name)
    (h : x.roster.lookup name = none) :
    x.post l p =
      match x.roster.lookup p.notice.username with
      | some origin =>
        x.tell origin fun s => (Notice.error s (offlineMessage name)).withRecipient name
      | none => x := by
  have hn : x.audience? (.user name) = none := Option.map_eq_none_iff.mpr h
  cases ho : x.roster.lookup p.notice.username <;> simp [post, ha, hn, ho]

theorem post_of_no_room {room : String} (ha : p.effectiveAudience = .room room)
    (h : x.roster.room? room = none) : x.post l p = x := by
  simp [post, ha, audience?, h]

-- The three ways in which a post can end.
theorem post_cases (x : Exchange) (l : Listing) (p : Post) :
    (∃ ids, x.audience? p.effectiveAudience = some ids ∧
      x.post l p = x.offerAll p.notice (x.recipients l p ids)) ∨
    (∃ origin make, x.post l p = x.tell origin make) ∨ x.post l p = x := by
  cases ha : x.audience? p.effectiveAudience
  case some ids => exact .inl ⟨ids, rfl, post_eq_offerAll ha⟩
  case none =>
    simp only [post, ha]
    split
    case h_1 h => cases h
    case h_2 =>
      split
      case h_1 origin _ => exact .inr <| .inl ⟨origin, _, rfl⟩
      case h_2 => exact .inr <| .inr rfl
    case h_3 => exact .inr <| .inr rfl

theorem tell_roster : (x.tell id make).roster = x.roster :=
  offer_roster ..

namespace Sound

theorem issue (h : x.Sound) (make : Notice.Stamp → Notice) : (x.issue make).2.Sound :=
  h.of_writable? rfl fun _ _ _ => rfl

theorem tell (h : x.Sound) : (x.tell id make).Sound :=
  (h.issue make).offer

theorem post (h : x.Sound) : (x.post l p).Sound := by
  obtain ⟨_, _, hp⟩ | ⟨_, _, hp⟩ | hp := post_cases x l p
  · exact hp ▸ h.offerAll
  · exact hp ▸ h.tell
  · exact hp.symm ▸ h

theorem announce {except : Bool} (h : x.Sound) : (x.announce l who a except make).Sound :=
  (h.issue make).post

-- Nobody is in an audience twice, and only the living are.
theorem audience (h : x.Sound) (ha : x.audience? a = some ids) :
    ids.Nodup ∧ ∀ id ∈ ids, x.roster.IsLive id := by
  cases a <;> simp only [audience?, Option.some.injEq, Option.map_eq_some_iff] at ha
  case everyone =>
    subst ha
    exact ⟨Roster.nodup_ids, fun _ => Roster.mem_ids.mp⟩
  case room room =>
    have ⟨m, hm, hi⟩ := ha
    subst hi
    constructor
    case left => exact ExtTreeSet.distinct_toList.imp fun hd heq => hd (by simp [heq])
    case right =>
      intro id hid
      have hr := (h.roster.member_iff room id).mp ⟨m, hm, ExtTreeSet.mem_toList.mp hid⟩
      exact hr.isLive
  case user name =>
    have ⟨id, hl, hi⟩ := ha
    subst hi
    have ⟨e, he, _⟩ := h.roster.lookup_eq_some_iff.mp hl
    refine ⟨List.pairwise_singleton .., fun id' hm => ?_⟩
    exact List.mem_singleton.mp hm ▸ .of_some he

end Sound
end Exchange
end Parley
