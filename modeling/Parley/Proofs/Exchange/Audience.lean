import Parley.Proofs.Exchange.Act
import Parley.Proofs.Exchange.Run

namespace Parley

open Std

namespace Exchange

variable {x y : Exchange} {n : Notice} {v : ConnectionId} {ids : List ConnectionId} {l : Listing} {p : Post}
  {name : String}

-- Whom a post is for.  The room without a name is everyone, and whoever has the excepted name is left out.
def IsFor (x : Exchange) (p : Post) (v : ConnectionId) : Prop :=
  (match p.audience with
    | .everyone  => x.roster.IsLive v
    | .room room => if room = "" then x.roster.IsLive v else x.roster.HasMember room v
    | .user name => x.roster.lookup name = some v) ∧
  ∀ name, p.except = some name → x.roster.lookup name ≠ some v

-- Whether a post is for a user who is not online.
def IsLost (x : Exchange) (p : Post) (name : String) : Prop :=
  p.audience = .user name ∧ x.roster.lookup name = none

-- A notice was offered to some connections, and nothing else happened.
structure Offers (n : Notice) (ids : List ConnectionId) (x y : Exchange) : Prop where
  roster     : y.roster = x.roster
  evictions  : y.evictions = x.evictions
  deliveries : y.deliveries = x.deliveries + (ids.filter (0 < x.vacancy ·)).length
  doomed     : y.doomed = x.doomed ++ ids.filter (x.vacancy · = 0)
  given      : ∀ v ∈ ids, ∀ e, x.roster.entry? v = some e → 0 < x.vacancy v →
    y.mailboxes[e.mailbox]? = x.mailboxes[e.mailbox]?.map fun m =>
      { m with pipe := { m.pipe with queue := m.pipe.queue ++ [n] } }
  others     : ∀ k, (∀ v ∈ ids, 0 < x.vacancy v → x.address v ≠ some k) →
    y.mailboxes[k]? = x.mailboxes[k]?

theorem Sound.offers (h : x.Sound) (hn : ids.Nodup) (hl : ∀ id ∈ ids, x.roster.IsLive id) :
    Offers n ids x (x.offerAll n ids) where
  roster     := offerAll_roster ..
  evictions  := offerAll_evictions
  deliveries := (h.offerAll_counts hn hl).2
  doomed     := (h.offerAll_counts hn hl).1
  given v hm e he hv := by
    rw [h.getElem?_offerAll hn hl, if_pos ((h.mem_boxes he).mpr hm)]
    rw [vacancy_eq he] at hv
    cases hb : x.mailboxes[e.mailbox]?
    case none => rfl
    case some m =>
      have hm : 0 < m.vacancy := by simpa [hb] using hv
      simp [Mailbox.put_eq, hm]
  others k hk := by
    rw [h.getElem?_offerAll hn hl]
    split
    case isFalse => rfl
    case isTrue hm =>
      -- Whoever has this mailbox was offered the notice, but had no room for it.
      have ⟨v, hv, ha⟩ := List.mem_filterMap.mp hm
      have ⟨e, he, heq⟩ := Option.map_eq_some_iff.mp ha
      have h0 : ¬ 0 < x.vacancy v := fun h0 => hk v hv h0 ha
      rw [vacancy_eq he, heq] at h0
      cases hb : x.mailboxes[k]?
      case none => rfl
      case some m =>
        have hv : m.vacancy = 0 := by simpa [hb] using h0
        simp [Mailbox.put_of_vacancy_eq_zero hv]

theorem Sound.offers_tell {id : ConnectionId} (h : x.Sound) (hl : x.roster.IsLive id)
    (make : Notice.Stamp → Notice) :
    Offers (make x.supply.stamp) [id] x (x.tell id make) := by
  have ho : Offers (make x.supply.stamp) [id] (x.issue make).2 (x.tell id make) :=
    (h.issue make).offers (List.pairwise_singleton ..) fun _ hm => List.mem_singleton.mp hm ▸ hl
  exact ⟨ho.roster, ho.evictions, ho.deliveries, ho.doomed, ho.given, ho.others⟩

theorem Offers.refl : Offers n [] x x where
  roster     := rfl
  evictions  := rfl
  deliveries := rfl
  doomed     := (List.append_nil _).symm
  given _ hm := absurd hm List.not_mem_nil
  others _ _ := rfl

theorem effectiveAudience_user_iff : p.effectiveAudience = .user name ↔ p.audience = .user name := by
  cases h : p.audience <;> simp only [Post.effectiveAudience, h]
  case room => split <;> simp_all

-- The audience without the one who is left out is everyone whom the post is for.
theorem mem_recipients_iff (h : x.audience? p.effectiveAudience = some ids) :
    v ∈ x.recipients l p ids ↔ x.IsFor p v := by
  have hx : some v ≠ x.excepted? p ↔ ∀ name, p.except = some name → x.roster.lookup name ≠ some v := by
    simp only [excepted?]
    cases p.except <;> simp [eq_comm]
  have ha : v ∈ ids ↔
      match p.audience with
      | .everyone  => x.roster.IsLive v
      | .room room => if room = "" then x.roster.IsLive v else x.roster.HasMember room v
      | .user name => x.roster.lookup name = some v := by
    cases hp : p.audience <;> simp only [Post.effectiveAudience, hp] at h ⊢
    case everyone =>
      cases h
      exact Roster.mem_ids
    case room room =>
      split at h
      case h_1 heq =>
        cases heq
        cases h
        simpa using Roster.mem_ids
      case h_2 hne =>
        have hr : room ≠ "" := fun hr => hne (hr ▸ rfl)
        obtain ⟨m, hm, hi⟩ := Option.map_eq_some_iff.mp h
        subst hi
        simp [hr, Roster.HasMember, hm, Room.ids]
    case user name =>
      obtain ⟨id, hl, hi⟩ := Option.map_eq_some_iff.mp h
      subst hi
      simp [hl, eq_comm]
  rw [mem_recipients, ha, hx, IsFor]

-- Without an audience, a post is for nobody.
theorem not_isFor (h : x.audience? p.effectiveAudience = none) : ¬ x.IsFor p v := by
  cases hp : p.audience <;> simp only [Post.effectiveAudience, hp] at h
  case everyone => cases h
  case user name =>
    have hl : x.roster.lookup name = none := Option.map_eq_none_iff.mp h
    simp [IsFor, hp, hl]
  case room room =>
    split at h
    case h_1 => cases h
    case h_2 hne =>
      have hr : room ≠ "" := fun hr => hne (hr ▸ rfl)
      have hm : x.roster.room? room = none := Option.map_eq_none_iff.mp h
      simp [IsFor, hp, hr, Roster.HasMember, hm]

-- A post without an audience comes to nothing, unless it is for a user.
theorem post_eq_self (h : x.audience? p.effectiveAudience = none) (hn : ∀ name, ¬ x.IsLost p name) :
    x.post l p = x := by
  cases hp : p.effectiveAudience
  case everyone => rw [hp] at h; cases h
  case room => exact post_of_no_room hp (Option.map_eq_none_iff.mp (hp ▸ h))
  case user name =>
    rw [hp] at h
    exact absurd ⟨effectiveAudience_user_iff.mp hp, Option.map_eq_none_iff.mp h⟩ (hn name)

theorem Sound.offers_post (h : x.Sound) (hn : ∀ name, ¬ x.IsLost p name) :
    ∃ ids, ids.Nodup ∧ (∀ v, v ∈ ids ↔ x.IsFor p v) ∧
      x.post l p = x.offerAll p.notice ids ∧ Offers p.notice ids x (x.post l p) := by
  cases ha : x.audience? p.effectiveAudience
  case none =>
    have hp : x.post l p = x := post_eq_self ha hn
    refine ⟨[], List.nodup_nil, fun v => ?_, hp, hp.symm ▸ .refl⟩
    exact iff_of_false List.not_mem_nil (not_isFor ha)
  case some ids =>
    have ⟨hd, hl⟩ := h.audience ha
    have hr : (x.recipients l p ids).Nodup := nodup_recipients hd
    have hp : x.post l p = x.offerAll p.notice (x.recipients l p ids) := post_eq_offerAll ha
    refine ⟨_, hr, fun _ => mem_recipients_iff ha, hp, ?_⟩
    exact hp ▸ h.offers hr fun id hm => hl id (mem_recipients.mp hm).1

-- The one who is told that a user is not online is the one in whose name the post is.
theorem Sound.post_lost (h : x.Sound) (hn : x.IsLost p name) :
    Offers ((Notice.error x.supply.stamp (offlineMessage name)).withRecipient name)
      (x.roster.lookup p.notice.username).toList x (x.post l p) := by
  rw [post_of_offline (effectiveAudience_user_iff.mpr hn.1) hn.2]
  cases ho : x.roster.lookup p.notice.username
  case none => exact .refl
  case some origin =>
    have ⟨e, he, _⟩ := h.roster.lookup_eq_some_iff.mp ho
    exact h.offers_tell (.of_some he) fun s =>
      (Notice.error s (offlineMessage name)).withRecipient name

-- Wherever a run has led, a post is offered once to each of those whom it is for.  If it is for a user who is
-- not online, a complaint is offered instead to the one who has the name in which it was posted, if anyone has.
theorem Run.post_offers (run : Run Allows .empty x) (l : Listing) (p : Post) :
    ((∀ name, ¬ x.IsLost p name) →
      ∃ ids, ids.Nodup ∧ (∀ v, v ∈ ids ↔ x.IsFor p v) ∧
        x.post l p = x.offerAll p.notice ids ∧
        Offers p.notice ids x (x.post l p) ∧ (x.post l p).supply = x.supply) ∧
    ∀ name, x.IsLost p name →
      (∀ v, ¬ x.IsFor p v) ∧
      (∀ origin, x.roster.lookup p.notice.username = some origin → x.roster.IsLive origin) ∧
      (x.roster.lookup p.notice.username = none → x.post l p = x) ∧
      ∃ complaint : Notice, complaint.kind = .error ∧ complaint.recipient = some name ∧
        complaint.content = some (offlineMessage name) ∧
        Offers complaint (x.roster.lookup p.notice.username).toList x (x.post l p) := by
  have h := run.sound sound_empty
  constructor
  case left =>
    intro hn
    have ⟨ids, hd, hm, hp, ho⟩ := h.offers_post (l := l) hn
    exact ⟨ids, hd, hm, hp, ho, hp ▸ offerAll_supply⟩
  case right =>
    intro name hn
    have ha := effectiveAudience_user_iff.mpr hn.1
    refine ⟨fun v => ?nobody, fun origin ho => ?live, fun ho => ?silent, _, rfl, rfl, rfl, h.post_lost hn⟩
    case nobody =>
      refine not_isFor ?_
      rw [ha]
      exact Option.map_eq_none_iff.mpr hn.2
    case live =>
      have ⟨e, he, _⟩ := h.roster.lookup_eq_some_iff.mp ho
      exact .of_some he
    case silent => rw [post_of_offline ha hn.2, ho]

-- Ann is alone.  She is offered what she says to everyone, and what she says to Bob earns her a complaint.
theorem Run.post_offers_alone :
    let ann : Registration := ⟨⟨1⟩, ⟨7, "ann"⟩, 0⟩
    let hello : Notice := .about ⟨"0", .epoch⟩ .chatMessage ann.identity
    let x := ((Interlude.prepare 0 8).apply .empty).handle .ascending (.register ann)
    (∃ ids, ann.id ∈ ids ∧ Offers hello ids x (x.post .ascending (.toEveryone hello))) ∧
      ∃ complaint : Notice, complaint.kind = .error ∧
        Offers complaint [ann.id] x (x.post .ascending (.toUser "bob" hello)) := by
  intro ann hello x
  have ha : ((Interlude.prepare 0 8).apply .empty).Allows (.register ann) :=
    newcomer_first (fun _ => ExtTreeMap.not_mem_empty) (by decide)
  let run : Run Allows .empty x :=
    .step (.step .refl (.between (.prepare 0 8) ExtTreeMap.not_mem_empty))
      (.command .ascending (.register ann) ha)
  have hx : x = ((Interlude.prepare 0 8).apply .empty).perform .ascending (.register ann) :=
    handle_eq_perform (by decide)
  constructor
  case left =>
    have ⟨ids, _, hm, _, ho, _⟩ := (run.post_offers .ascending (.toEveryone hello)).1 fun _ h => nomatch h.1
    have hl : x.roster.IsLive ann.id := by rw [hx]; decide
    exact ⟨ids, (hm ann.id).mpr ⟨hl, nofun⟩, ho⟩
  case right =>
    have hb : x.IsLost (.toUser "bob" hello) "bob" := ⟨rfl, by rw [hx]; decide⟩
    have hl : x.roster.lookup "ann" = some ann.id := by rw [hx]; decide
    have ⟨_, _, _, complaint, hk, _, _, ho⟩ := (run.post_offers .ascending (.toUser "bob" hello)).2 "bob" hb
    have ho : Offers complaint (x.roster.lookup "ann").toList x (x.post .ascending (.toUser "bob" hello)) := ho
    rw [hl] at ho
    exact ⟨complaint, hk, ho⟩

end Exchange
end Parley
