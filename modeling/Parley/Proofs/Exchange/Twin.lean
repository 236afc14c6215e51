import Parley.Proofs.Exchange.Command

namespace Parley

open Std

namespace Exchange

variable {x y : Exchange} {n : Notice} {id v : ConnectionId} {ids ids' : List ConnectionId} {e : Entry}
  {k : Nat} {l l' : Listing} {c : Command} {r : Registration} {name room : String}
  {make : Notice.Stamp → Notice} {who : Identity} {a : Audience} {except : Bool} {p : Post}

-- The doomed are alive, and have no room for anything.
structure Twin (x y : Exchange) : Prop where
  sound      : x.Sound
  spent      : ∀ v ∈ x.doomed, x.roster.IsLive v ∧ x.vacancy v = 0
  doomed     : y.doomed.Perm x.doomed
  roster     : y.roster = x.roster
  mailboxes  : y.mailboxes = x.mailboxes
  deliveries : y.deliveries = x.deliveries
  evictions  : y.evictions = x.evictions
  supply     : y.supply = x.supply

namespace Twin

theorem refl (h : x.Sound) (hd : x.doomed = []) : Twin x x where
  sound      := h
  spent      := by simp [hd]
  doomed     := .refl _
  roster     := rfl
  mailboxes  := rfl
  deliveries := rfl
  evictions  := rfl
  supply     := rfl

theorem sound_right (h : Twin x y) : y.Sound :=
  h.sound.of_writable? h.roster fun _ _ _ => by simp [writable?, h.mailboxes]

theorem vacancy_right (h : Twin x y) : y.vacancy v = x.vacancy v := by
  simp [vacancy, mailbox?, h.roster, h.mailboxes]

theorem queue_right (h : Twin x y) : y.queue k = x.queue k := by
  simp [queue, h.mailboxes]

theorem audience?_right (h : Twin x y) : y.audience? a = x.audience? a := by
  cases a <;> simp [audience?, h.roster]

theorem notice_right (h : Twin x y) : (y.issue make).1 = (x.issue make).1 :=
  congrArg (fun s : Supply => make s.stamp) h.supply

theorem issue (h : Twin x y) : Twin (x.issue make).2 (y.issue make).2 where
  sound      := h.sound.issue make
  spent      := h.spent
  doomed     := h.doomed
  roster     := h.roster
  mailboxes  := h.mailboxes
  deliveries := h.deliveries
  evictions  := h.evictions
  supply     := congrArg Supply.next h.supply

-- Offers may be made in any order.
theorem offerAll (h : Twin x y) (hn : ids.Nodup) (hl : ∀ id ∈ ids, x.roster.IsLive id)
    (hp : ids'.Perm ids) : Twin (x.offerAll n ids) (y.offerAll n ids') := by
  have hn' := hp.nodup_iff.mpr hn
  have hl' : ∀ id ∈ ids', y.roster.IsLive id := fun id hm => h.roster ▸ hl id (hp.mem_iff.mp hm)
  have ⟨hd, hc⟩ := h.sound.offerAll_counts (n := n) hn hl
  have ⟨hd', hc'⟩ := h.sound_right.offerAll_counts (n := n) hn' hl'
  simp only [h.vacancy_right] at hd' hc'
  refine ⟨h.sound.offerAll, ?spent, ?doomed, ?roster, ?mailboxes, ?deliveries, ?evictions, ?supply⟩
  case spent =>
    intro v hm
    have hv : x.roster.IsLive v ∧ x.vacancy v = 0 := by
      rw [hd] at hm
      cases List.mem_append.mp hm
      case inl hm => exact h.spent v hm
      case inr hm =>
        have ⟨hm, hz⟩ := List.mem_filter.mp hm
        exact ⟨hl v hm, by simpa using hz⟩
    refine ⟨(offerAll_roster n ids x).symm ▸ hv.1, ?_⟩
    rw [h.sound.vacancy_offerAll hn hl hv.1, hv.2]
    exact ite_self _
  case doomed => exact hd ▸ hd' ▸ h.doomed.append (hp.filter _)
  case roster => rw [offerAll_roster, offerAll_roster, h.roster]
  case mailboxes =>
    apply ExtTreeMap.ext_getElem?
    intro k
    have hb : k ∈ y.boxes ids' ↔ k ∈ x.boxes ids := by
      simp only [boxes, h.roster]
      exact (hp.filterMap _).mem_iff
    rw [h.sound.getElem?_offerAll hn hl, h.sound_right.getElem?_offerAll hn' hl', h.mailboxes]
    simp only [hb]
  case deliveries => rw [hc, hc', h.deliveries, (hp.filter _).length_eq]
  case evictions => rw [offerAll_evictions, offerAll_evictions, h.evictions]
  case supply => rw [offerAll_supply, offerAll_supply, h.supply]

theorem offer (h : Twin x y) : Twin (x.offer n id) (y.offer n id) := by
  by_cases hl : x.roster.IsLive id
  case neg =>
    rw [offer_of_not_isLive hl, offer_of_not_isLive (h.roster ▸ hl)]
    exact h
  case pos =>
    exact h.offerAll (List.pairwise_singleton ..) (fun _ hm => List.mem_singleton.mp hm ▸ hl) (.refl [id])

theorem tell (h : Twin x y) : Twin (x.tell id make) (y.tell id make) := by
  change Twin ((x.issue make).2.offer (x.issue make).1 id) ((y.issue make).2.offer (y.issue make).1 id)
  rw [h.notice_right]
  exact h.issue.offer

theorem post (h : Twin x y) : Twin (x.post l p) (y.post l' p) := by
  cases ha : x.audience? p.effectiveAudience
  case some ids =>
    have ⟨hn, hl⟩ := h.sound.audience ha
    have hx : y.excepted? p = x.excepted? p := by simp [excepted?, h.roster]
    have hp : (y.recipients l' p ids).Perm (x.recipients l p ids) := by
      simp only [recipients, hx]
      exact ((l'.perm _ _).trans (l.perm _ _).symm).filter _
    rw [post_eq_offerAll ha, post_eq_offerAll (h.audience?_right.trans ha)]
    exact h.offerAll (nodup_recipients hn) (fun id hm => hl id (mem_recipients.mp hm).1) hp
  case none =>
    cases hu : p.effectiveAudience
    case everyone => rw [hu] at ha; cases ha
    case room name =>
      have hr : x.roster.room? name = none := Option.map_eq_none_iff.mp (hu ▸ ha)
      rw [post_of_no_room hu hr, post_of_no_room hu (h.roster ▸ hr)]
      exact h
    case user name =>
      have hr : x.roster.lookup name = none := Option.map_eq_none_iff.mp (hu ▸ ha)
      rw [post_of_offline hu hr, post_of_offline hu (h.roster ▸ hr), h.roster]
      split
      case h_1 => exact h.tell
      case h_2 => exact h

theorem announce (h : Twin x y) :
    Twin (x.announce l who a except make) (y.announce l' who a except make) := by
  simp only [Exchange.announce, h.notice_right]
  exact h.issue.post

-- Nobody is doomed yet when someone is removed by a command.
theorem unregister (h : Twin x y) (hd : x.doomed = []) :
    Twin (x.unregister l id) (y.unregister l' id) := by
  cases he : x.roster.entry? id
  case none =>
    have he' : y.roster.entry? id = none := h.roster ▸ he
    simpa [Exchange.unregister, he, he'] using h
  case some e =>
    have he' : y.roster.entry? id = some e := h.roster ▸ he
    have hm : (y.mourners l' id).Perm (x.mourners l id) := by
      simp only [mourners, h.roster]
      exact (l'.perm _ _).trans (l.perm _ _).symm
    have hr : Twin (x.retired id e) (y.retired id e) := by
      refine ⟨h.sound.retired he, ?spent, h.doomed, ?roster, ?mailboxes, h.deliveries, h.evictions,
        congrArg Supply.next h.supply⟩
      case spent => exact fun v hm => absurd (hd ▸ hm) List.not_mem_nil
      case roster => exact congrArg (Roster.remove · id) h.roster
      case mailboxes =>
        apply ExtTreeMap.ext_getElem?
        intro k
        rw [getElem?_retired, getElem?_retired, h.mailboxes, h.supply]
    rw [unregister_eq h.sound.roster he, unregister_eq h.sound_right.roster he', h.supply]
    exact hr.offerAll nodup_mourners (fun _ => isLive_of_mem_mourners) hm

theorem displace (h : Twin x y) (hd : x.doomed = []) :
    Twin (x.displace l name) (y.displace l' name) := by
  simp only [Exchange.displace, h.roster]
  split
  case h_1 => exact h.unregister hd
  case h_2 => exact h

theorem enter (h : Twin x y) (hr : x.Newcomer r) (hn : x.roster.lookup r.identity.name = none) :
    Twin (x.enter r) (y.enter r) := by
  have hs := h.sound.enter hr hn
  have hfy : ¬ y.roster.IsLive r.id := h.roster ▸ hr.fresh
  rw [enter_eq hr.fresh] at hs ⊢
  rw [enter_eq hfy]
  refine ⟨hs, ?spent, h.doomed, ?roster, h.mailboxes, h.deliveries, h.evictions, h.supply⟩
  case roster => simp only [h.roster]
  case spent =>
    intro v hm
    have ⟨hl, hv⟩ := h.spent v hm
    have hne : r.id ≠ v := fun heq => hr.fresh (heq ▸ hl)
    refine ⟨Roster.isLive_insert.mpr (.inr hl), ?_⟩
    simpa [vacancy, mailbox?, Roster.entry?_insert, hne] using hv

theorem setRoster {s : Roster} (h : Twin x y) (hc : s.Consistent)
    (hb : ∀ id, (s.entry? id).map (·.mailbox) = (x.roster.entry? id).map (·.mailbox)) :
    Twin { x with roster := s } { y with roster := s } := by
  refine ⟨h.sound.setRoster hc hb, ?spent, h.doomed, rfl, h.mailboxes, h.deliveries, h.evictions,
    h.supply⟩
  intro v hm
  have ⟨hl, hv⟩ := h.spent v hm
  have ⟨e, he⟩ := Roster.isLive_iff.mp hl
  have ⟨e', he', hbv⟩ := Option.map_eq_some_iff.mp ((hb v).trans (congrArg _ he))
  refine ⟨.of_some he', ?_⟩
  rw [vacancy_eq he] at hv
  rw [vacancy_eq he', hbv]
  exact hv

theorem register (h : Twin x y) (hd : x.doomed = []) (hr : x.Newcomer r) :
    Twin (x.register l r) (y.register l' r) := by
  have hv : Twin (x.displace l r.identity.name) (y.displace l' r.identity.name) := h.displace hd
  have he := hv.enter (h.sound.newcomer_displace hr) h.sound.lookup_displace
  simp only [Exchange.register, tell_roster, he.roster]
  exact he.tell.tell.announce

theorem join (h : Twin x y) : Twin (x.join l id room) (y.join l' id room) := by
  simp only [Exchange.join, h.roster]
  split
  case h_1 => exact h
  case h_2 =>
    split
    case h_1 => exact h.tell
    case h_2 hf =>
      have hc : (x.roster.join id room).2.Consistent := h.sound.roster.join hf
      have hs := h.setRoster hc fun _ => Roster.map_entry?_join _ fun _ _ => rfl
      split
      case h_1 => exact hs.tell.announce
      case h_2 => exact hs.tell

theorem leave (h : Twin x y) : Twin (x.leave l id room) (y.leave l' id room) := by
  have hc : (x.roster.leave id room).2.Consistent := h.sound.roster.leave
  have hs := h.setRoster hc fun _ => Roster.map_entry?_leave _ fun _ _ => rfl
  simp only [Exchange.leave, h.roster]
  split
  case h_1 => exact h
  case h_2 =>
    split
    case h_1 hl =>
      rw [hl] at hs
      split
      case isTrue => exact hs.tell.announce
      case isFalse => exact hs.tell
    case h_2 => exact h.tell
    case h_3 => exact h

theorem perform (h : Twin x y) (hd : x.doomed = []) (ha : x.Allows c) :
    Twin (x.perform l c) (y.perform l' c) := by
  cases c
  case register => exact h.register hd ha
  case unregister => exact h.unregister hd
  case post => exact h.post
  case join => exact h.join
  case leave => exact h.leave
  case query => exact h

end Twin
end Exchange
end Parley
