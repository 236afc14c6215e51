import Parley.Proofs.Exchange.Removal

namespace Parley

open Std

namespace Exchange

-- The exchange when an eviction has been counted, with those who are doomed otherwise.
def struck (doomed : List ConnectionId) (x : Exchange) : Exchange :=
  { x with doomed, evictions := x.evictions + 1 }

-- An eviction of the first of the doomed.
def evict (l : Listing) (id : ConnectionId) (doomed : List ConnectionId) (x : Exchange) : Exchange :=
  (x.struck doomed).unregister l id

-- How evictions follow one another.  A cascade goes through the doomed, first come, first served, until none are
-- left; an eviction may add to them.
inductive Cascade (l : Listing) : Exchange → Type
  | rest {x} (h : x.doomed = []) : Cascade l x
  | pass {x id doomed} (h : x.doomed = id :: doomed) (hl : ¬ x.roster.IsLive id)
      (next : Cascade l { x with doomed }) : Cascade l x
  | evict {x id doomed e} (h : x.doomed = id :: doomed) (he : x.roster.entry? id = some e)
      (next : Cascade l (x.evict l id doomed)) : Cascade l x

variable {x : Exchange} {id v : ConnectionId} {doomed : List ConnectionId} {e e' : Entry} {k : Nat}
  {l : Listing}

theorem settle_of_doomed_nil (h : x.doomed = []) : x.settle l = x := by
  rw [settle]
  split
  case h_1 => rfl
  case h_2 hd => rw [h] at hd; cases hd

theorem settle_of_not_isLive (h : x.doomed = id :: doomed) (hl : ¬ x.roster.IsLive id) :
    x.settle l = { x with doomed }.settle l := by
  rw [settle]
  split
  case h_1 hd => rw [h] at hd; cases hd
  case h_2 hd =>
    cases hd.symm.trans h
    exact dif_neg hl

theorem settle_of_isLive (h : x.doomed = id :: doomed) (hl : x.roster.IsLive id) :
    x.settle l = (x.evict l id doomed).settle l := by
  rw [settle]
  split
  case h_1 hd => rw [h] at hd; cases hd
  case h_2 hd =>
    cases hd.symm.trans h
    exact dif_pos hl

theorem evict_roster : (x.evict l id doomed).roster = x.roster.remove id :=
  unregister_roster ..

theorem entry?_evict :
    (x.evict l id doomed).roster.entry? v = if id = v then none else x.roster.entry? v := by
  rw [evict_roster, Roster.entry?_remove]

theorem isLive_evict : (x.evict l id doomed).roster.IsLive v ↔ id ≠ v ∧ x.roster.IsLive v := by
  rw [evict_roster, Roster.isLive_remove]

theorem evictions_evict (h : x.roster.Consistent) (he : x.roster.entry? id = some e) :
    (x.evict l id doomed).evictions = x.evictions + 1 := by
  have hs : (x.struck doomed).roster.Consistent := h
  rw [evict, unregister_eq hs he, offerAll_evictions]
  rfl

theorem consistent_evict (h : x.roster.Consistent) : (x.evict l id doomed).roster.Consistent :=
  evict_roster ▸ h.remove

namespace Sound

theorem strike (h : x.Sound) : (x.struck doomed).Sound :=
  h.of_writable? rfl fun _ _ _ => rfl

theorem evict (h : x.Sound) : (x.evict l id doomed).Sound :=
  h.strike.unregister

variable (h : x.Sound) (he : x.roster.entry? id = some e)

include h he

theorem mem_doomed_evict :
    v ∈ (x.evict l id doomed).doomed ↔
      v ∈ doomed ∨ (id ≠ v ∧ x.roster.IsLive v ∧ x.vacancy v = 0) :=
  h.strike.mem_doomed_unregister he

theorem vacancy_evict (hv : x.roster.IsLive v) (hn : id ≠ v) :
    (x.evict l id doomed).vacancy v = x.vacancy v - 1 :=
  h.strike.vacancy_unregister he hv hn

theorem queue_evict (hev : x.roster.entry? v = some e') (hn : id ≠ v) :
    (x.evict l id doomed).queue e'.mailbox =
      x.queue e'.mailbox ++
        if 0 < x.vacancy v then [farewell x.supply.stamp e.identity] else [] :=
  h.strike.queue_unregister he hev hn

theorem queue_evict_of_free (hk : ∀ v e', id ≠ v → x.roster.entry? v = some e' → e'.mailbox ≠ k) :
    (x.evict l id doomed).queue k = x.queue k :=
  h.strike.queue_unregister_of_free he hk

end Sound

-- Every exchange has its cascade, so evictions come to an end.
def cascade (l : Listing) (x : Exchange) : Cascade l x :=
  match h : x.doomed with
  | [] => .rest h
  | id :: doomed =>
    match he : x.roster.entry? id with
    | none => .pass h (Roster.not_isLive_iff.mpr he) (cascade l { x with doomed })
    | some _ => .evict h he (cascade l (x.evict l id doomed))
termination_by (x.roster.count, x.doomed.length)
decreasing_by
  · refine Prod.Lex.right _ ?_
    simp [h]
  · refine Prod.Lex.left _ _ ?_
    rw [evict_roster]
    exact Roster.count_remove_lt (.of_some he)

namespace Cascade

-- What is left in the end.
def last {x : Exchange} : Cascade l x → Exchange
  | rest _       => x
  | pass _ _ c   => c.last
  | evict _ _ c  => c.last

-- Who is evicted, in this order.
def evicted {x : Exchange} : Cascade l x → List ConnectionId
  | rest _                     => []
  | pass _ _ c                 => c.evicted
  | @evict _ _ id _ _ _ _ c    => id :: c.evicted

-- What those who stay are told.
def farewells {x : Exchange} : Cascade l x → List Notice
  | rest _                     => []
  | pass _ _ c                 => c.farewells
  | @evict _ _ _ _ e _ _ c     => farewell x.supply.stamp e.identity :: c.farewells

-- How many of the doomed are looked at.
def turns {x : Exchange} : Cascade l x → Nat
  | rest _       => 0
  | pass _ _ c   => c.turns + 1
  | evict _ _ c  => c.turns + 1

theorem last_eq_settle (c : Cascade l x) : c.last = x.settle l := by
  induction c
  case rest h => exact (settle_of_doomed_nil h).symm
  case pass h hl _ hi => exact hi.trans (settle_of_not_isLive h hl).symm
  case evict h he _ hi => exact hi.trans (settle_of_isLive h (.of_some he)).symm

theorem doomed_last (c : Cascade l x) : c.last.doomed = [] := by
  induction c
  case rest h => exact h
  case pass hi | evict hi => exact hi

theorem entry?_last (c : Cascade l x) :
    c.last.roster.entry? v = if v ∈ c.evicted then none else x.roster.entry? v := by
  induction c
  case rest => simp [last, evicted]
  case pass hi => exact hi
  case evict hi =>
    simp only [last, evicted, hi, entry?_evict, List.mem_cons]
    grind

theorem isLive_last (c : Cascade l x) :
    c.last.roster.IsLive v ↔ v ∉ c.evicted ∧ x.roster.IsLive v := by
  simp only [Roster.isLive_iff, c.entry?_last]
  split <;> simp_all

theorem isLive_of_mem_evicted (c : Cascade l x) (h : v ∈ c.evicted) : x.roster.IsLive v := by
  induction c
  case rest => cases h
  case pass hi => exact hi h
  case evict he _ hi =>
    cases List.mem_cons.mp h
    case inl heq => exact heq ▸ .of_some he
    case inr h => exact (isLive_evict.mp <| hi h).2

theorem nodup_evicted (c : Cascade l x) : c.evicted.Nodup := by
  induction c
  case rest => exact .nil
  case pass hi => exact hi
  case evict c hi =>
    refine List.nodup_cons.mpr ⟨fun h => ?_, hi⟩
    exact (isLive_evict.mp <| c.isLive_of_mem_evicted h).1 rfl

theorem length_farewells (c : Cascade l x) : c.farewells.length = c.evicted.length := by
  induction c
  case rest => rfl
  case pass hi => exact hi
  case evict hi => simp [farewells, evicted, hi]

theorem sound_last (c : Cascade l x) (h : x.Sound) : c.last.Sound := by
  induction c
  case rest => exact h
  case pass hi => exact hi <| h.of_writable? rfl fun _ _ _ => rfl
  case evict hi => exact hi h.evict

theorem consistent_last (c : Cascade l x) (h : x.roster.Consistent) : c.last.roster.Consistent := by
  induction c
  case rest => exact h
  case pass hi => exact hi h
  case evict hi => exact hi <| consistent_evict h

theorem evictions_last (c : Cascade l x) (h : x.roster.Consistent) :
    c.last.evictions = x.evictions + c.evicted.length := by
  induction c
  case rest => rfl
  case pass hi => exact hi h
  case evict he c hi =>
    simp only [last, evicted, hi (consistent_evict h), evictions_evict h he, List.length_cons]
    omega

-- Whoever stays was not doomed, and had room for all the farewells.
theorem spared (c : Cascade l x) (h : x.Sound) (hv : x.roster.IsLive v) (hn : v ∉ c.evicted) :
    v ∉ x.doomed ∧ c.evicted.length ≤ x.vacancy v := by
  induction c
  case rest hd => simp [hd, evicted]
  case pass x id doomed hd hl c hi =>
    have ⟨hm, hc⟩ := hi (h.of_writable? rfl fun _ _ _ => rfl) hv hn
    refine ⟨?_, hc⟩
    rw [hd, List.mem_cons, not_or]
    exact ⟨fun heq => hl (heq ▸ hv), hm⟩
  case evict x id doomed e hd he c hi =>
    simp only [evicted, List.mem_cons, not_or] at hn
    have hne := Ne.symm hn.1
    have ⟨hm, hc⟩ := hi h.evict (isLive_evict.mpr ⟨hne, hv⟩) hn.2
    simp only [h.mem_doomed_evict he, not_or, not_and] at hm
    rw [h.vacancy_evict he hv hne] at hc
    constructor
    case left => simp [hd, hn.1, hm.1]
    case right =>
      have := hm.2 hne hv
      simp only [evicted, List.length_cons]
      omega

-- Whoever goes was doomed, or had too little room for the farewells of those who went before.
theorem due (c : Cascade l x) (h : x.Sound) {as bs : List ConnectionId}
    (hc : c.evicted = as ++ v :: bs) : v ∈ x.doomed ∨ x.vacancy v < as.length := by
  induction c generalizing as
  case rest => simp [evicted] at hc
  case pass hd _ _ hi =>
    cases hi (h.of_writable? rfl fun _ _ _ => rfl) hc
    case inl hm => exact .inl <| hd ▸ List.mem_cons_of_mem _ hm
    case inr hv => exact .inr hv
  case evict x id doomed e hd he c hi =>
    cases as
    case nil =>
      have heq := (List.cons.inj hc).1
      exact .inl <| by simp [hd, heq]
    case cons a as =>
      have hc : c.evicted = as ++ v :: bs := (List.cons.inj hc).2
      have hm : v ∈ c.evicted := by simp [hc]
      have hv := isLive_evict.mp <| c.isLive_of_mem_evicted hm
      cases hi h.evict hc
      case inl hm =>
        cases (h.mem_doomed_evict he).mp hm
        case inl hm => exact .inl <| by simp [hd, hm]
        case inr hz => exact .inr <| by simp [hz.2.2]
      case inr hlt =>
        rw [h.vacancy_evict he hv.2 hv.1] at hlt
        refine .inr ?_
        simp only [List.length_cons]
        omega

-- Whoever stays gets every farewell.
theorem queue_last (c : Cascade l x) (h : x.Sound) (he : x.roster.entry? v = some e)
    (hn : v ∉ c.evicted) : c.last.queue e.mailbox = x.queue e.mailbox ++ c.farewells := by
  induction c
  case rest => simp [last, farewells]
  case pass hi => exact hi (h.of_writable? rfl fun _ _ _ => rfl) he hn
  case evict x id doomed e' hd he' c hi =>
    have hv := Roster.IsLive.of_some he
    have hp := ((Cascade.evict hd he' c).spared h hv hn).2
    simp only [evicted, List.mem_cons, not_or, List.length_cons] at hn hp
    have hne := Ne.symm hn.1
    have hq := hi h.evict (entry?_evict.trans <| (if_neg hne).trans he) hn.2
    have hpos : 0 < x.vacancy v := by omega
    simp only [last, farewells, hq, h.queue_evict he' he hne, hpos, if_true, List.append_assoc,
      List.singleton_append]

theorem queue_last_of_free (c : Cascade l x) (h : x.Sound)
    (hk : ∀ v e, x.roster.entry? v = some e → e.mailbox ≠ k) : c.last.queue k = x.queue k := by
  induction c
  case rest => rfl
  case pass hi => exact hi (h.of_writable? rfl fun _ _ _ => rfl) hk
  case evict x id doomed e hd he c hi =>
    have hq : (x.evict l id doomed).queue k = x.queue k :=
      h.queue_evict_of_free he fun v e' _ => hk v e'
    refine (hi h.evict fun v e' hv => ?_).trans hq
    rw [entry?_evict] at hv
    split at hv
    case isTrue => cases hv
    case isFalse => exact hk v e' hv

-- Whoever goes has its mailbox filled up first.
theorem length_queue_last (c : Cascade l x) (h : x.Sound) (hf : ∀ v ∈ x.doomed, x.vacancy v = 0)
    (he : x.roster.entry? v = some e) (hm : v ∈ c.evicted) :
    (c.last.queue e.mailbox).length = (x.queue e.mailbox).length + x.vacancy v := by
  induction c
  case rest => cases hm
  case pass x id doomed hd hl c hi =>
    have hf' : ∀ v ∈ doomed, x.vacancy v = 0 := fun v hv => hf v (hd ▸ List.mem_cons_of_mem _ hv)
    exact hi (h.of_writable? rfl fun _ _ _ => rfl) hf' he hm
  case evict x id doomed e' hd he' c hi =>
    by_cases hne : id = v
    case pos =>
      subst hne
      cases Option.some.inj (he.symm.trans he')
      have hz : x.vacancy id = 0 := hf id (hd ▸ List.mem_cons_self)
      have hfree : ∀ v e', (x.evict l id doomed).roster.entry? v = some e' → e'.mailbox ≠ e.mailbox := by
        intro v e' hv
        rw [entry?_evict] at hv
        split at hv
        case isTrue => cases hv
        case isFalse hne => exact (h.mailbox_ne he hv hne).symm
      rw [hz, last, c.queue_last_of_free h.evict hfree,
        h.queue_evict_of_free he fun v e' hne hv => (h.mailbox_ne he hv hne).symm, Nat.add_zero]
    case neg =>
      have hv := Roster.IsLive.of_some he
      have hm : v ∈ c.evicted := (List.mem_cons.mp hm).resolve_left (Ne.symm hne)
      have hf' : ∀ w ∈ (x.evict l id doomed).doomed, (x.evict l id doomed).vacancy w = 0 := by
        intro w hw
        by_cases hl : (x.evict l id doomed).roster.IsLive w
        case neg => simp [vacancy, mailbox?, Roster.not_isLive_iff.mp hl]
        case pos =>
          obtain ⟨hne, hl⟩ := isLive_evict.mp hl
          rw [h.vacancy_evict he' hl hne]
          cases (h.mem_doomed_evict he').mp hw
          case inl hw => simp [hf w (hd ▸ List.mem_cons_of_mem _ hw)]
          case inr hz => simp [hz.2.2]
      rw [last, hi h.evict hf' (entry?_evict.trans <| (if_neg hne).trans he) hm,
        h.queue_evict he' he hne, h.vacancy_evict he' hv hne]
      split
      case isTrue => simp only [List.length_append, List.length_singleton]; omega
      case isFalse => simp only [List.append_nil]; omega

end Cascade
end Exchange
end Parley
