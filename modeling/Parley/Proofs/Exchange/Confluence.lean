import Mathlib.Data.List.Basic
import Parley.Proofs.Exchange.Eviction
import Parley.Proofs.Exchange.Twin

namespace Parley

open Std

-- A notice without what tells it from others that say the same.
def Notice.unstamped (n : Notice) : Notice :=
  { n with id := "", time := .epoch }

namespace Exchange

variable {x y : Exchange} {id v : ConnectionId} {e : Entry} {k : Nat} {l l' : Listing} {c : Command}

theorem Twin.symm (h : Twin x y) : Twin y x where
  sound      := h.sound_right
  spent v hm := by
    rw [h.roster, h.vacancy_right]
    exact h.spent v (h.doomed.mem_iff.mp hm)
  doomed     := h.doomed.symm
  roster     := h.roster.symm
  mailboxes  := h.mailboxes.symm
  deliveries := h.deliveries.symm
  evictions  := h.evictions.symm
  supply     := h.supply.symm

namespace Cascade

-- If someone goes in one cascade but stays in another one, take the first of them: there was less room than
-- the farewells before that, but enough for all the farewells of the other cascade, which are more.
theorem evicted_subset (c : Cascade l x) (d : Cascade l' y) (h : Twin x y) : c.evicted ⊆ d.evicted := by
  suffices hs : ∀ bs as, c.evicted = as ++ bs → as ⊆ d.evicted → c.evicted ⊆ d.evicted by
    exact hs c.evicted [] rfl (List.nil_subset _)
  intro bs
  induction bs
  case nil =>
    intro as hc ha
    rwa [hc, List.append_nil]
  case cons v bs hi =>
    intro as hc ha
    have hm : v ∈ d.evicted := by
      refine Decidable.byContradiction fun hn => ?_
      have hl := c.isLive_of_mem_evicted (hc ▸ List.mem_append_right _ List.mem_cons_self)
      have ⟨hnd, hr⟩ := d.spared h.sound_right (h.roster ▸ hl) hn
      have hu : as.Nodup := (List.nodup_append.mp (hc ▸ c.nodup_evicted)).1
      have hle : as.length ≤ d.evicted.length := hu.length_le_of_subset ha
      rw [h.vacancy_right] at hr
      cases c.due h.sound hc
      case inl hd => exact hnd (h.doomed.mem_iff.mpr hd)
      case inr hlt => omega
    refine hi (as ++ [v]) (by rw [hc, List.append_assoc]; rfl) ?_
    exact List.append_subset.mpr ⟨ha, List.cons_subset.mpr ⟨hm, List.nil_subset _⟩⟩

theorem evicted_perm (c : Cascade l x) (d : Cascade l' y) (h : Twin x y) :
    c.evicted.Perm d.evicted :=
  (List.perm_ext_iff_of_nodup c.nodup_evicted d.nodup_evicted).mpr fun _ =>
    ⟨fun hm => c.evicted_subset d h hm, fun hm => d.evicted_subset c h.symm hm⟩

theorem entry?_last_eq (c : Cascade l x) (d : Cascade l' y) (h : Twin x y) :
    Roster.entry? c.last.roster v = Roster.entry? d.last.roster v := by
  rw [c.entry?_last, d.entry?_last, h.roster]
  simp only [(c.evicted_perm d h).mem_iff]

theorem unstamped_farewells (c : Cascade l x) (s : Notice.Stamp) :
    c.farewells.map Notice.unstamped = c.evicted.filterMap fun v =>
      (x.roster.entry? v).map fun e => (farewell s e.identity).unstamped := by
  induction c
  case rest => rfl
  case pass hi => exact hi
  case evict x id doomed e hd he c hi =>
    have hc : c.evicted.filterMap (fun v =>
          (Roster.entry? (x.evict l id doomed).roster v).map fun e => (farewell s e.identity).unstamped) =
        c.evicted.filterMap fun v =>
          (x.roster.entry? v).map fun e => (farewell s e.identity).unstamped := by
      refine List.filterMap_congr fun v hm => ?_
      have := isLive_evict.mp <| c.isLive_of_mem_evicted hm
      rw [entry?_evict, if_neg this.1]
    simp only [farewells, evicted, List.map_cons, hi, hc, List.filterMap_cons, he, Option.map_some]
    rfl

theorem farewells_perm (c : Cascade l x) (d : Cascade l' y) (h : Twin x y) :
    (c.farewells.map Notice.unstamped).Perm (d.farewells.map Notice.unstamped) := by
  rw [c.unstamped_farewells x.supply.stamp, d.unstamped_farewells x.supply.stamp, h.roster]
  exact (c.evicted_perm d h).filterMap _

-- How full a mailbox is in the end does not depend on the order, whoever it belonged to.
theorem length_queue_last_eq (c : Cascade l x) (d : Cascade l' y) (h : Twin x y) :
    (c.last.queue k).length = (d.last.queue k).length := by
  have hf : ∀ v ∈ x.doomed, x.vacancy v = 0 := fun v hm => (h.spent v hm).2
  have hf' : ∀ v ∈ y.doomed, y.vacancy v = 0 := fun v hm => (h.symm.spent v hm).2
  by_cases hk : ∃ v e, x.roster.entry? v = some e ∧ e.mailbox = k
  case neg =>
    have hk : ∀ v e, x.roster.entry? v = some e → e.mailbox ≠ k := fun v e he hb => hk ⟨v, e, he, hb⟩
    rw [c.queue_last_of_free h.sound hk, d.queue_last_of_free h.sound_right (h.roster ▸ hk), h.queue_right]
  case pos =>
    obtain ⟨v, e, he, rfl⟩ := hk
    have he' : y.roster.entry? v = some e := h.roster ▸ he
    have hp := c.evicted_perm d h
    by_cases hm : v ∈ c.evicted
    case pos =>
      rw [c.length_queue_last h.sound hf he hm, d.length_queue_last h.sound_right hf' he' (hp.mem_iff.mp hm),
        h.queue_right, h.vacancy_right]
    case neg =>
      rw [c.queue_last h.sound he hm, d.queue_last h.sound_right he' (mt hp.mem_iff.mpr hm), h.queue_right,
        List.length_append, List.length_append, c.length_farewells, d.length_farewells, hp.length_eq]

end Cascade

theorem count_filled? {as : List Attempt} :
    (as.filterMap (·.filled?)).count k = (as.filterMap (·.enqueued? k)).length := by
  induction as
  case nil => rfl
  case cons a as hi =>
    simp only [List.filterMap_cons, Attempt.filled?, Attempt.enqueued?] at hi ⊢
    by_cases ho : a.outcome = .accepted
    case neg => simp [ho, hi]
    case pos => by_cases hk : a.mailbox = k <;> simp [ho, hk, hi]

-- There are as many deliveries as notices that went into mailboxes.
theorem Cascade.deliveries_last_eq (c : Cascade l x) (d : Cascade l' y) (h : Twin x y) :
    c.last.deliveries = d.last.deliveries := by
  have hp : ((x.attempts c.acts).filterMap (·.filled?)).Perm
      ((y.attempts d.acts).filterMap (·.filled?)) := by
    rw [List.perm_iff_count]
    intro k
    have hl := c.length_queue_last_eq d h (k := k)
    rw [← c.replay_acts, ← d.replay_acts, queue_replay, queue_replay, h.queue_right, List.length_append,
      List.length_append] at hl
    rw [count_filled?, count_filled?]
    exact Nat.add_left_cancel hl
  rw [← c.replay_acts, ← d.replay_acts, deliveries_replay, deliveries_replay, h.deliveries, hp.length_eq]

-- Whatever the orders in which connections are gone through: the same connections stay, with the same names
-- and in the same rooms, the counts are the same, and each has got the same notices as far as they go.
theorem Run.handle_confluent (run : Run Allows .empty x) (ha : x.Allows c) (l₁ l₂ : Listing) :
    (x.handle l₁ c).roster = (x.handle l₂ c).roster ∧
    (x.handle l₁ c).deliveries = (x.handle l₂ c).deliveries ∧
    (x.handle l₁ c).evictions = (x.handle l₂ c).evictions ∧
    ∀ v e, (x.handle l₁ c).roster.entry? v = some e →
      ∃ ns₁ ns₂,
        (x.handle l₁ c).queue e.mailbox = x.queue e.mailbox ++ ns₁ ∧
        (x.handle l₂ c).queue e.mailbox = x.queue e.mailbox ++ ns₂ ∧
        (ns₁.map Notice.unstamped).Perm (ns₂.map Notice.unstamped) := by
  have hd := run.undoomed rfl
  have hs := run.sound sound_empty
  have ht : Twin (x.perform l₁ c) (x.perform l₂ c) := (Twin.refl hs hd).perform hd ha
  let c₁ := cascade l₁ (x.perform l₁ c)
  let c₂ := cascade l₂ (x.perform l₂ c)
  simp only [handle, ← c₁.last_eq_settle, ← c₂.last_eq_settle]
  refine ⟨?roster, c₁.deliveries_last_eq c₂ ht, ?evictions, fun v e he => ?notices⟩
  case roster =>
    exact (c₁.sound_last ht.sound).roster.eq_of_entries (c₂.sound_last ht.sound_right).roster fun _ =>
      c₁.entry?_last_eq c₂ ht
  case evictions =>
    rw [c₁.evictions_last ht.sound.roster, c₂.evictions_last ht.sound_right.roster, ht.evictions,
      (c₁.evicted_perm c₂ ht).length_eq]
  case notices =>
    obtain ⟨hn, hl⟩ := c₁.isLive_last.mp (.of_some he)
    rw [c₁.entry?_last, if_neg hn] at he
    have he' : (x.perform l₂ c).roster.entry? v = some e :=
      (congrArg (Roster.entry? · v) ht.roster).trans he
    have hn' := mt (c₁.evicted_perm c₂ ht).mem_iff.mpr hn
    -- What the command itself put into the mailbox is the same in both.
    let ns := (x.attempts (Acts.perform x l₁ c)).filterMap (·.enqueued? e.mailbox)
    have hq : (x.perform l₁ c).queue e.mailbox = x.queue e.mailbox ++ ns := by
      rw [← replay_perform, queue_replay]
    refine ⟨ns ++ c₁.farewells, ns ++ c₂.farewells, ?_, ?_, ?_⟩
    · rw [c₁.queue_last ht.sound he hn, hq, List.append_assoc]
    · rw [c₂.queue_last ht.sound_right he' hn', ht.queue_right, hq, List.append_assoc]
    · simp only [List.map_append]
      exact (c₁.farewells_perm c₂ ht).append_left _

-- There is room for the welcome in Bob's mailbox, and for nothing else; whichever of the two comes first.
theorem Run.handle_confluent_newcomer :
    let ann : Registration := ⟨⟨1⟩, ⟨7, "ann"⟩, 0⟩
    let bob : Registration := ⟨⟨2⟩, ⟨8, "bob"⟩, 1⟩
    let x := (Interlude.prepare 0 8).apply .empty
    let y := (Interlude.prepare 1 1).apply (x.handle .ascending (.register ann))
    let backward : Listing := ⟨fun _ => List.reverse, fun _ => List.reverse_perm⟩
    y.Allows (.register bob) ∧
      (y.handle .ascending (.register bob)).roster = (y.handle backward (.register bob)).roster := by
  intro ann bob x y backward
  have hx : x.Allows (.register ann) := newcomer_first (fun _ => ExtTreeMap.not_mem_empty) (by decide)
  have hp : x.handle .ascending (.register ann) = x.perform .ascending (.register ann) :=
    handle_eq_perform (by decide)
  have hk : (x.handle .ascending (.register ann)).Permits (.prepare 1 1) := by
    rw [hp]
    change 1 ∉ (x.perform .ascending (.register ann)).mailboxes
    decide
  have hb : y.Allows (.register bob) := by
    simp only [y, hp]
    refine ⟨by decide, by decide, fun id e he => ?_⟩
    rw [apply_roster, perform_roster] at he
    change Roster.entry? (Roster.insert .empty ann.id ann.identity ann.mailbox) id = some e at he
    rw [Roster.entry?_insert] at he
    split at he
    case isTrue => cases he; decide
    case isFalse => exact nomatch (Roster.IsLive.of_some he)
  have run : Run Allows .empty y :=
    .step (.step (.step .refl (.between (.prepare 0 8) ExtTreeMap.not_mem_empty))
      (.command .ascending (.register ann) hx)) (.between (.prepare 1 1) hk)
  exact ⟨hb, (run.handle_confluent hb .ascending backward).1⟩

end Exchange
end Parley
