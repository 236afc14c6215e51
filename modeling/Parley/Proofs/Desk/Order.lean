import Mathlib.Data.List.Nodup
import Parley.Proofs.Desk.Run
import Parley.Proofs.Exchange.Order
import Parley.Proofs.Exchange.Supply

namespace Parley

open Std

-- Two parts of a list without repetitions agree on the order of what they have in common.
theorem pair_sublist_of_nodup {α : Type} [DecidableEq α] {as bs cs : List α} {a b : α} (hn : cs.Nodup)
    (h₁ : as.Sublist cs) (h₂ : bs.Sublist cs) (h : [a, b].Sublist as) (ha : a ∈ bs) (hb : b ∈ bs) :
    [a, b].Sublist bs := by
  have hs : bs.Sublist (cs.filter (· ∈ bs)) := by
    have := h₂.filter (· ∈ bs)
    rwa [List.filter_eq_self.mpr fun _ h => decide_eq_true h] at this
  have hl : (cs.filter (· ∈ bs)).length ≤ bs.length :=
    (List.Nodup.subperm (hn.filter _) fun _ h => of_decide_eq_true (List.mem_filter.mp h).2).length_le
  have hp : [a, b].filter (· ∈ bs) = [a, b] := by simp [ha, hb]
  rw [hs.eq_of_length_le hl, ← hp]
  exact (h.trans h₁).filter _

namespace Desk

variable {d d' : Desk} {k : Nat}

-- What the exchange puts into a mailbox by a step.
def Step.delivered (k : Nat) {d d' : Desk} : Step d d' → List Notice
  | proceed .. => (d'.exchange.queue k).drop (d.exchange.queue k).length
  | _          => []

-- The ids that the exchange gives to its own notices by a step.
def Step.coined {d d' : Desk} : Step d d' → List String
  | proceed .. => d.exchange.coined d'.exchange
  | _          => []

theorem Step.orderly (s : Step d d') (h : d.exchange.Sound) :
    ∃ ns : List Notice, (∀ k, (s.delivered k).Sublist ns) ∧
      (ns.map (·.id)).Subperm (s.post?.toList.map (·.notice.id) ++ s.coined) := by
  cases s
  case submit | shutdown | between => exact ⟨[], fun _ => .refl _, List.nil_subperm⟩
  case proceed l attended ha hs =>
    have hq k : (d'.exchange.queue k).drop (d.exchange.queue k).length =
        d.exchange.delivered k (d.acts l) := by
      rw [queue_step hs, List.drop_left]
      rfl
    have hc : d.exchange.coined d'.exchange = d.exchange.coined (d.exchange.replay (d.acts l)) := by
      rw [Exchange.coined, supply_step hs]
      rfl
    simp only [Step.delivered, Step.coined, Step.post?, Step.command?, hq, hc]
    cases hn : d.next?
    case none =>
      simp only [acts, hn]
      exact h.orderly_closeAll
    case some c =>
      obtain ⟨ns, hd, hi⟩ := h.orderly_journal (l := l) (ha c hn)
      simp only [acts, hn]
      refine ⟨ns, hd, ?_⟩
      cases c
      case post => exact hi
      all_goals exact hi

theorem Step.issued_le (s : Step d d') : d.exchange.supply.issued ≤ d'.exchange.supply.issued := by
  cases s
  case submit hs => exact Nat.le_of_eq (by rw [(exchange_submit hs).1])
  case shutdown => exact Nat.le_refl _
  case proceed hs => exact supply_step hs ▸ Exchange.issued_replay_le
  case between i _ =>
    cases i
    case issue => exact Nat.le_succ _
    all_goals exact Nat.le_refl _

namespace Run

-- What the exchange puts into a mailbox.  What sessions put there themselves does not count.
def delivered (k : Nat) {d d' : Desk} : Run d d' → List Notice
  | refl       => []
  | step run s => run.delivered k ++ s.delivered k

-- The ids of the notices that are the exchange's own.
def coined {d d' : Desk} : Run d d' → List String
  | refl       => []
  | step run s => run.coined ++ s.coined

theorem orderly (run : Run d d') (h : d.exchange.Sound) :
    ∃ ns : List Notice, (∀ k, (run.delivered k).Sublist ns) ∧
      (ns.map (·.id)).Subperm (run.posts.map (·.notice.id) ++ run.coined) := by
  induction run
  case refl => exact ⟨[], fun _ => .refl _, List.nil_subperm⟩
  case step run s hi =>
    obtain ⟨ns, hd, hs⟩ := hi
    obtain ⟨ms, hd', hs'⟩ := s.orderly (run.sound h)
    refine ⟨ns ++ ms, fun k => (hd k).append (hd' k), ?_⟩
    simp only [posts, coined, List.map_append]
    exact (hs.append hs').trans Exchange.perm_append_shuffle.subperm

theorem lt_issued_of_mem_coined (run : Run d d') {i : String} (h : i ∈ run.coined) :
    ∃ m < d'.exchange.supply.issued, Supply.uuid m = i := by
  induction run
  case refl => cases h
  case step e f run s hi =>
    cases List.mem_append.mp h
    case inl hm =>
      have ⟨m, hm, hu⟩ := hi hm
      exact ⟨m, Nat.lt_of_lt_of_le hm s.issued_le, hu⟩
    case inr hm =>
      have hle := s.issued_le
      cases s
      case submit | shutdown | between => cases hm
      case proceed =>
        have ⟨m, hm, hu⟩ := List.mem_map.mp hm
        have hm := List.mem_range'_1.mp hm
        exact ⟨m, by omega, hu⟩

-- The exchange gives no id to two notices.
theorem nodup_coined (run : Run d d') : run.coined.Nodup := by
  induction run
  case refl => exact List.nodup_nil
  case step run s hi =>
    cases s
    case submit | shutdown | between => simpa [coined, Step.coined] using hi
    case proceed hs =>
      refine List.nodup_append.mpr ⟨hi, ?_, ?_⟩
      case refine_1 => exact List.Nodup.map (fun _ _ => Supply.uuid_inj) List.nodup_range'
      case refine_2 =>
        intro i hm j hm' heq
        have ⟨m, hm, hu⟩ := run.lt_issued_of_mem_coined hm
        have ⟨m', hm', hu'⟩ := List.mem_map.mp hm'
        have := Supply.uuid_inj (hu.trans <| heq.trans hu'.symm)
        have := List.mem_range'_1.mp hm'
        omega

-- Whatever else happens, the exchange puts no notice into a mailbox twice, and if two mailboxes are given the
-- same two notices, they are so in the same order.  Everything that is posted has to have an id of its own.
theorem delivered_in_order {farewell : String} {capacity : Nat} (run : Run (.new farewell capacity) d)
    (hp : (run.posts.map (·.notice.id)).Nodup) (hc : ∀ p ∈ run.posts, p.notice.id ∉ run.coined) :
    (∀ k, ((run.delivered k).map (·.id)).Nodup) ∧
    (∀ k k' n n', n ∈ run.delivered k → n' ∈ run.delivered k' → n.id = n'.id → n = n') ∧
    ∀ k k' i j, [i, j].Sublist ((run.delivered k).map (·.id)) → i ∈ (run.delivered k').map (·.id) →
      j ∈ (run.delivered k').map (·.id) → [i, j].Sublist ((run.delivered k').map (·.id)) := by
  have ⟨ns, hd, hs⟩ := run.orderly Exchange.sound_empty
  -- All mailboxes get their notices out of one list, in which no id occurs twice.
  have hn : (ns.map (·.id)).Nodup := by
    have ⟨is, hi, hs⟩ := hs
    refine hi.nodup_iff.mp <| hs.nodup <| List.nodup_append.mpr ⟨hp, run.nodup_coined, ?_⟩
    rintro _ hm i hm' rfl
    have ⟨p, hm, he⟩ := List.mem_map.mp hm
    exact hc p hm (he ▸ hm')
  have hi k : ((run.delivered k).map (·.id)).Sublist (ns.map (·.id)) := (hd k).map _
  refine ⟨fun k => (hi k).nodup hn, ?same, ?order⟩
  case same =>
    intro k k' n n' hm hm' he
    exact List.inj_on_of_nodup_map hn ((hd k).subset hm) ((hd k').subset hm') he
  case order => exact fun k k' _ _ => pair_sublist_of_nodup hn (hi k) (hi k')

-- Ann says hello to everyone and then Bob does; Bob hears them in the order in which Ann does.
theorem delivered_in_order_to_both :
    let ann : Registration := ⟨⟨1⟩, ⟨7, "ann"⟩, 0⟩
    let bob : Registration := ⟨⟨2⟩, ⟨8, "bob"⟩, 1⟩
    let hello : Post := .toEveryone <| Notice.about ⟨"hello", .epoch⟩ .chatMessage ann.identity
    let hi : Post := .toEveryone <| Notice.about ⟨"hi", .epoch⟩ .chatMessage bob.identity
    ∃ (d : Desk) (run : Run (.new "bye") d), run.posts = [hello, hi] ∧ run.admitted = [ann, bob] ∧
      (∀ k ∈ [0, 1], ((run.delivered k).map (·.id)).Nodup) ∧
      ["hello", "hi"].Sublist ((run.delivered 0).map (·.id)) ∧
      ["hello", "hi"].Sublist ((run.delivered 1).map (·.id)) := by
  intro ann bob hello hi
  let w := (Exchange.Interlude.prepare 0 8).apply .empty
  let x := (Exchange.Interlude.prepare 1 8).apply w
  let x₁ := x.perform .ascending (.register ann)
  let x₂ := x₁.perform .ascending (.register bob)
  let x₃ := x₂.perform .ascending (.post hello)
  let x₄ := x₃.perform .ascending (.post hi)
  have h₁ : x.handle .ascending (.register ann) = x₁ := Exchange.handle_eq_perform (by decide)
  have h₂ : x₁.handle .ascending (.register bob) = x₂ := Exchange.handle_eq_perform (by decide)
  have h₃ : x₂.handle .ascending (.post hello) = x₃ := Exchange.handle_eq_perform (by decide)
  have h₄ : x₃.handle .ascending (.post hi) = x₄ := Exchange.handle_eq_perform (by decide)
  have hw : w.Permits (.prepare 1 8) := by
    simp [w, Exchange.Permits, Exchange.Interlude.apply, Exchange.openMailbox, Exchange.empty]
  have hx : x.Allows (.register ann) := Exchange.newcomer_first (fun _ => ExtTreeMap.not_mem_empty) (by decide)
  have hb : x₁.Allows (.register bob) :=
    Exchange.newcomer_second (fun _ => ExtTreeMap.not_mem_empty) (by decide) (by decide) (by decide)
  let y₁ := x.handle .ascending (.register ann)
  let y₂ := y₁.handle .ascending (.register bob)
  let y₃ := y₂.handle .ascending (.post hello)
  let y₄ := y₃.handle .ascending (.post hi)
  let desk (x : Exchange) (backlog : List Errand) (handled : Nat) : Desk :=
    ⟨x, Desk.defaultCapacity, backlog, handled, none, false, "bye"⟩
  let errands : List Errand :=
    [⟨.register ann, none⟩, ⟨.register bob, none⟩, ⟨.post hello, none⟩, ⟨.post hi, none⟩]
  let run₀ : Run (.new "bye") (desk x [] 0) :=
    .step (.step .refl (.between (.prepare 0 8) ExtTreeMap.not_mem_empty)) (.between (.prepare 1 8) hw)
  let run₁ : Run (.new "bye") (desk x errands 0) :=
    .step (.step (.step (.step run₀ (.submit ⟨.register ann, none⟩ rfl)) (.submit ⟨.register bob, none⟩ rfl))
      (.submit ⟨.post hello, none⟩ rfl)) (.submit ⟨.post hi, none⟩ rfl)
  let run₂ : Run (.new "bye") (desk y₂ (errands.drop 2) 2) :=
    .step (.step run₁ (.proceed .ascending true rfl fun c hc => Option.some.inj hc ▸ hx))
      (.proceed .ascending true rfl fun c hc => Option.some.inj hc ▸ h₁.symm ▸ hb)
  let run : Run (.new "bye") (desk y₄ [] 4) :=
    .step (.step run₂ (.proceed .ascending true rfl fun c hc => Option.some.inj hc ▸ trivial))
      (.proceed .ascending true rfl fun c hc => Option.some.inj hc ▸ trivial)
  have hc : ∀ p ∈ run.posts, p.notice.id ∉ run.coined := by
    intro p hp hm
    obtain ⟨m, _, hu⟩ := run.lt_issued_of_mem_coined hm
    -- Ids that are given out are longer.
    have hshort : ∀ p ∈ [hello, hi], p.notice.id.toList.length ≤ 5 := by decide
    have hlong := hshort p hp
    simp only [← hu, Supply.uuid, String.toList_ofList, List.length_append, List.length_cons,
      Text.length_hexPadded] at hlong
    omega
  have hd (k : Nat) : run.delivered k = (y₁.queue k).drop (x.queue k).length ++
      (y₂.queue k).drop (y₁.queue k).length ++ (y₃.queue k).drop (y₂.queue k).length ++
      (y₄.queue k).drop (y₃.queue k).length := rfl
  have hann : ["hello", "hi"].Sublist ((run.delivered 0).map (·.id)) := by
    simp only [hd, y₁, y₂, y₃, y₄, h₁, h₂, h₃, h₄]
    decide +kernel
  have hbob : "hello" ∈ (run.delivered 1).map (·.id) ∧ "hi" ∈ (run.delivered 1).map (·.id) := by
    simp only [hd, y₁, y₂, y₃, y₄, h₁, h₂, h₃, h₄]
    decide +kernel
  have hposts : run.posts = [hello, hi] := rfl
  have hnodup : ([hello, hi].map (·.notice.id)).Nodup := by decide
  obtain ⟨honce, _, horder⟩ := run.delivered_in_order (hposts ▸ hnodup) hc
  exact ⟨_, run, hposts, rfl, fun k _ => honce k, hann, horder 0 1 _ _ hann hbob.1 hbob.2⟩

end Run
end Desk
end Parley
