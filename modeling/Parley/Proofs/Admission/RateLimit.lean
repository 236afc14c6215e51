import Parley.Admission.RateLimit

namespace Parley.Admission

namespace Quota

variable {q : Quota} {full : Option Nat} {start span swept clock latest next count : Nat}

theorem take?_eq_some_iff : q.take? full clock = some next ↔
    full.getD (clock + q.period) ≤ clock + q.period * q.burst ∧
      next = max (full.getD (clock + q.period)) clock + q.period := by
  simp only [take?]
  split
  case isTrue h => exact ⟨nofun, fun h' => absurd h'.1 (Nat.not_le.mpr h)⟩
  case isFalse h => simp [Nat.not_lt.mp h, eq_comm]

theorem take?_eq_none_iff : q.take? full clock = none ↔ clock + q.period * q.burst < full.getD (clock + q.period) := by
  simp [take?]

-- Whoever has taken some cells and asks for another one just when it is back gets it.
theorem take?_prompt (hb : 1 ≤ q.burst) :
    q.take? (if count = 0 then none else some ((count + 1) * q.period)) ((count + 1 - q.burst) * q.period) =
      some ((count + 1 + 1) * q.period) := by
  have hle : (count + 1) * q.period ≤ (count + 1 - q.burst) * q.period + q.period * q.burst := by
    rw [Nat.mul_comm q.period, ← Nat.add_mul]
    exact Nat.mul_le_mul_right _ (Nat.sub_le_iff_le_add.mp (Nat.le_refl _))
  refine take?_eq_some_iff.mpr ?_
  split
  case isTrue hc =>
    subst hc
    have hz : 0 + 1 - q.burst = 0 := by omega
    simp only [hz, Nat.zero_mul, Option.getD_none] at hle ⊢
    refine ⟨by omega, by omega⟩
  case isFalse =>
    have hmax : (count + 1 - q.burst) * q.period ≤ (count + 1) * q.period :=
      Nat.mul_le_mul_right _ (Nat.sub_le ..)
    rw [Option.getD_some, Nat.max_eq_left hmax]
    exact ⟨hle, Nat.succ_mul ..⟩

-- A peer has taken `count` cells within a span of time.  They come back one after the other, and until they are back
-- the peer is known; those who are not may have been forgotten by the time `swept`.
structure Spends (q : Quota) (start span : Nat) (full : Option Nat) (swept count : Nat) : Prop where
  owes  : 0 < count → start + count * q.period ≤ full.getD swept
  bound : count * q.period ≤ span + (q.burst + 1) * q.period

namespace Spends

theorem zero : q.Spends start span full swept 0 where
  owes := nofun
  bound := by simp

-- A cell that is taken at any other time puts off the time at which all cells are back.
theorem take (h : q.Spends start span full swept count) (hs : swept ≤ clock) (ht : q.take? full clock = some next) :
    q.Spends start span (some next) swept count := by
  obtain ⟨-, rfl⟩ := take?_eq_some_iff.mp ht
  refine ⟨fun hc => ?_, h.bound⟩
  have ho := h.owes hc
  cases full <;> simp only [Option.getD_none, Option.getD_some] at ho ⊢ <;> omega

theorem take_within (h : q.Spends start span full swept count) (hs : swept ≤ clock)
    (ht : q.take? full clock = some next) (hl : start ≤ clock) (hr : clock ≤ start + span) :
    q.Spends start span (some next) swept (count + 1) := by
  obtain ⟨hle, rfl⟩ := take?_eq_some_iff.mp ht
  have hb : (q.burst + 1) * q.period = q.period * q.burst + q.period := by rw [Nat.succ_mul, Nat.mul_comm]
  have hc : (count + 1) * q.period = count * q.period + q.period := Nat.succ_mul ..
  obtain rfl | hpos := Nat.eq_zero_or_pos count
  case inl => exact ⟨fun _ => by simp only [Option.getD_some]; omega, by omega⟩
  case inr =>
    -- What has been taken so far is due by now, but for a burst.
    have ho := h.owes hpos
    constructor
    case owes => cases full <;> simp only [Option.getD_none, Option.getD_some] at ho ⊢ <;> omega
    case bound => cases full <;> simp only [Option.getD_none, Option.getD_some] at ho hle <;> omega

theorem later (h : q.Spends start span full swept count) (hs : swept ≤ clock) :
    q.Spends start span full clock count where
  owes hc := Nat.le_trans (h.owes hc) (by cases full <;> simp [hs])
  bound := h.bound

theorem forget (h : q.Spends start span full swept count) (hs : swept ≤ clock) (hf : ∀ f ∈ full, f ≤ clock) :
    q.Spends start span none clock count where
  owes hc := by
    refine Nat.le_trans (h.owes hc) ?_
    cases full
    case none => exact hs
    case some f => exact hf f rfl
  bound := h.bound

end Spends

-- All cells of a peer that has taken `count` cells, the last of them at `latest`, are back within `count` periods and
-- one.
def Owes (q : Quota) (full : Option Nat) (latest count : Nat) : Prop :=
  ∀ f ∈ full, f ≤ latest + (count + 1) * q.period

theorem Owes.take (h : q.Owes full latest count) (hc : clock ≤ latest) (ht : q.take? full clock = some next) :
    q.Owes (some next) latest (count + 1) := by
  obtain ⟨-, rfl⟩ := take?_eq_some_iff.mp ht
  have hs : (count + 1 + 1) * q.period = (count + 1) * q.period + q.period := Nat.succ_mul ..
  have hs' : (count + 1) * q.period = count * q.period + q.period := Nat.succ_mul ..
  intro _ hf
  cases hf
  cases full
  case none => simp only [Option.getD_none]; omega
  case some f =>
    have hf := h f rfl
    simp only [Option.getD_some]
    omega

theorem Owes.burst_le (h : q.Owes full clock count) (hn : q.take? full clock = none) : q.burst ≤ count := by
  have hlt := take?_eq_none_iff.mp hn
  cases full
  case none =>
    have hlt : q.period * q.burst < q.period * 1 := by simpa using hlt
    exact Nat.le_trans (Nat.le_of_lt_succ (Nat.lt_of_mul_lt_mul_left hlt)) (Nat.zero_le _)
  case some f =>
    have hlt : q.period * q.burst < q.period * (count + 1) := by
      have hf := h f rfl
      rw [Nat.mul_comm] at hf
      simp only [Option.getD_some] at hlt
      omega
    exact Nat.le_of_lt_succ (Nat.lt_of_mul_lt_mul_left hlt)

end Quota

namespace Ledger

variable {q : Quota} {l l' : Ledger} {peer p : Network.Ip} {clock : Nat}

theorem lookup_cons_of_ne {full : Nat} (h : p ≠ peer) : List.lookup p ((peer, full) :: l) = l.lookup p := by
  simp [List.lookup_cons, beq_eq_false_iff_ne.mpr h]

theorem lookup_filter (keep : Network.Ip → Bool) :
    (l.filter fun e => keep e.1).lookup p = if keep p then l.lookup p else none := by
  induction l
  case nil => simp
  case cons e l hi =>
    obtain ⟨a, full⟩ := e
    by_cases ha : p = a
    case pos =>
      subst ha
      cases hk : keep p
      case true => simp [hk]
      case false => simpa [hk] using hi
    case neg =>
      rw [lookup_cons_of_ne ha]
      cases hk : keep a
      case true => simpa [hk, lookup_cons_of_ne ha] using hi
      case false => simpa [hk] using hi

-- A peer that takes a cell has no bearing on the others.
theorem take?_eq_some (h : l.take? q peer clock = some l') :
    (∃ next, q.take? (l.lookup peer) clock = some next ∧ l'.lookup peer = some next) ∧
      ∀ p, p ≠ peer → l'.lookup p = l.lookup p := by
  simp only [take?, Option.bind_eq_bind, Option.bind_eq_some_iff] at h
  obtain ⟨next, ht, h⟩ := h
  cases h
  refine ⟨⟨next, ht, List.lookup_cons_self⟩, fun p hp => (lookup_cons_of_ne hp).trans ?_⟩
  have hf := lookup_filter (l := l) (p := p) fun a => a ≠ peer
  simpa [hp] using hf

theorem take?_eq_none (h : l.take? q peer clock = none) : q.take? (l.lookup peer) clock = none := by
  cases ht : q.take? (l.lookup peer) clock
  case none => rfl
  case some => simp [take?, ht] at h

end Ledger
end Parley.Admission
