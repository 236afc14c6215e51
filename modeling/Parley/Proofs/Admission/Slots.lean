import Mathlib.Data.Fintype.EquivFin
import Parley.Admission.Slots

namespace Parley.Admission.Slots

-- What becomes of the slots as any number of tasks ask for one or drop the guard that they got, in any order, with the
-- guards that are held at the end.
inductive Run (limit : Nat) : Slots → List Nat → Type
  | start : Run limit {} []
  | reserve {s s' guards} (run : Run limit s guards) (g : Nat) (hg : g ∉ guards) (h : s.acquire? limit = some s') :
      Run limit s' (g :: guards)
  | refuse {s guards} (run : Run limit s guards) (h : s.acquire? limit = none) : Run limit s guards
  | drop {s guards g rest} (run : Run limit s guards) (h : guards.Perm (g :: rest)) : Run limit s.release rest

variable {s s' : Slots} {limit : Nat} {guards : List Nat}

-- How many attempts have succeeded.
def Run.admitted {s : Slots} {guards : List Nat} : Run limit s guards → Nat
  | start             => 0
  | reserve run _ _ _ => run.admitted + 1
  | refuse run _      => run.admitted
  | drop run _        => run.admitted

theorem acquire?_eq_some_iff :
    s.acquire? limit = some s' ↔ s.held < limit ∧ s' = ⟨s.held + 1, s.shown + 1, s.total + 1⟩ := by
  simp only [acquire?]
  split
  case isTrue h => simp [h, eq_comm]
  case isFalse h => simp [h]

theorem isSome_acquire? : (s.acquire? limit).isSome ↔ s.held < limit := by
  simp only [acquire?]
  split
  case isTrue h => simp [h]
  case isFalse h => simp [h]

-- What can be read off the slots.
structure Counts (s : Slots) (limit : Nat) (guards : List Nat) (admitted : Nat) : Prop where
  held  : s.held = guards.length
  le    : s.held ≤ limit
  shown : s.shown = s.held
  total : s.total = admitted
  apart : guards.Nodup

theorem Run.counts (run : Run limit s guards) : s.Counts limit guards run.admitted := by
  induction run
  case start => exact ⟨rfl, Nat.zero_le _, rfl, rfl, .nil⟩
  case reserve g hg h hi =>
    obtain ⟨hlt, rfl⟩ := acquire?_eq_some_iff.mp h
    refine ⟨?_, hlt, ?_, congrArg (· + 1) hi.total, List.nodup_cons.mpr ⟨hg, hi.apart⟩⟩
    case refine_1 => rw [List.length_cons, hi.held]
    case refine_2 => simp [hi.shown]
  case refuse hi => exact hi
  case drop s _ g rest _ h hi =>
    -- Somebody holds the slot that is given back.
    have hheld : s.held = rest.length + 1 := by rw [hi.held, h.length_eq, List.length_cons]
    have hle := hi.le
    refine ⟨?_, ?_, ?_, hi.total, (List.nodup_cons.mp (h.nodup hi.apart)).2⟩
    case refine_1 => simp [release, hheld]
    case refine_2 => simp only [release]; omega
    case refine_3 => simp [release, hi.shown, hheld]

-- A task that reserves a slot gets a guard that nobody has.
theorem Run.exists_reserve (run : Run limit s guards) (h : s.acquire? limit = some s') :
    ∃ (guards' : List Nat) (run' : Run limit s' guards'),
      guards'.length = guards.length + 1 ∧ run'.admitted = run.admitted + 1 := by
  obtain ⟨g, hg⟩ := Infinite.exists_notMem_finset guards.toFinset
  exact ⟨g :: guards, run.reserve g (fun hm => hg (List.mem_toFinset.mpr hm)) h, List.length_cons, rfl⟩

-- As many guards are dropped as there are members of a list.
theorem Run.drops {α : Type} (run : Run limit s guards) (as : List α) (h : as.length ≤ guards.length) :
    ∃ (guards' : List Nat) (run' : Run limit (as.foldl (fun s _ => s.release) s) guards'),
      guards'.length + as.length = guards.length ∧ run'.admitted = run.admitted := by
  induction as generalizing s guards
  case nil => exact ⟨guards, run, rfl, rfl⟩
  case cons a as hi =>
    cases guards
    case nil => cases h
    case cons g guards =>
      obtain ⟨guards', run', hlen, ha⟩ := hi (.drop run (.refl _)) (Nat.le_of_succ_le_succ h)
      exact ⟨guards', run', congrArg (· + 1) hlen, ha⟩

end Parley.Admission.Slots
