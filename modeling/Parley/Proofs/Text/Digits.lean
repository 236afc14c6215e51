import Mathlib.Algebra.Group.Nat.Defs
import Parley.Text.Digits

namespace Parley.Text

variable {d m n w : Nat} {ds : List Nat} {cs rest : List Char}

-- The text of a row of digits, given by value.
def row (ds : List Nat) : List Char := ds.map Nat.digitChar

-- A text that does not go on with a digit.
def Ends (rest : List Char) : Prop := ∀ c ∈ rest.head?, digit? c = none

theorem digit?_digitChar (h : d < 10) : digit? (Nat.digitChar d) = some d := by
  decide +revert

theorem hexDigit?_digitChar (h : d < 16) : hexDigit? (Nat.digitChar d) = some d := by
  decide +revert

theorem hexDigit?_toLower {c : Char} : hexDigit? c.toLower = hexDigit? c := by
  by_cases h : 'A' ≤ c ∧ c ≤ 'Z'
  case pos =>
    have hd : ∀ n < 26, hexDigit? (Char.ofNat (65 + n)).toLower = hexDigit? (Char.ofNat (65 + n)) := by decide
    have hl : 65 ≤ c.toNat := h.1
    have hu : c.toNat ≤ 90 := h.2
    have hc : Char.ofNat (65 + (c.toNat - 65)) = c := by rw [Nat.add_sub_cancel' hl, Char.ofNat_toNat]
    rw [← hc]
    exact hd (c.toNat - 65) (by omega)
  case neg => exact congrArg hexDigit? (dif_neg h)

theorem map_toLower_hexPadded : (hexPadded w n).map Char.toLower = hexPadded w n := by
  induction w generalizing n
  case zero => rfl
  case succ hi =>
    have hd : ∀ d < 16, (Nat.digitChar d).toLower = Nat.digitChar d := by decide
    rw [hexPadded, List.map_append, hi, List.map_singleton, hd (n % 16) (Nat.mod_lt _ (by decide))]

theorem takeDigits_ends (h : Ends rest) : takeDigits rest = ([], rest) := by
  cases rest
  case nil => rfl
  case cons c cs => simp [takeDigits, h c rfl]

theorem takeDigits_row (hd : ∀ d ∈ ds, d < 10) (h : Ends rest) : takeDigits (row ds ++ rest) = (ds, rest) := by
  induction ds
  case nil => exact takeDigits_ends h
  case cons d ds hi =>
    have ⟨hd, hds⟩ := List.forall_mem_cons.mp hd
    have hi : takeDigits (ds.map Nat.digitChar ++ rest) = (ds, rest) := hi hds
    simp [row, takeDigits, digit?_digitChar hd, hi]

theorem ofDigits_append_singleton {b : Nat} : ofDigits b (ds ++ [d]) = b * ofDigits b ds + d := by
  simp [ofDigits]

-- A number is written in digits of which the first is not zero, unless it is the only one.
theorem exists_decimal_eq (n : Nat) :
    ∃ ds, decimal n = row ds ∧ ds ≠ [] ∧ (∀ d ∈ ds, d < 10) ∧ ofDigits 10 ds = n ∧
      (ds.head? = some 0 → ds.length = 1) := by
  simp only [decimal]
  induction n using Nat.strongRecOn
  case ind n hi =>
    rw [Nat.toDigits_eq_if (by decide)]
    split
    case isTrue h => exact ⟨[n], rfl, nofun, List.forall_mem_singleton.mpr h, by simp [ofDigits], fun _ => rfl⟩
    case isFalse h =>
      obtain ⟨ds, ht, hne, hd, hv, hz⟩ := hi (n / 10) (by omega)
      refine ⟨ds ++ [n % 10], by simp [ht, row], by simp, ?digits, ?value, ?leading⟩
      case digits =>
        exact List.forall_mem_append.mpr ⟨hd, List.forall_mem_singleton.mpr (Nat.mod_lt _ (by decide))⟩
      case value =>
        rw [ofDigits_append_singleton, hv]
        exact Nat.div_add_mod ..
      case leading =>
        -- What comes before the last digit stands for more than zero.
        intro h0
        obtain ⟨d, ds, rfl⟩ := List.exists_cons_of_ne_nil hne
        have hl : ds = [] := List.eq_nil_of_length_eq_zero (Nat.succ.inj (hz h0))
        cases hl
        cases h0
        simp only [ofDigits, List.foldl_cons, List.foldl_nil] at hv
        omega

-- The last digits of a number, leading zeros included.
def lastDigits : (width : Nat) → Nat → List Nat
  | 0, _ => []
  | width + 1, n => lastDigits width (n / 10) ++ [n % 10]

theorem decimalPadded_eq : decimalPadded w n = row (lastDigits w n) := by
  induction w generalizing n
  case zero => rfl
  case succ hi => simp [decimalPadded, lastDigits, hi, row]

theorem length_lastDigits : (lastDigits w n).length = w := by
  induction w generalizing n
  case zero => rfl
  case succ hi => simp [lastDigits, hi]

theorem lt_of_mem_lastDigits (h : d ∈ lastDigits w n) : d < 10 := by
  induction w generalizing n
  case zero => cases h
  case succ hi =>
    cases List.mem_append.mp h
    case inl h => exact hi h
    case inr h => exact List.mem_singleton.mp h ▸ Nat.mod_lt _ (by decide)

theorem ofDigits_lastDigits : ofDigits 10 (lastDigits w n) = n % 10 ^ w := by
  induction w generalizing n
  case zero => simp [lastDigits, ofDigits, Nat.mod_one]
  case succ hi =>
    rw [lastDigits, ofDigits_append_singleton, hi, Nat.pow_succ', Nat.mod_mul]
    exact Nat.add_comm ..

theorem takeDigits_decimalPadded (h : Ends rest) :
    takeDigits (decimalPadded w n ++ rest) = (lastDigits w n, rest) :=
  decimalPadded_eq ▸ takeDigits_row (fun _ => lt_of_mem_lastDigits) h

end Parley.Text
