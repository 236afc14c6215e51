import Mathlib.Algebra.Group.Nat.Defs
import Parley.Exchange.Supply
import Parley.Proofs.Text.Digits

namespace Parley

namespace Text

variable {m n w : Nat} {cs : List Char} {c : Char}

-- The number that a row of hexadecimal digits stands for, most significant first.
def hexValue (cs : List Char) : Nat := cs.foldl (fun n c => 16 * n + (hexDigit? c).getD 0) 0

theorem hexValue_append_singleton : hexValue (cs ++ [c]) = 16 * hexValue cs + (hexDigit? c).getD 0 := by
  simp [hexValue]

theorem hexValue_hexPadded : hexValue (hexPadded w n) = n % 16 ^ w := by
  induction w generalizing n
  case zero => simp [hexPadded, hexValue, Nat.mod_one]
  case succ w hi =>
    have hd : hexDigit? (Nat.digitChar (n % 16)) = some (n % 16) :=
      hexDigit?_digitChar (Nat.mod_lt _ (by decide))
    rw [hexPadded, hexValue_append_singleton, hi, hd, Option.getD_some, Nat.pow_succ', Nat.mod_mul]
    exact Nat.add_comm ..

theorem length_hexPadded : (hexPadded w n).length = w := by
  induction w generalizing n
  case zero => rfl
  case succ hi => simp [hexPadded, hi]

theorem hexValue_toDigits : hexValue (Nat.toDigits 16 n) = n := by
  induction n using Nat.strongRecOn
  case ind n hi =>
    rw [Nat.toDigits_eq_if (by decide)]
    split
    case isTrue h => simp [hexValue, hexDigit?_digitChar h]
    case isFalse h =>
      have hd : hexDigit? (Nat.digitChar (n % 16)) = some (n % 16) :=
        hexDigit?_digitChar (Nat.mod_lt _ (by decide))
      rw [hexValue_append_singleton, hi (n / 16) (by omega), hd, Option.getD_some]
      exact Nat.div_add_mod ..

-- Leading zeros do not count.
theorem hexValue_replicate_append : hexValue (List.replicate w '0' ++ cs) = hexValue cs := by
  have hz : hexDigit? '0' = some 0 := by decide
  induction w
  case zero => rfl
  case succ w hi =>
    rw [← hi]
    simp [hexValue, List.replicate_succ, hz]

end Text

namespace Supply

theorem uuid_inj {m n : Nat} (h : uuid m = uuid n) : m = n := by
  have hv {w m n} (h : Text.hexPadded w m = Text.hexPadded w n) : m % 16 ^ w = n % 16 ^ w := by
    rw [← Text.hexValue_hexPadded, h, Text.hexValue_hexPadded]
  -- Every group but the first has as many digits as any other in its place.
  have ⟨h, h₁⟩ := List.append_inj' (String.ofList_injective h) (by simp [Text.length_hexPadded])
  have ⟨h, h₂⟩ := List.append_inj' h (by simp [Text.length_hexPadded])
  have ⟨h, h₃⟩ := List.append_inj' h (by simp [Text.length_hexPadded])
  have ⟨h, h₄⟩ := List.append_inj' h (by simp [Text.length_hexPadded])
  have h₀ : m / Nat.pow 16 22 = n / Nat.pow 16 22 := by
    have := congrArg Text.hexValue h
    simpa only [Text.hexValue_replicate_append, Text.hexValue_toDigits] using this
  simp only [List.cons.injEq, true_and] at h₁ h₂ h₃ h₄
  have h₁ := hv h₁
  have h₂ := hv h₂
  have h₃ := hv h₃
  have h₄ := hv h₄
  simp only [Nat.pow_eq, Nat.reducePow] at h₀ h₁ h₂ h₃ h₄
  omega

end Supply
end Parley
