import Parley.Proofs.Text.Digits
import Parley.Time.Instant

namespace Parley.Time.Instant

open Text

variable {limit w n : Nat} {cs rest : List Char} {c : Char} {t : Instant}

theorem trimStart_cons (h : ¬ IsBlank c) : trimStart (c :: cs) = c :: cs := by
  simp [trimStart, h]

theorem ends_cons (h : digit? c = none) : Ends (c :: cs) := by
  intro c' hc
  cases hc
  exact h

-- A digit is neither blank nor a sign.
theorem exists_decimalPadded_eq (h : w ≠ 0) :
    ∃ c cs, decimalPadded w n = c :: cs ∧ ¬ IsBlank c ∧ c ≠ '-' ∧ c ≠ '+' := by
  have hc : ∀ d < 10,
      ¬ IsBlank (Nat.digitChar d) ∧ Nat.digitChar d ≠ '-' ∧ Nat.digitChar d ≠ '+' := by decide
  rw [decimalPadded_eq]
  cases hd : lastDigits w n
  case nil =>
    have := length_lastDigits (w := w) (n := n)
    simp_all
  case cons d ds => exact ⟨_, _, rfl, hc d (lt_of_mem_lastDigits (hd ▸ List.mem_cons_self))⟩

theorem trimStart_decimalPadded (h : w ≠ 0) :
    trimStart (decimalPadded w n ++ rest) = decimalPadded w n ++ rest := by
  obtain ⟨c, cs, hd, hc, _⟩ := exists_decimalPadded_eq (n := n) h
  rw [hd]
  exact trimStart_cons hc

theorem length_decimalPadded : (decimalPadded w n).length = w := by
  rw [decimalPadded_eq, row, List.length_map, length_lastDigits]

theorem readDigits_decimalPadded (h : w ≠ 0) (hl : w ≤ limit) (hr : Ends rest) :
    readDigits limit (decimalPadded w n ++ rest) = some (lastDigits w n, rest) := by
  have ht : (lastDigits w n).take limit = lastDigits w n :=
    List.take_of_length_le (length_lastDigits.symm ▸ hl)
  have hne : lastDigits w n ≠ [] := List.ne_nil_of_length_pos (by rw [length_lastDigits]; omega)
  have hd : (decimalPadded w n ++ rest).drop w = rest :=
    List.drop_left' length_decimalPadded
  simp only [readDigits, takeDigits_decimalPadded hr, ht, hne, if_false, length_lastDigits, hd]

theorem readNumber_decimalPadded (h : w ≠ 0) (hl : w ≤ limit) (hn : n < 10 ^ w) (hr : Ends rest) :
    readNumber limit (decimalPadded w n ++ rest) = some (n, rest) := by
  rw [readNumber, trimStart_decimalPadded h, readDigits_decimalPadded h hl hr]
  simp [ofDigits_lastDigits, Nat.mod_eq_of_lt hn]

theorem readYear_yearText {year : Int} (h : 0 ≤ year ∧ year ≤ 9999) (hr : Ends rest) :
    readYear (yearText year ++ rest) = some (year, rest) := by
  have hn : readNumber 4 (decimalPadded 4 year.toNat ++ rest) = some (year.toNat, rest) :=
    readNumber_decimalPadded (by decide) (by decide) (by omega) hr
  obtain ⟨c, cs, hd, hc, hm, hp⟩ := exists_decimalPadded_eq (w := 4) (n := year.toNat) (by decide)
  rw [hd, List.cons_append] at hn
  rw [yearText, if_pos h, readYear, hd, List.cons_append, trimStart_cons hc]
  split
  case h_1 heq => exact absurd (List.cons.inj heq).1 hm
  case h_2 heq => exact absurd (List.cons.inj heq).1 hp
  case h_3 =>
    have hy : ((year.toNat : Nat) : Int) = year := Int.toNat_of_nonneg h.1
    simp only [hn, Option.map_some, hy]

theorem readMark_cons (mark : Char) (h : ¬ IsBlank mark) : readMark mark (mark :: cs) = some cs := by
  rw [readMark, trimStart_cons h]
  exact if_pos rfl

theorem readFraction_point (hw : w ≠ 0) (h9 : w ≤ 9) (hn : n < 10 ^ w) (hr : Ends rest) :
    readFraction ('.' :: (decimalPadded w n ++ rest)) = some (n * 10 ^ (9 - w), rest) := by
  simp only [readFraction, readDigits_decimalPadded hw h9 hr, takeDigits_decimalPadded hr]
  simp [ofDigits_lastDigits, length_lastDigits, Nat.mod_eq_of_lt hn]

theorem readFraction_fractionText (h : n < nanosPerSecond) (hc : digit? c = none) (hp : c ≠ '.') :
    readFraction (fractionText n ++ c :: cs) = some (n, c :: cs) := by
  simp only [nanosPerSecond] at h
  have hr : Ends (c :: cs) := ends_cons hc
  simp only [fractionText]
  split
  case isTrue h0 => simp [readFraction, hp, h0]
  case isFalse =>
    split
    case isTrue h6 =>
      rw [List.cons_append, readFraction_point (by decide) (by decide) (by omega) hr]
      simp
      omega
    case isFalse =>
      split
      case isTrue h3 =>
        rw [List.cons_append, readFraction_point (by decide) (by decide) (by omega) hr]
        simp
        omega
      case isFalse =>
        rw [List.cons_append, readFraction_point (by decide) (by decide) (by omega) hr]
        simp

theorem ends_fractionText (hc : digit? c = none) : Ends (fractionText n ++ c :: cs) := by
  simp only [fractionText]
  split
  case isTrue => exact ends_cons hc
  case isFalse =>
    split
    case isTrue => exact ends_cons (by decide)
    case isFalse => split <;> exact ends_cons (by decide)

theorem of?_self (d : Date) (h : -yearLimit ≤ d.year ∧ d.year < yearLimit) :
    Date.of? d.year d.month d.day = some d := by
  simp [Date.of?, d.inYear, d.inMonth, h]

theorem ofLocal_zero {d : Date} {second nano : Nat} (hd : second < 86400) (hn : nano < 2 * 1000000000)
    (h : -yearLimit ≤ d.year ∧ d.year < yearLimit) :
    ofLocal d second nano 0 hn = some ⟨d, second, nano, hd, hn⟩ := by
  have hs : ¬ ((second : Int) < 0) := by omega
  have hs' : ¬ (86400 ≤ (second : Int)) := by omega
  have hm : ((second : Int) % 86400).toNat = second := by omega
  simp [ofLocal, hs, hs', hm, h]

theorem readNumber_pair (h : n < 100) (hr : Ends rest) :
    readNumber 2 (decimalPadded 2 n ++ rest) = some (n, rest) :=
  readNumber_decimalPadded (by decide) (by decide) h hr

theorem bind_eq_some_of_eq {α β : Type} {o : Option α} {f : α → Option β} {a : α} {b : β} (h : o = some a)
    (hf : f a = some b) : o >>= f = some b :=
  Option.bind_eq_some_iff.mpr ⟨a, h, hf⟩

-- An instant in a year of four digits, outside of leap seconds, is read back as it is.
theorem read_chars (hy : 0 ≤ t.date.year ∧ t.date.year ≤ 9999) (hn : t.nano < nanosPerSecond) :
    read t.chars = some t := by
  have hs := t.inDay
  have hm := t.date.inYear
  have hd := t.date.inMonth
  have hl : t.date.day < 100 := by
    have : monthLength t.date.year t.date.month ≤ 31 := by
      unfold monthLength
      split <;> split <;> omega
    omega
  have hleap : t.nano / nanosPerSecond = 0 := Nat.div_eq_of_lt hn
  have hdash {cs : List Char} : Ends ('-' :: cs) := ends_cons (by decide)
  have hcolon {cs : List Char} : Ends (':' :: cs) := ends_cons (by decide)
  have hlimit : -yearLimit ≤ t.date.year ∧ t.date.year < yearLimit := by
    simp only [yearLimit]
    omega
  simp only [chars, hleap, Nat.add_zero, Nat.mod_eq_of_lt hn, List.append_assoc, List.cons_append]
  -- The parts of the text, one after the other.
  refine bind_eq_some_of_eq (readYear_yearText hy hdash) ?_
  refine bind_eq_some_of_eq (readMark_cons '-' (by decide)) ?_
  refine bind_eq_some_of_eq (readNumber_pair (by omega) hdash) ?_
  refine bind_eq_some_of_eq (readMark_cons '-' (by decide)) ?_
  refine bind_eq_some_of_eq (readNumber_pair hl (ends_cons (by decide))) ?_
  refine bind_eq_some_of_eq (of?_self t.date hlimit) ?_
  refine bind_eq_some_of_eq rfl ?_
  refine bind_eq_some_of_eq (readNumber_pair (by omega) hcolon) ?_
  refine bind_eq_some_of_eq (readMark_cons ':' (by decide)) ?_
  refine bind_eq_some_of_eq (readNumber_pair (by omega) hcolon) ?_
  refine bind_eq_some_of_eq (readMark_cons ':' (by decide)) ?_
  refine bind_eq_some_of_eq (readNumber_pair (by omega) (ends_fractionText (by decide))) ?_
  refine bind_eq_some_of_eq (readFraction_fractionText hn (by decide) (by decide)) ?_
  refine bind_eq_some_of_eq (a := (0, [])) rfl ?_
  have ht :
      ¬ (trimStart [] ≠ [] ∨ 24 ≤ t.second / 3600 ∨ 60 ≤ t.second / 60 % 60 ∨ 61 ≤ t.second % 60) := by
    simp only [trimStart, List.dropWhile_nil, ne_eq, not_true_eq_false, false_or]
    omega
  have hsum : 3600 * (t.second / 3600) + 60 * (t.second / 60 % 60) + (t.second % 60 - t.second % 60 / 60) =
      t.second := by omega
  have hnano : t.nano + t.second % 60 / 60 * nanosPerSecond = t.nano := by
    rw [Nat.div_eq_of_lt (Nat.mod_lt _ (by decide)), Nat.zero_mul, Nat.add_zero]
  simp only [ht, if_false, hsum, hnano, t.inSecond, dite_true]
  exact ofLocal_zero hs t.inSecond hlimit

end Parley.Time.Instant
