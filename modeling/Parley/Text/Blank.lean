namespace Parley.Text

-- Blank characters (the Unicode property White_Space) and texts without blanks at their ends.
def IsBlank (c : Char) : Prop :=
  c.val ∈ [0x20, 0x85, 0xA0, 0x1680, 0x2028, 0x2029, 0x202F, 0x205F, 0x3000] ∨
    (0x09 ≤ c.val ∧ c.val ≤ 0x0D) ∨ (0x2000 ≤ c.val ∧ c.val ≤ 0x200A)

instance : DecidablePred IsBlank := fun c => by unfold IsBlank; infer_instance

-- A control character (the Unicode general category Cc).
def IsControl (c : Char) : Prop :=
  c.val < 0x20 ∨ (0x7F ≤ c.val ∧ c.val ≤ 0x9F)

instance : DecidablePred IsControl := fun c => by unfold IsControl; infer_instance

-- The text without the blanks that it begins with.
def trimStart (cs : List Char) : List Char := cs.dropWhile (IsBlank ·)

-- The text without the blanks at either end.
def trim (cs : List Char) : List Char := (trimStart (trimStart cs).reverse).reverse

-- The same letters, where `A` to `Z` count as `a` to `z`.
def lowerAscii (s : String) : String := String.ofList (s.toList.map Char.toLower)

-- Equality that overlooks the case of the letters `a` to `z`.
def SameLetters (s t : String) : Prop := lowerAscii s = lowerAscii t

instance (s t : String) : Decidable (SameLetters s t) := by unfold SameLetters; infer_instance

end Parley.Text
