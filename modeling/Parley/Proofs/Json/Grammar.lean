import Parley.Proofs.Json.Outline

namespace Parley.Json

-- A part of a text, with the blanks around it.
structure Part where
  before : List Char
  core   : List Char
  after  : List Char
  blank  : IsBlank before ∧ IsBlank after

-- A member of an object.
structure Named where
  name  : Part
  value : Part

def Part.text (p : Part) : List Char := p.before ++ p.core ++ p.after

def Named.text (e : Named) : List Char := e.name.text ++ ':' :: e.value.text

-- The text of an array; what stands before its items is all there is if there are none.
def bracketed (b : List Char) (items : List Part) : List Char :=
  '[' :: b ++ commaSeparated (items.map Part.text) ++ [']']

def braced (b : List Char) (entries : List Named) : List Char :=
  '\x7b' :: b ++ commaSeparated (entries.map Named.text) ++ ['\x7d']

-- A code unit as an escape of four hexadecimal digits, in either case.
def IsEscape (unit : Nat) (cs : List Char) : Prop :=
  unit < 0x10000 ∧ ∃ ds, cs = '\\' :: 'u' :: ds ∧ ds.map Char.toLower = Text.hexPadded 4 unit

-- The characters that have an escape of two characters, with the second of these.
def shorts : List (Char × Char) :=
  [('"', '"'), ('\\', '\\'), ('/', '/'), ('\x08', 'b'), ('\x0c', 'f'), ('\n', 'n'), ('\r', 'r'), ('\t', 't')]

-- What may be written for a character of a string.
inductive Letter : Char → List Char → Prop
  | plain {c} (h : 0x20 ≤ c.toNat) (hq : c ≠ '"') (hb : c ≠ '\\') : Letter c [c]
  | short {c e} (h : (c, e) ∈ shorts) : Letter c ['\\', e]
  | unit {c cs} (h : IsEscape c.toNat cs) : Letter c cs

namespace Quoted

-- What may be written for a string; half of a surrogate pair is an escape.
inductive Writes : Quoted → List Char → Prop
  | closed : Writes closed []
  | char {c q cs ds} (h : Letter c cs) (hq : Writes q ds) : Writes (char c q) (cs ++ ds)
  | half {u q cs ds} (hu : IsLeading u ∨ IsTrailing u) (h : IsEscape u cs) (hq : Writes q ds) :
      Writes (half u q) (cs ++ ds)

-- The characters of a string; two halves are one of them.
inductive Says : Quoted → List Char → Prop
  | closed : Says closed []
  | char {c q cs} (hq : Says q cs) : Says (char c q) (c :: cs)
  | pair {u v c q cs} (hu : IsLeading u) (hv : IsTrailing v)
      (hc : c.toNat = 0x10000 + (u - 0xD800) * 0x400 + (v - 0xDC00)) (hq : Says q cs) :
      Says (half u (half v q)) (c :: cs)

end Quoted

-- A string in quotes.  With half of a pair alone in it, it stands for no characters.
def IsLiteral (text : List Char) : Prop :=
  ∃ q cs, Quoted.Writes q cs ∧ text = '"' :: cs ++ ['"']

def Spells (s : String) (text : List Char) : Prop :=
  ∃ q cs, Quoted.Writes q cs ∧ q.Says s.toList ∧ text = '"' :: cs ++ ['"']

-- One digit or more.
def IsRow (cs : List Char) : Prop :=
  ∃ ds, ds ≠ [] ∧ (∀ d ∈ ds, d < 10) ∧ cs = Text.row ds

-- A number: a sign, digits without leading zeros, a fraction and an exponent.
structure IsNumeral (negative : Bool) (ds : List Nat) (fraction exponent : List Char) : Prop where
  digits   : ds ≠ [] ∧ ∀ d ∈ ds, d < 10
  zero     : ds.head? = some 0 → ds.length = 1
  fraction : fraction = [] ∨ ∃ row, IsRow row ∧ fraction = '.' :: row
  exponent : exponent = [] ∨
    ∃ e sign row, e ∈ ['e', 'E'] ∧ sign ∈ [[], ['+'], ['-']] ∧ IsRow row ∧ exponent = e :: (sign ++ row)

-- Any value, with as many arrays and objects in one another as there may be.
inductive IsValue : List Char → Prop
  | null : IsValue "null".toList
  | bool {b} : IsValue (Value.bool b).chars
  | number {negative ds fraction exponent} (h : IsNumeral negative ds fraction exponent) :
      IsValue ((if negative then ['-'] else []) ++ Text.row ds ++ (fraction ++ exponent))
  | string {text} (h : IsLiteral text) : IsValue text
  | array {b items} (hb : IsBlank b) (h : ∀ p ∈ items, IsValue p.core) : IsValue (bracketed b items)
  | object {b entries} (hb : IsBlank b) (hn : ∀ e ∈ entries, IsLiteral e.name.core)
      (hv : ∀ e ∈ entries, IsValue e.value.core) : IsValue (braced b entries)

section Strings

variable {c : Char} {u : Nat} {q q' : Quoted} {s s' : String} {cs ds rest text : List Char}

theorem hexUnit?_toLower {a b c d : Char} :
    hexUnit? a.toLower b.toLower c.toLower d.toLower = hexUnit? a b c d := by
  simp only [hexUnit?, Text.hexDigit?_toLower]

theorem readQuoted_unit (h : IsEscape u cs) :
    readQuoted (cs ++ rest) = (.ofUnit u (readQuoted rest).1, (readQuoted rest).2) := by
  obtain ⟨hu, ds, rfl, hd⟩ := h
  obtain ⟨a, b, d, e, ht, hx⟩ := hexUnit?_hexPadded hu
  rw [ht] at hd
  obtain ⟨_, _, rfl, rfl, ha⟩ := List.map_eq_cons_iff.mp hd
  obtain ⟨_, _, rfl, rfl, hb⟩ := List.map_eq_cons_iff.mp ha
  obtain ⟨_, _, rfl, rfl, hc⟩ := List.map_eq_cons_iff.mp hb
  obtain ⟨_, _, rfl, rfl, he⟩ := List.map_eq_cons_iff.mp hc
  cases List.map_eq_nil_iff.mp he
  simp only [hexUnit?_toLower] at hx
  simp [readQuoted, hx]

theorem readQuoted_letter (h : Letter c cs) :
    readQuoted (cs ++ rest) = (.char c (readQuoted rest).1, (readQuoted rest).2) := by
  cases h
  case plain h hq hb =>
    rw [List.singleton_append, readQuoted.eq_def]
    split <;> simp_all
  case short e h =>
    have hs : ∀ p ∈ shorts, p.2 ≠ 'u' ∧ unescape? p.2 = some p.1 := List.all_iff_forall_prop.mp (by decide)
    have ⟨hu, he⟩ := hs _ h
    simp [readQuoted, hu, he]
  case unit h =>
    have hl : ¬ (Quoted.IsLeading c.toNat ∨ Quoted.IsTrailing c.toNat) := by
      have hv := c.valid
      simp only [UInt32.isValidChar, Nat.isValidChar] at hv
      simp only [Quoted.IsLeading, Quoted.IsTrailing, Char.toNat]
      omega
    rw [readQuoted_unit h, Quoted.ofUnit, if_neg hl, Char.ofNat_toNat]

theorem Quoted.Writes.reads (h : q.Writes cs) : readQuoted (cs ++ '"' :: rest) = (q, rest) := by
  induction h
  case closed => simp [readQuoted]
  case char h _ hi => rw [List.append_assoc, readQuoted_letter h, hi]
  case half hu h _ hi => rw [List.append_assoc, readQuoted_unit h, hi, ofUnit, if_pos hu]

theorem Quoted.Writes.fault? (h : q.Writes cs) : q.fault? = none := by
  induction h
  case closed => rfl
  case char hi => exact hi
  case half hi => exact hi

theorem Quoted.toNat_pair {v : Nat} (hu : IsLeading u) (hv : IsTrailing v) :
    (pair u v).toNat = 0x10000 + (u - 0xD800) * 0x400 + (v - 0xDC00) := by
  have hn : (0x10000 + (u - 0xD800) * 0x400 + (v - 0xDC00)).isValidChar := by
    simp only [IsLeading, IsTrailing] at hu hv
    simp only [Nat.isValidChar]
    omega
  rw [pair, Char.ofNat, dif_pos hn]
  rfl

theorem Quoted.Says.chars (h : q.Says cs) : q.chars = .ok cs := by
  induction h
  case closed => rfl
  case char hi => simp [Quoted.chars, hi, Except.map]
  case pair u v c _ _ hu hv hc _ hi =>
    have hp : Quoted.pair u v = c := by rw [Quoted.pair, ← hc, Char.ofNat_toNat]
    simp [Quoted.chars, hu, hv, hi, Except.map, hp]

theorem exists_of_map_eq_ok {ε α β : Type} {f : α → β} {e : Except ε α} {b : β} (h : e.map f = .ok b) :
    ∃ a, e = .ok a ∧ f a = b := by
  cases e <;> cases h
  exact ⟨_, rfl, rfl⟩

theorem Quoted.says_of_chars (h : q.chars = .ok cs) : q.Says cs := by
  fun_induction Quoted.chars q generalizing cs
  case case1 => cases h; exact .closed
  case case2 => cases h
  case case3 c rest hi =>
    obtain ⟨ds, hq, rfl⟩ := exists_of_map_eq_ok h
    exact .char (hi hq)
  case case4 u v rest hs hi =>
    obtain ⟨ds, hq, rfl⟩ := exists_of_map_eq_ok h
    exact .pair hs.1 hs.2 (toNat_pair hs.1 hs.2) (hi hq)
  case case5 | case6 | case7 => cases h

end Strings

section Numbers

variable {negative : Bool} {ds : List Nat} {fraction exponent rest : List Char}

namespace IsNumeral

variable (h : IsNumeral negative ds fraction exponent)

include h

theorem exists_readExponent_eq :
    ∃ e, ∀ {rest}, Stops rest → Numeral.readExponent (exponent ++ rest) = .ok (e, rest) := by
  obtain rfl | ⟨e, sign, _, he, hs, ⟨ds, hne, hd, rfl⟩, rfl⟩ := h.exponent
  case inl => exact ⟨none, Numeral.readExponent_stops⟩
  case inr =>
    simp only [List.mem_cons, List.not_mem_nil, or_false] at he hs
    have hds {rest} (hr : Stops rest) := Numeral.readDigits_row hne hd hr.ends
    -- A digit is no sign.
    have hm {rest} : ∀ cs, Text.row ds ++ rest ≠ '-' :: cs ∧ Text.row ds ++ rest ≠ '+' :: cs := by
      obtain ⟨d, ds, rfl⟩ := List.exists_cons_of_ne_nil hne
      have hm : ∀ d < 10, Nat.digitChar d ≠ '-' ∧ Nat.digitChar d ≠ '+' := by decide
      have hd := hm d (hd d List.mem_cons_self)
      exact fun cs => ⟨fun heq => hd.1 (List.cons.inj heq).1, fun heq => hd.2 (List.cons.inj heq).1⟩
    obtain rfl | rfl | rfl := hs
    case inl => exact ⟨some (false, ds), fun hr => by simp [Numeral.readExponent, he, hds hr, hm, Except.map]⟩
    case inr.inl => exact ⟨some (false, ds), fun hr => by simp [Numeral.readExponent, he, hds hr, Except.map]⟩
    case inr.inr => exact ⟨some (true, ds), fun hr => by simp [Numeral.readExponent, he, hds hr, Except.map]⟩

-- Neither a digit nor a point can begin what follows a fraction.
theorem ends_exponent (hr : Stops rest) : ∀ c ∈ (exponent ++ rest).head?, Text.digit? c = none ∧ c ≠ '.' := by
  obtain rfl | ⟨e, _, _, he, _, _, rfl⟩ := h.exponent
  case inl => exact fun c hc => ⟨(hr c hc).1, (hr c hc).2.1⟩
  case inr =>
    intro c hc
    cases hc
    have he' : ∀ e ∈ ['e', 'E'], Text.digit? e = none ∧ e ≠ '.' := List.all_iff_forall_prop.mp (by decide)
    exact he' e he

theorem exists_readFraction_eq :
    ∃ f, ∀ {rest}, Stops rest →
      Numeral.readFraction (fraction ++ (exponent ++ rest)) = .ok (f, exponent ++ rest) := by
  have hx {rest} (hr : Stops rest) := h.ends_exponent hr
  obtain rfl | ⟨_, ⟨ds, hne, hd, rfl⟩, rfl⟩ := h.fraction
  case inl => exact ⟨none, fun hr => Numeral.readFraction_eq_none fun c hc => (hx hr c hc).2⟩
  case inr =>
    have hds {rest} (hr : Stops rest) := Numeral.readDigits_row hne hd fun c hc => (hx hr c hc).1
    exact ⟨some ds, fun hr => by simp [Numeral.readFraction, hds hr, Except.map]⟩

theorem ends_fraction (hr : Stops rest) : Text.Ends (fraction ++ (exponent ++ rest)) := by
  have hx := h.ends_exponent hr
  obtain rfl | ⟨_, _, rfl⟩ := h.fraction
  case inl => exact fun c hc => (hx c hc).1
  case inr =>
    intro c hc
    cases hc
    rfl

theorem exists_starts :
    ∃ c cs, (if negative then ['-'] else []) ++ Text.row ds ++ (fraction ++ exponent) = c :: cs ∧
      c ∈ numeralStarts := by
  have ⟨hne, hd⟩ := h.digits
  obtain ⟨d, ds, rfl⟩ := List.exists_cons_of_ne_nil hne
  cases negative
  case true => exact ⟨_, _, rfl, List.mem_cons_self⟩
  case false => exact ⟨_, _, rfl, digitChar_mem_numeralStarts (hd d List.mem_cons_self)⟩

theorem exists_reads :
    ∃ n, Reads ((if negative then ['-'] else []) ++ Text.row ds ++ (fraction ++ exponent)) (.number n) := by
  have ⟨f, hf⟩ := h.exists_readFraction_eq
  have ⟨e, he⟩ := h.exists_readExponent_eq
  refine ⟨Numeral.value? ⟨negative, ds, f, e⟩, reads_of_readNumber h.exists_starts fun hr => ?_⟩
  rw [List.append_assoc, List.append_assoc fraction, readNumber,
    Numeral.read_parts h.digits.1 h.digits.2 h.zero (h.ends_fraction hr) (hf hr) (he hr)]

end IsNumeral

end Numbers

section Values

variable {c : Char} {q : Quoted} {s : String} {cs text : List Char} {o o' : Outline} {os : List Outline}
  {ms : List (Outline × Outline)}

-- The outline of a text that is nothing but a value.
def outline (text : List Char) : Outline := (readValue (2 * text.length) text).1

theorem Reads.outline_eq (h : Reads text o) : outline text = o := by
  have hr : readValue (2 * text.length) (text ++ []) = (o, []) := h.reads (Nat.le_refl _) fun _ hc => nomatch hc
  rw [List.append_nil] at hr
  rw [outline, hr]

theorem reads_literal (h : q.Writes cs) : Reads ('"' :: cs ++ ['"']) (.string q) := by
  refine .of_succ ⟨_, _, rfl, by decide, by decide, by decide⟩ fun _ _ => ?_
  rw [List.append_assoc, List.cons_append, List.singleton_append, readValue, skipSpace_cons (by decide)]
  simp only [h.reads]

theorem Items.fault?_ofList (h : ∀ o ∈ os, o.fault? = none) : (ofList os).fault? = none := by
  induction os
  case nil => rfl
  case cons o os hi =>
    have ⟨ho, hos⟩ := List.forall_mem_cons.mp h
    simp [ofList, fault?, ho, hi hos]

theorem Members.fault?_ofPairs (h : ∀ m ∈ ms, ∃ q, m.1 = .string q ∧ q.fault? = none ∧ m.2.fault? = none) :
    (ofPairs ms).fault? = none := by
  induction ms
  case nil => rfl
  case cons m ms hi =>
    have ⟨⟨q, hq, hf, hv⟩, hms⟩ := List.forall_mem_cons.mp h
    simp [ofPairs, fault?, hq, hf, hv, hi hms]

-- A text that is read as a value, without a fault and as a string only if it is one.
structure Sound (text : List Char) : Prop where
  reads  : Reads text (outline text)
  fault  : (outline text).fault? = none
  string : ∀ q, outline text = .string q → IsLiteral text

theorem Sound.of_reads (h : Reads text o) (hf : o.fault? = none) (hs : ∀ q, o = .string q → IsLiteral text) :
    Sound text := by
  cases h.outline_eq
  exact ⟨h, hf, hs⟩

theorem Part.yields {p : Part} (h : Reads p.core o) : Yields p.text o :=
  h.yields p.blank.1 p.blank.2

theorem IsLiteral.exists_writes (h : IsLiteral text) :
    ∃ q cs, outline text = .string q ∧ q.Writes cs ∧ text = '"' :: cs ++ ['"'] := by
  obtain ⟨q, cs, hq, rfl⟩ := h
  exact ⟨q, cs, (reads_literal hq).outline_eq, hq, rfl⟩

theorem IsLiteral.sound (h : IsLiteral text) : Sound text := by
  have ⟨q, cs, hq, ht⟩ := h
  have hr : Reads text (.string q) := ht ▸ reads_literal hq
  exact .of_reads hr hq.fault? fun _ _ => h

theorem IsValue.sound (h : IsValue text) : Sound text := by
  induction h
  case null => exact .of_reads reads_null rfl nofun
  case bool => exact .of_reads reads_bool rfl nofun
  case number h =>
    have ⟨n, hn⟩ := h.exists_reads
    exact .of_reads hn rfl nofun
  case string h => exact h.sound
  case array items hb _ hi =>
    refine .of_reads (reads_array hb fun p hp => Part.yields (hi p hp).reads) ?_ nofun
    exact Items.fault?_ofList (List.forall_mem_map.mpr fun p hp => (hi p hp).fault)
  case object entries hb hn _ hi =>
    refine .of_reads (reads_object hb (fun e he => Part.yields (hn e he).sound.reads)
      fun e he => Part.yields (hi e he).reads) ?_ nofun
    refine Members.fault?_ofPairs (List.forall_mem_map.mpr fun e he => ?_)
    have ⟨q, _, hq, hw, _⟩ := (hn e he).exists_writes
    exact ⟨q, hq, hw.fault?, (hi e he).fault⟩

theorem Spells.isLiteral (h : Spells s text) : IsLiteral text :=
  have ⟨q, cs, hq, _, ht⟩ := h
  ⟨q, cs, hq, ht⟩

theorem Quoted.text_eq_ok (h : q.chars = .ok s.toList) : q.text = .ok s := by
  simp [text, h]

theorem Quoted.exists_of_text_eq_ok (h : q.text = .ok s) : ∃ cs, q.chars = .ok cs ∧ String.ofList cs = s := by
  rw [text] at h
  split at h
  case h_1 cs hc => exact ⟨cs, hc, Except.ok.inj h⟩
  case h_2 => cases h

theorem IsLiteral.text_eq_ok_iff (h : IsLiteral text) (ho : outline text = .string q) :
    q.text = .ok s ↔ Spells s text := by
  have ⟨q₀, cs, hq, hw, ht⟩ := h.exists_writes
  cases hq.symm.trans ho
  constructor
  case mp =>
    intro hs
    obtain ⟨cs', hc, rfl⟩ := Quoted.exists_of_text_eq_ok hs
    exact ⟨q, cs, hw, by rw [String.toList_ofList]; exact Quoted.says_of_chars hc, ht⟩
  case mpr =>
    rintro ⟨q', cs', hw', hs, ht'⟩
    have ho' : outline text = .string q' := by rw [ht']; exact (reads_literal hw').outline_eq
    cases ho.symm.trans ho'
    exact Quoted.text_eq_ok hs.chars

theorem IsLiteral.name_eq_ok_iff (h : IsLiteral text) : (outline text).name = .ok s ↔ Spells s text := by
  have ⟨q, _, ho, _⟩ := h.exists_writes
  rw [ho]
  exact h.text_eq_ok_iff ho

theorem Spells.eq {s' : String} (h : Spells s text) (h' : Spells s' text) : s = s' := by
  have hs := h.isLiteral.name_eq_ok_iff.mpr h
  have hs' := h.isLiteral.name_eq_ok_iff.mpr h'
  exact Except.ok.inj (hs.symm.trans hs')

theorem Shape.exists_of_string_eq_ok {c : Context} (h : Shape.string c o = .ok s) :
    ∃ q, o = .string q ∧ q.text = .ok s := by
  cases o
  case string q => exact ⟨q, rfl, h⟩
  case number n => cases n <;> cases h
  all_goals cases h

-- Nothing but a string is read as one.
theorem IsValue.string_eq_ok_iff {c : Context} (h : IsValue text) :
    Shape.string c (outline text) = .ok s ↔ Spells s text := by
  constructor
  case mp =>
    intro hs
    have ⟨q, ho, hq⟩ := Shape.exists_of_string_eq_ok hs
    exact ((h.sound.string q ho).text_eq_ok_iff ho).mp hq
  case mpr =>
    intro hs
    have ⟨q, _, ho, _⟩ := hs.isLiteral.exists_writes
    rw [ho]
    exact (hs.isLiteral.text_eq_ok_iff ho).mpr hs

theorem letter_escape : Letter c (escape c) := by
  rw [escape]
  split
  case h_1 e he =>
    refine .short ?_
    simp only [shortEscape?] at he
    split at he <;> cases he <;> decide
  case h_2 hn =>
    split
    case isTrue h =>
      exact .unit ⟨by omega, _, rfl, Text.map_toLower_hexPadded⟩
    case isFalse h =>
      refine .plain (Nat.le_of_not_lt h) ?_ ?_ <;> rintro rfl <;> cases hn

theorem spells_stringText : Spells s (stringText s) := by
  have hw (cs : List Char) : (Quoted.ofChars cs).Writes (cs.flatMap escape) ∧ (Quoted.ofChars cs).Says cs := by
    induction cs
    case nil => exact ⟨.closed, .closed⟩
    case cons c cs hi => exact ⟨.char letter_escape hi.1, .char hi.2⟩
  exact ⟨_, _, (hw s.toList).1, (hw s.toList).2, rfl⟩

end Values
end Parley.Json
