import Mathlib.Data.Bool.AllAny
import Parley.Json.Decoding
import Parley.Proofs.Text.Digits

namespace Parley.Json

section Strings

variable {c : Char} {cs rest : List Char} {s : String}

theorem hexUnit?_hexPadded {n : Nat} (h : n < 0x10000) :
    ∃ a b d e, Text.hexPadded 4 n = [a, b, d, e] ∧ hexUnit? a b d e = some n := by
  refine ⟨_, _, _, _, rfl, ?_⟩
  simp only [hexUnit?, Text.hexDigit?_digitChar (Nat.mod_lt _ (by decide : 0 < 16))]
  simp
  omega

-- A character is read back from its escape.
theorem readQuoted_escape :
    readQuoted (escape c ++ cs) = (.char c (readQuoted cs).1, (readQuoted cs).2) := by
  simp only [escape]
  split
  case h_1 e he =>
    simp only [shortEscape?] at he
    split at he <;> cases he <;> simp [readQuoted, unescape?]
  case h_2 hn =>
    split
    case isTrue h =>
      obtain ⟨a, b, d, e, ht, hu⟩ := hexUnit?_hexPadded (n := c.toNat) (by omega)
      have hl : ¬ (Quoted.IsLeading c.toNat ∨ Quoted.IsTrailing c.toNat) := by
        simp only [Quoted.IsLeading, Quoted.IsTrailing]
        omega
      simp [ht, readQuoted, hu, Quoted.ofUnit, hl]
    case isFalse h =>
      have hq : c ≠ '"' := by rintro rfl; cases hn
      have hb : c ≠ '\\' := by rintro rfl; cases hn
      rw [List.singleton_append, readQuoted.eq_def]
      split <;> simp_all

theorem readQuoted_escaped :
    readQuoted (cs.flatMap escape ++ '"' :: rest) = (.ofChars cs, rest) := by
  induction cs
  case nil => simp [readQuoted, Quoted.ofChars]
  case cons c cs hi => rw [List.flatMap_cons, List.append_assoc, readQuoted_escape, hi, Quoted.ofChars]

theorem Quoted.chars_ofChars : (Quoted.ofChars cs).chars = .ok cs := by
  induction cs
  case nil => rfl
  case cons c cs hi => simp [ofChars, chars, hi, Except.map]

theorem Quoted.text_ofChars : (Quoted.ofChars s.toList).text = .ok s := by
  simp [text, chars_ofChars]

end Strings

section Numbers

variable {i : Int} {m : Nat} {ds : List Nat} {rest : List Char}

-- A text that does not go on with anything that could belong to a number.
def Stops (rest : List Char) : Prop :=
  ∀ c ∈ rest.head?, Text.digit? c = none ∧ c ≠ '.' ∧ c ≠ 'e' ∧ c ≠ 'E'

theorem Stops.ends (h : Stops rest) : Text.Ends rest := fun c hc => (h c hc).1

theorem Numeral.le_foldl : m ≤ ds.foldl (fun n d => 10 * n + d) m := by
  induction ds generalizing m
  case nil => exact Nat.le_refl _
  case cons d ds hi =>
    have : 10 * m + d ≤ _ := hi
    simp only [List.foldl_cons]
    omega

theorem Numeral.gather_eq (h : ds.foldl (fun n d => 10 * n + d) m < 0x10000000000000000) :
    gather m ds = (ds.foldl (fun n d => 10 * n + d) m, 0) := by
  induction ds generalizing m
  case nil => rfl
  case cons d ds hi =>
    have hm : 10 * m + d ≤ ds.foldl (fun n d => 10 * n + d) (10 * m + d) := le_foldl
    rw [List.foldl_cons] at h ⊢
    have hlt : m * 10 + d < 0x10000000000000000 := by omega
    rw [gather, if_pos hlt, Nat.mul_comm m 10, hi h]

theorem Numeral.readDigits_row (hne : ds ≠ []) (hd : ∀ d ∈ ds, d < 10) (h : Text.Ends rest) :
    readDigits (Text.row ds ++ rest) = .ok (ds, rest) := by
  rw [readDigits, Text.takeDigits_row hd h]
  split <;> simp_all

theorem Numeral.readWhole_row (hne : ds ≠ []) (hd : ∀ d ∈ ds, d < 10)
    (hz : ds.head? = some 0 → ds.length = 1) (h : Text.Ends rest) :
    readWhole (Text.row ds ++ rest) = .ok (ds, rest) := by
  have hn : ¬ (ds.head? = some 0 ∧ ds.length ≠ 1) := fun h => h.2 (hz h.1)
  simp only [readWhole, readDigits_row hne hd h]
  exact if_neg hn

theorem Numeral.readFraction_eq_none (h : ∀ c ∈ rest.head?, c ≠ '.') : readFraction rest = .ok (none, rest) := by
  cases rest
  case nil => rfl
  case cons c cs =>
    have hc := h c rfl
    rw [readFraction]
    simpa using hc

theorem Numeral.readExponent_stops (h : Stops rest) : readExponent rest = .ok (none, rest) := by
  cases rest
  case nil => rfl
  case cons c cs =>
    have hc := (h c rfl).2.2
    simp [readExponent, hc]

-- A number is read part by part.
theorem Numeral.read_parts {negative : Bool} {fraction exponent : List Char} {f : Option (List Nat)}
    {e : Option (Bool × List Nat)} (hne : ds ≠ []) (hd : ∀ d ∈ ds, d < 10)
    (hz : ds.head? = some 0 → ds.length = 1) (h : Text.Ends fraction)
    (hf : readFraction fraction = .ok (f, exponent)) (he : readExponent exponent = .ok (e, rest)) :
    read ((if negative then ['-'] else []) ++ Text.row ds ++ fraction) = .ok (⟨negative, ds, f, e⟩, rest) := by
  have hw := readWhole_row hne hd hz h
  cases negative
  case true => simp [read, hw, hf, he, bind, Except.bind, pure, Except.pure]
  case false =>
    -- A digit is no sign.
    have hm : ∀ cs, Text.row ds ++ fraction ≠ '-' :: cs := by
      obtain ⟨d, ds, rfl⟩ := List.exists_cons_of_ne_nil hne
      have hm : ∀ d < 10, Nat.digitChar d ≠ '-' := by decide
      exact fun cs heq => hm d (hd d List.mem_cons_self) (List.cons.inj heq).1
    simp [read, hw, hf, he, bind, Except.bind, pure, Except.pure]

theorem Numeral.read_row {negative : Bool} (hne : ds ≠ []) (hd : ∀ d ∈ ds, d < 10)
    (hz : ds.head? = some 0 → ds.length = 1) (h : Stops rest) :
    read ((if negative then ['-'] else []) ++ Text.row ds ++ rest) =
      .ok (⟨negative, ds, none, none⟩, rest) :=
  read_parts hne hd hz h.ends (readFraction_eq_none fun c hc => (h c hc).2.1) (readExponent_stops h)

theorem fits_toNat (u : UInt64) : Fits u.toNat := by
  have := u.toNat_lt
  simp only [Fits]
  omega

-- A whole number is read back exactly, if it fits.
theorem readNumber_wholeText (hf : Fits i) (h : Stops rest) :
    readNumber (wholeText i ++ rest) = (.number (some (.whole i hf)), rest) := by
  obtain ⟨ds, ht, hne, hd, hv, hz⟩ := Text.exists_decimal_eq i.natAbs
  have hw : wholeText i = (if decide (i < 0) then ['-'] else []) ++ Text.row ds := by
    rw [wholeText, ht]
    by_cases hi : i < 0 <;> simp [hi]
  have hg : Numeral.gather 0 ds = (i.natAbs, 0) := by
    have hlt : Text.ofDigits 10 ds < 0x10000000000000000 := by
      have ⟨_, _⟩ := hf
      omega
    exact (Numeral.gather_eq hlt).trans (by rw [← hv]; rfl)
  have hi : (if decide (i < 0) then -(i.natAbs : Int) else i.natAbs) = i := by
    simp only [decide_eq_true_eq]
    split <;> omega
  have hn : Numeral.value? ⟨decide (i < 0), ds, none, none⟩ = some (.whole i hf) := by
    simp only [decide_eq_true_eq] at hi
    simp only [Numeral.value?, hg, decide_eq_true_eq, hi, hf, dite_true]
    exact if_neg (by omega)
  rw [readNumber, hw, Numeral.read_row hne hd hz h]
  simp only [hn]

-- What a number begins with.
def numeralStarts : List Char := ['-', '0', '1', '2', '3', '4', '5', '6', '7', '8', '9']

theorem digitChar_mem_numeralStarts {d : Nat} (h : d < 10) : Nat.digitChar d ∈ numeralStarts := by
  decide +revert

theorem exists_wholeText_eq (i : Int) : ∃ c cs, wholeText i = c :: cs ∧ c ∈ numeralStarts := by
  obtain ⟨ds, ht, hne, hd, _⟩ := Text.exists_decimal_eq i.natAbs
  obtain ⟨d, ds, rfl⟩ := List.exists_cons_of_ne_nil hne
  simp only [wholeText, ht]
  split
  case isTrue => exact ⟨_, _, rfl, List.mem_cons_self⟩
  case isFalse => exact ⟨_, _, rfl, digitChar_mem_numeralStarts (hd d List.mem_cons_self)⟩

end Numbers

-- A text that has a certain outline, whatever comes after it.
structure Reads (text : List Char) (o : Outline) : Prop where
  starts : ∃ c cs, text = c :: cs ∧ ¬ IsSpace c ∧ c ≠ ']' ∧ c ≠ '\x7d'
  reads  : ∀ {fuel rest}, 2 * text.length ≤ fuel → Stops rest → readValue fuel (text ++ rest) = (o, rest)

section Values

variable {s : String} {i : Int} {text rest : List Char} {o : Outline} {fuel : Nat} {α : Type} {xs : List α}
  {name : α → String} {n t : α → List Char} {k f : α → Outline}

theorem skipSpace_cons {c : Char} (h : ¬ IsSpace c) : skipSpace (c :: rest) = c :: rest := by
  rw [skipSpace, if_neg h]

-- Fuel for a text that is not empty does not run out at once.
theorem Reads.of_succ (hs : ∃ c cs, text = c :: cs ∧ ¬ IsSpace c ∧ c ≠ ']' ∧ c ≠ '\x7d')
    (h : ∀ {fuel rest}, 2 * text.length ≤ fuel + 1 → Stops rest →
      readValue (fuel + 1) (text ++ rest) = (o, rest)) : Reads text o where
  starts := hs
  reads {fuel rest} hf hr := by
    obtain ⟨c, cs, ht, _⟩ := hs
    cases fuel
    case zero => simp [ht] at hf
    case succ fuel => exact h hf hr

theorem reads_string : Reads (stringText s) (.string (.ofChars s.toList)) := by
  refine .of_succ ⟨_, _, rfl, by decide, by decide, by decide⟩ fun _ _ => ?_
  simp only [stringText, List.cons_append, List.append_assoc, List.nil_append]
  rw [readValue, skipSpace_cons (by decide)]
  simp only [readQuoted_escaped]

theorem readValue_number {c : Char} {cs : List Char} (h : c ∈ numeralStarts) :
    readValue (fuel + 1) (c :: cs) = readNumber (c :: cs) := by
  have hn : ∀ c ∈ numeralStarts, ¬ IsSpace c ∧ c ∉ ['"', '[', '\x7b', 'n', 't', 'f'] :=
    List.all_iff_forall_prop.mp (by decide)
  have ⟨hs, hn⟩ := hn c h
  rw [readValue, skipSpace_cons hs]
  split <;> simp_all

theorem reads_of_readNumber (h : ∃ c cs, text = c :: cs ∧ c ∈ numeralStarts)
    (hr : ∀ {rest}, Stops rest → readNumber (text ++ rest) = (o, rest)) : Reads text o := by
  obtain ⟨c, cs, rfl, hc⟩ := h
  have hs : ∀ c ∈ numeralStarts, ¬ IsSpace c ∧ c ≠ ']' ∧ c ≠ '\x7d' :=
    List.all_iff_forall_prop.mp (by decide)
  refine .of_succ ⟨c, cs, rfl, hs c hc⟩ fun _ hs => ?_
  rw [List.cons_append, readValue_number hc]
  exact hr hs

theorem reads_whole (hf : Fits i) : Reads (wholeText i) (.number (some (.whole i hf))) :=
  reads_of_readNumber (exists_wholeText_eq i) fun hr => readNumber_wholeText hf hr

theorem reads_null : Reads "null".toList .null := by
  refine .of_succ ⟨_, _, rfl, by decide, by decide, by decide⟩ fun _ _ => ?_
  simp [readValue, skipSpace_cons, IsSpace, readWord]

theorem reads_bool {b : Bool} : Reads (Value.bool b).chars (.bool b) := by
  cases b
  case true =>
    refine .of_succ ⟨_, _, rfl, by decide, by decide, by decide⟩ fun _ _ => ?_
    simp [Value.chars, readValue, skipSpace_cons, IsSpace, readWord]
  case false =>
    refine .of_succ ⟨_, _, rfl, by decide, by decide, by decide⟩ fun _ _ => ?_
    simp [Value.chars, readValue, skipSpace_cons, IsSpace, readWord]

def IsBlank (cs : List Char) : Prop := ∀ c ∈ cs, IsSpace c

theorem skipSpace_append {b : List Char} (h : IsBlank b) : skipSpace (b ++ rest) = skipSpace rest := by
  induction b
  case nil => rfl
  case cons c b hi =>
    have ⟨hc, hb⟩ := List.forall_mem_cons.mp h
    rw [List.cons_append, skipSpace, if_pos hc, hi hb]

theorem skipSpace_append_of_eq {c : Char} {cs u v : List Char} (h : skipSpace u = c :: cs) :
    skipSpace (u ++ v) = c :: (cs ++ v) := by
  induction u
  case nil => cases h
  case cons d u hi =>
    rw [skipSpace] at h
    rw [List.cons_append, skipSpace]
    split at h
    case isTrue hd => rw [if_pos hd, hi h]
    case isFalse hd => cases h; rw [if_neg hd]

-- A text is a row of blanks and something that does not begin with one.
theorem exists_skipSpace_eq (cs : List Char) : ∃ b, IsBlank b ∧ cs = b ++ skipSpace cs := by
  induction cs
  case nil => exact ⟨[], List.forall_mem_nil _, rfl⟩
  case cons c cs hi =>
    obtain ⟨b, hb, he⟩ := hi
    rw [skipSpace]
    split
    case isTrue hc => exact ⟨c :: b, List.forall_mem_cons.mpr ⟨hc, hb⟩, congrArg (c :: ·) he⟩
    case isFalse => exact ⟨[], List.forall_mem_nil _, rfl⟩

theorem skipSpace_skipSpace (cs : List Char) : skipSpace (skipSpace cs) = skipSpace cs := by
  obtain ⟨b, hb, he⟩ := exists_skipSpace_eq cs
  exact (skipSpace_append hb).symm.trans (congrArg skipSpace he.symm)

theorem readValue_skipSpace {cs : List Char} : readValue fuel (skipSpace cs) = readValue fuel cs := by
  cases fuel
  case zero => rfl
  case succ => rw [readValue, readValue, skipSpace_skipSpace]

theorem readItems_skipSpace {cs : List Char} : readItems fuel (skipSpace cs) = readItems fuel cs := by
  cases fuel
  case zero => rfl
  case succ => rw [readItems, readItems, readValue_skipSpace]

theorem readMembers_skipSpace {cs : List Char} : readMembers fuel (skipSpace cs) = readMembers fuel cs := by
  cases fuel
  case zero => rfl
  case succ => rw [readMembers, readMembers, readValue_skipSpace]

theorem Stops.append {b : List Char} (hb : IsBlank b) (h : Stops rest) : Stops (b ++ rest) := by
  cases b
  case nil => exact h
  case cons c b =>
    intro c' hc
    cases hc
    obtain rfl | rfl | rfl | rfl := hb c List.mem_cons_self <;> decide

-- A text that has a certain outline, with blanks at its ends.
structure Yields (text : List Char) (o : Outline) : Prop where
  starts : ∃ c cs, skipSpace text = c :: cs ∧ c ≠ ']' ∧ c ≠ '\x7d'
  reads  : ∀ {fuel rest}, 2 * text.length ≤ fuel → Stops rest →
    ∃ rest', readValue fuel (text ++ rest) = (o, rest') ∧ skipSpace rest' = skipSpace rest

theorem Reads.yields {before after : List Char} (hb : IsBlank before) (ha : IsBlank after) (h : Reads text o) :
    Yields (before ++ text ++ after) o where
  starts := by
    obtain ⟨c, cs, rfl, hc, hm⟩ := h.starts
    exact ⟨c, cs ++ after, by rw [List.append_assoc, skipSpace_append hb]; exact skipSpace_cons hc, hm⟩
  reads {fuel rest} hf hr := by
    refine ⟨after ++ rest, ?_, skipSpace_append ha⟩
    rw [List.append_assoc, List.append_assoc, ← readValue_skipSpace, skipSpace_append hb, readValue_skipSpace]
    simp only [List.length_append] at hf
    exact h.reads (by omega) (hr.append ha)

theorem Reads.yields_self (h : Reads text o) : Yields text o := by
  have hb : IsBlank [] := List.forall_mem_nil _
  have hy := h.yields hb hb
  rwa [List.nil_append, List.append_nil] at hy

theorem commaSeparated_cons_cons {t u : List Char} {ts : List (List Char)} :
    commaSeparated (t :: u :: ts) = t ++ ',' :: commaSeparated (u :: ts) := rfl

-- The items in the order in which they are written.
def Items.ofList : List Outline → Items
  | [] => .closed
  | o :: os => .cons o (ofList os)

-- The members in the order in which they are written, whatever their names are.
def Members.ofPairs : List (Outline × Outline) → Members
  | [] => .closed
  | (k, o) :: ms => .cons k o (ofPairs ms)

def Members.ofList : List (String × Outline) → Members
  | [] => .closed
  | (k, o) :: ms => .cons (.string (.ofChars k.toList)) o (ofList ms)

theorem Members.ofList_eq {ms : List (String × Outline)} :
    ofList ms = ofPairs (ms.map fun m => (.string (.ofChars m.1.toList), m.2)) := by
  induction ms
  case nil => rfl
  case cons hi => simp [ofList, ofPairs, hi]

theorem stops_of_mark {c : Char} (h : c ∈ [',', ']', '\x7d', ':']) : Stops (c :: rest) := by
  have hs : ∀ c ∈ [',', ']', '\x7d', ':'],
      Text.digit? c = none ∧ c ≠ '.' ∧ c ≠ 'e' ∧ c ≠ 'E' :=
    List.all_iff_forall_prop.mp (by decide)
  intro c' hc
  cases hc
  exact hs c h

-- No mark is a blank.
theorem Yields.reads_mark (h : Yields text o) (fuel : Nat) (c : Char) (rest : List Char)
    (hf : 2 * text.length ≤ fuel) (hc : c ∈ [',', ']', '\x7d', ':']) :
    ∃ rest', readValue fuel (text ++ c :: rest) = (o, rest') ∧ skipSpace rest' = c :: rest := by
  have hs : ∀ c ∈ [',', ']', '\x7d', ':'], ¬ IsSpace c := List.all_iff_forall_prop.mp (by decide)
  have hm : Stops (c :: rest) := stops_of_mark hc
  have ⟨rest', hv, hr⟩ := h.reads hf hm
  exact ⟨rest', hv, hr.trans (skipSpace_cons (hs c hc))⟩

theorem readItems_commaSeparated (fuel : Nat) (rest : List Char) (hne : xs ≠ [])
    (h : ∀ x ∈ xs, Yields (t x) (f x))
    (hf : 2 * (commaSeparated (xs.map t)).length + 1 ≤ fuel) :
    readItems fuel (commaSeparated (xs.map t) ++ ']' :: rest) = (.ofList (xs.map f), rest) := by
  induction xs generalizing fuel
  case nil => exact absurd rfl hne
  case cons x xs hi =>
    have ⟨hx, hxs⟩ := List.forall_mem_cons.mp h
    cases fuel
    case zero => omega
    case succ fuel =>
      cases xs
      case nil =>
        simp only [List.map_cons, List.map_nil, commaSeparated] at hf ⊢
        obtain ⟨_, hv, hs⟩ := hx.reads_mark fuel ']' rest (by omega) (by decide)
        rw [readItems, hv]
        simp only [hs]
        rfl
      case cons y ys =>
        simp only [List.map_cons, commaSeparated_cons_cons, List.length_append, List.length_cons] at hf hi ⊢
        have hi := hi fuel (by simp) hxs (by omega)
        rw [List.append_assoc, List.cons_append, readItems]
        obtain ⟨_, hv, hs⟩ := hx.reads_mark fuel ',' _ (by omega) (by decide)
        rw [hv]
        simp only [hs, hi]
        rfl

theorem readMembers_commaSeparated (fuel : Nat) (rest : List Char) (hne : xs ≠ [])
    (hn : ∀ x ∈ xs, Yields (n x) (k x)) (h : ∀ x ∈ xs, Yields (t x) (f x))
    (hf : 2 * (commaSeparated (xs.map fun x => n x ++ ':' :: t x)).length + 1 ≤ fuel) :
    readMembers fuel (commaSeparated (xs.map fun x => n x ++ ':' :: t x) ++ '\x7d' :: rest) =
      (.ofPairs (xs.map fun x => (k x, f x)), rest) := by
  induction xs generalizing fuel
  case nil => exact absurd rfl hne
  case cons x xs hi =>
    have ⟨hk, hks⟩ := List.forall_mem_cons.mp hn
    have ⟨hx, hxs⟩ := List.forall_mem_cons.mp h
    cases fuel
    case zero => omega
    case succ fuel =>
      cases xs
      case nil =>
        simp only [List.map_cons, List.map_nil, commaSeparated, List.length_append, List.length_cons] at hf ⊢
        rw [List.append_assoc, List.cons_append, readMembers]
        obtain ⟨_, hv, hs⟩ := hk.reads_mark fuel ':' _ (by omega) (by decide)
        rw [hv]
        simp only [hs]
        obtain ⟨_, hv, hs⟩ := hx.reads_mark fuel '\x7d' rest (by omega) (by decide)
        rw [hv]
        simp only [hs]
        rfl
      case cons y ys =>
        simp only [List.map_cons, commaSeparated_cons_cons, List.length_append, List.length_cons] at hf hi ⊢
        have hi := hi fuel (by simp) hks hxs (by omega)
        rw [List.append_assoc, List.append_assoc, List.cons_append, List.cons_append, readMembers]
        obtain ⟨_, hv, hs⟩ := hk.reads_mark fuel ':' _ (by omega) (by decide)
        rw [hv]
        simp only [hs]
        obtain ⟨_, hv, hs⟩ := hx.reads_mark fuel ',' _ (by omega) (by decide)
        rw [hv]
        simp only [hs, hi]
        rfl

theorem exists_skipSpace_commaSeparated {u : List Char} (us : List (List Char)) (rest : List Char)
    (h : ∃ c cs, skipSpace u = c :: cs ∧ c ≠ ']' ∧ c ≠ '\x7d') :
    ∃ c cs, skipSpace (commaSeparated (u :: us) ++ rest) = c :: cs ∧ c ≠ ']' ∧ c ≠ '\x7d' := by
  obtain ⟨c, cs, hs, h⟩ := h
  cases us
  case nil => exact ⟨c, _, skipSpace_append_of_eq hs, h⟩
  case cons u' us =>
    rw [commaSeparated_cons_cons, List.append_assoc]
    exact ⟨c, _, skipSpace_append_of_eq hs, h⟩

theorem reads_array {b : List Char} (hb : IsBlank b) (h : ∀ x ∈ xs, Yields (t x) (f x)) :
    Reads ('[' :: b ++ commaSeparated (xs.map t) ++ [']']) (.array (.ofList (xs.map f))) := by
  refine .of_succ ⟨_, _, rfl, by decide, by decide, by decide⟩ fun {fuel rest} hf _ => ?_
  simp only [List.cons_append, List.append_assoc, List.nil_append, List.length_cons, List.length_append,
    List.length_nil] at hf ⊢
  rw [readValue, skipSpace_cons (by decide)]
  simp only [skipSpace_append hb]
  cases xs
  case nil => simp [commaSeparated, skipSpace, IsSpace, Items.ofList]
  case cons x xs =>
    have hi := readItems_commaSeparated fuel rest (List.cons_ne_nil x xs) h (by omega)
    obtain ⟨c, cs, hc, hb, _⟩ := exists_skipSpace_commaSeparated (xs.map t) (']' :: rest)
      (h x List.mem_cons_self).starts
    rw [← List.map_cons] at hc
    rw [← readItems_skipSpace, hc] at hi
    simp only [hc]
    simp [hb, hi]

theorem reads_object {b : List Char} (hb : IsBlank b) (hn : ∀ x ∈ xs, Yields (n x) (k x))
    (h : ∀ x ∈ xs, Yields (t x) (f x)) :
    Reads ('\x7b' :: b ++ commaSeparated (xs.map fun x => n x ++ ':' :: t x) ++ ['\x7d'])
      (.object (.ofPairs (xs.map fun x => (k x, f x)))) := by
  refine .of_succ ⟨_, _, rfl, by decide, by decide, by decide⟩ fun {fuel rest} hf _ => ?_
  simp only [List.cons_append, List.append_assoc, List.nil_append, List.length_cons, List.length_append,
    List.length_nil] at hf ⊢
  rw [readValue, skipSpace_cons (by decide)]
  simp only [skipSpace_append hb]
  cases xs
  case nil => simp [commaSeparated, skipSpace, IsSpace, Members.ofPairs]
  case cons x xs =>
    have hi := readMembers_commaSeparated fuel rest (List.cons_ne_nil x xs) hn h (by omega)
    have hs : ∃ c cs, skipSpace (n x ++ ':' :: t x) = c :: cs ∧ c ≠ ']' ∧ c ≠ '\x7d' := by
      obtain ⟨c, cs, hc, hm⟩ := (hn x List.mem_cons_self).starts
      exact ⟨c, _, skipSpace_append_of_eq hc, hm⟩
    obtain ⟨c, cs, hc, _, hb⟩ := exists_skipSpace_commaSeparated (xs.map fun x => n x ++ ':' :: t x)
      ('\x7d' :: rest) hs
    rw [← List.map_cons (f := fun x => n x ++ ':' :: t x)] at hc
    rw [← readMembers_skipSpace, hc] at hi
    simp only [hc]
    simp [hb, hi]

-- Nothing is printed but what is needed.
theorem reads_commaSeparated (h : ∀ x ∈ xs, Reads (t x) (f x)) :
    Reads ('[' :: commaSeparated (xs.map t) ++ [']']) (.array (.ofList (xs.map f))) :=
  reads_array (b := []) (List.forall_mem_nil _) fun x hx => (h x hx).yields_self

theorem reads_objectText (h : ∀ x ∈ xs, Reads (t x) (f x)) :
    Reads (objectText (xs.map fun x => (name x, t x))) (.object (.ofList (xs.map fun x => (name x, f x)))) := by
  have ho : objectText (xs.map fun x => (name x, t x)) =
      '\x7b' :: [] ++ commaSeparated (xs.map fun x => stringText (name x) ++ ':' :: t x) ++ ['\x7d'] := by
    simp only [objectText, List.map_map]
    rfl
  rw [ho, Members.ofList_eq, List.map_map]
  exact reads_object (List.forall_mem_nil _) (fun _ _ => reads_string.yields_self) fun x hx => (h x hx).yields_self

end Values

-- A value in so many levels of arrays and objects at most, without doubles, and with the members of its objects
-- in the order in which a value has them.
inductive Value.Plain : Nat → Value → Prop
  | null {d} : Plain d .null
  | bool {d b} : Plain d (.bool b)
  | whole {d i hf} : Plain d (.number (.whole i hf))
  | string {d s} : Plain d (.string s)
  | array {d items} : (∀ v ∈ items, Plain d v) → Plain (d + 1) (.array items)
  | object {d members} : members.Pairwise (·.1 < ·.1) → (∀ m ∈ members, Plain d m.2) →
      Plain (d + 1) (.object members)

variable {d : Nat} {v : Value} {vs : List Value} {ms : List (String × Value)} {text : List Char} {o : Outline}

theorem Value.itemTexts_eq : itemTexts vs = vs.map chars := by
  induction vs
  case nil => rfl
  case cons hi => simp [itemTexts, hi]

theorem Value.memberTexts_eq : memberTexts ms = ms.map fun m => stringText m.1 ++ ':' :: m.2.chars := by
  induction ms
  case nil => rfl
  case cons hi => simp [memberTexts, hi]

theorem Items.ofValues_eq : ofValues vs = ofList (vs.map .ofValue) := by
  induction vs
  case nil => rfl
  case cons hi => simp [ofValues, ofList, hi]

theorem Members.ofValues_eq : ofValues ms = ofList (ms.map fun m => (m.1, .ofValue m.2)) := by
  induction ms
  case nil => rfl
  case cons hi => simp [ofValues, ofList, hi]

-- What a value is printed as has the outline of the value.
theorem Value.Plain.reads (h : v.Plain d) : Reads v.chars (.ofValue v) := by
  induction h
  case null => exact reads_null
  case bool => exact reads_bool
  case whole => exact reads_whole _
  case string => exact reads_string
  case array hi =>
    rw [Outline.ofValue, Items.ofValues_eq, chars, itemTexts_eq]
    exact reads_commaSeparated hi
  case object members _ _ hi =>
    have ho : (Value.object members).chars = objectText (members.map fun m => (m.1, m.2.chars)) := by
      simp only [chars, memberTexts_eq, objectText, List.map_map]
      rfl
    rw [Outline.ofValue, Members.ofValues_eq, ho]
    exact reads_objectText hi

theorem Document.ofChars_eq (h : Yields text o) : Document.ofChars text = ⟨o, false⟩ := by
  obtain ⟨rest, hr, hs⟩ : ∃ rest, readValue (2 * text.length + 2) (text ++ []) = (o, rest) ∧ skipSpace rest = [] :=
    h.reads (by omega) fun _ hc => nomatch hc
  rw [List.append_nil] at hr
  simp [Document.ofChars, hr, hs]

end Parley.Json
