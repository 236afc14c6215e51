import Parley.Text.Utf8

namespace Parley.Text.Utf8

-- The octets of the character of a given number.
inductive Forms (n : Nat) : List UInt8 → Prop
  | one {a} (hn : n ≤ 0x7F) (ha : a.toNat = n) : Forms n [a]
  | two {a b} (hn : 0x80 ≤ n ∧ n ≤ 0x7FF) (ha : a.toNat = 0xC0 + n / 64) (hb : b.toNat = 0x80 + n % 64) :
      Forms n [a, b]
  | three {a b d} (hn : 0x800 ≤ n ∧ n ≤ 0xFFFF) (ha : a.toNat = 0xE0 + n / 4096)
      (hb : b.toNat = 0x80 + n / 64 % 64) (hd : d.toNat = 0x80 + n % 64) : Forms n [a, b, d]
  | four {a b d e} (hn : 0x10000 ≤ n ∧ n ≤ 0x10FFFF) (ha : a.toNat = 0xF0 + n / 262144)
      (hb : b.toNat = 0x80 + n / 4096 % 64) (hd : d.toNat = 0x80 + n / 64 % 64) (he : e.toNat = 0x80 + n % 64) :
      Forms n [a, b, d, e]

variable {lead b : UInt8} {c : Char} {bs bs' rest more : List UInt8} {cs : List Char} {n width start : Nat}

-- The number of a character is neither that of a surrogate, nor above all others.
theorem toNat_bounds (c : Char) : c.toNat < 0xD800 ∨ 0xDFFF < c.toNat ∧ c.toNat < 0x110000 :=
  c.valid

theorem toNat_ofNat (h : n < 0xD800 ∨ 0xDFFF < n ∧ n < 0x110000) : (Char.ofNat n).toNat = n := by
  rw [Char.ofNat, dif_pos h]
  rfl

theorem forms_encodeChar (c : Char) : Forms c.toNat (String.utf8EncodeChar c) := by
  have hc := toNat_bounds c
  have ho {m : Nat} (h : m < 256) : (UInt8.ofNat m).toNat = m := UInt8.toNat_ofNat_of_lt h
  have hn : c.val.toNat = c.toNat := rfl
  simp only [String.utf8EncodeChar, hn]
  split
  case isTrue => exact .one (by omega) (ho (by omega))
  case isFalse =>
    split
    case isTrue =>
      refine .two (by omega) ?_ ?_
      all_goals rw [ho (by omega)]; omega
    case isFalse =>
      split
      case isTrue =>
        refine .three (by omega) ?_ ?_ ?_
        all_goals rw [ho (by omega)]; omega
      case isFalse =>
        refine .four (by omega) ?_ ?_ ?_ ?_
        all_goals rw [ho (by omega)]; omega

-- A number has no other octets.
theorem Forms.unique (h : Forms n bs) (h' : Forms n bs') : bs = bs' := by
  cases h <;> cases h'
  case one.one | two.two | three.three | four.four =>
    simp only [List.cons.injEq, ← UInt8.toNat_inj, and_true]
    omega
  all_goals omega

theorem isTail_iff : IsTail b ↔ 0x80 ≤ b.toNat ∧ b.toNat ≤ 0xBF :=
  .rfl

theorem isSecond_iff :
    IsSecond lead b ↔ 0x80 ≤ b.toNat ∧ b.toNat ≤ 0xBF ∧ (lead.toNat = 0xE0 → 0xA0 ≤ b.toNat) ∧
      (lead.toNat = 0xED → b.toNat ≤ 0x9F) ∧ (lead.toNat = 0xF0 → 0x90 ≤ b.toNat) ∧
      (lead.toNat = 0xF4 → b.toNat ≤ 0x8F) := by
  have hl (n : UInt8) : lead = n ↔ lead.toNat = n.toNat := UInt8.toNat_inj.symm
  simp only [IsSecond, secondBounds, hl, UInt8.le_iff_toNat_le]
  repeat' split
  all_goals simp_all <;> omega

theorem width?_eq :
    width? lead =
      if lead.toNat ≤ 0x7F then some 1
      else if 0xC2 ≤ lead.toNat ∧ lead.toNat ≤ 0xDF then some 2
      else if 0xE0 ≤ lead.toNat ∧ lead.toNat ≤ 0xEF then some 3
      else if 0xF0 ≤ lead.toNat ∧ lead.toNat ≤ 0xF4 then some 4
      else none :=
  rfl

-- The octets of a character are read as that character, whatever comes after them.
theorem Forms.front_eq (h : Forms c.toNat (lead :: bs)) : front lead (bs ++ rest) = .char c (bs.length + 1) := by
  have hc := toNat_bounds c
  have hchar {m : Nat} (h : m = c.toNat) : Char.ofNat m = c := by rw [h, Char.ofNat_toNat]
  cases h
  case one hn ha =>
    have hw : width? lead = some 1 := by rw [width?_eq, if_pos (by omega)]
    simp only [front, hw, hchar ha, List.length_nil]
  case two b hn ha hb =>
    have hw : width? lead = some 2 := by rw [width?_eq, if_neg (by omega), if_pos (by omega)]
    have hs : IsSecond lead b := isSecond_iff.mpr (by omega)
    simp only [front, hw, List.cons_append, if_pos hs, payload]
    rw [hchar (by omega)]
    rfl
  case three b d hn ha hb hd =>
    have hw : width? lead = some 3 := by
      rw [width?_eq, if_neg (by omega), if_neg (by omega), if_pos (by omega)]
    have hs : IsSecond lead b := isSecond_iff.mpr (by omega)
    have ht : IsTail d := isTail_iff.mpr (by omega)
    simp only [front, hw, List.cons_append, if_pos hs, if_pos ht, payload]
    rw [hchar (by omega)]
    rfl
  case four b d e hn ha hb hd he =>
    have hw : width? lead = some 4 := by
      rw [width?_eq, if_neg (by omega), if_neg (by omega), if_neg (by omega), if_pos (by omega)]
    have hs : IsSecond lead b := isSecond_iff.mpr (by omega)
    have ht : IsTail d := isTail_iff.mpr (by omega)
    have ht' : IsTail e := isTail_iff.mpr (by omega)
    simp only [front, hw, List.cons_append, if_pos hs, if_pos ht, if_pos ht', payload]
    rw [hchar (by omega)]
    rfl

-- How many octets belong together tells what the first of them may be.
theorem width?_cases (h : width? lead = some width) :
    (width = 1 ∧ lead.toNat ≤ 0x7F) ∨ (width = 2 ∧ 0xC2 ≤ lead.toNat ∧ lead.toNat ≤ 0xDF) ∨
      (width = 3 ∧ 0xE0 ≤ lead.toNat ∧ lead.toNat ≤ 0xEF) ∨ (width = 4 ∧ 0xF0 ≤ lead.toNat ∧ lead.toNat ≤ 0xF4) := by
  rw [width?_eq] at h
  grind

-- What has to stand at the front of a run for a character of so many octets to be read.

theorem of_front_one (hw : width? lead = some 1) (h : front lead rest = .char c width) :
    c = .ofNat lead.toNat ∧ width = 1 := by
  simp only [front, hw] at h
  grind

theorem of_front_two (hw : width? lead = some 2) (h : front lead rest = .char c width) :
    ∃ b more, rest = b :: more ∧ IsSecond lead b ∧ c = .ofNat (lead.toNat % 32 * 64 + payload b) ∧ width = 2 := by
  simp only [front, hw] at h
  grind

theorem of_front_three (hw : width? lead = some 3) (h : front lead rest = .char c width) :
    ∃ b d more, rest = b :: d :: more ∧ IsSecond lead b ∧ IsTail d ∧
      c = .ofNat ((lead.toNat % 16 * 64 + payload b) * 64 + payload d) ∧ width = 3 := by
  simp only [front, hw] at h
  grind

theorem of_front_four (hw : width? lead = some 4) (h : front lead rest = .char c width) :
    ∃ b d e more, rest = b :: d :: e :: more ∧ IsSecond lead b ∧ IsTail d ∧ IsTail e ∧
      c = .ofNat (((lead.toNat % 8 * 64 + payload b) * 64 + payload d) * 64 + payload e) ∧ width = 4 := by
  simp only [front, hw] at h
  grind

-- Whatever is read as a character begins with its octets.
theorem exists_forms_of_front (h : front lead rest = .char c width) :
    ∃ bs more, rest = bs ++ more ∧ Forms c.toNat (lead :: bs) ∧ width = bs.length + 1 := by
  cases hw : width? lead
  case none => simp [front, hw] at h
  case some w =>
    obtain ⟨rfl, hl⟩ | ⟨rfl, hl⟩ | ⟨rfl, hl⟩ | ⟨rfl, hl⟩ := width?_cases hw
    case inl =>
      obtain ⟨rfl, rfl⟩ := of_front_one hw h
      have hn : (Char.ofNat lead.toNat).toNat = lead.toNat := toNat_ofNat (by omega)
      exact ⟨[], rest, rfl, .one (by omega) hn.symm, rfl⟩
    case inr.inl =>
      obtain ⟨b, more, rfl, hs, rfl, rfl⟩ := of_front_two hw h
      rw [isSecond_iff] at hs
      generalize hm : lead.toNat % 32 * 64 + payload b = m
      simp only [payload] at hm
      have hn : (Char.ofNat m).toNat = m := toNat_ofNat (by omega)
      exact ⟨[b], more, rfl, .two (by omega) (by omega) (by omega), rfl⟩
    case inr.inr.inl =>
      obtain ⟨b, d, more, rfl, hs, ht, rfl, rfl⟩ := of_front_three hw h
      rw [isSecond_iff] at hs
      rw [isTail_iff] at ht
      generalize hm : (lead.toNat % 16 * 64 + payload b) * 64 + payload d = m
      simp only [payload] at hm
      have hn : (Char.ofNat m).toNat = m := toNat_ofNat (by omega)
      exact ⟨[b, d], more, rfl, .three (by omega) (by omega) (by omega) (by omega), rfl⟩
    case inr.inr.inr =>
      obtain ⟨b, d, e, more, rfl, hs, ht, ht', rfl, rfl⟩ := of_front_four hw h
      rw [isSecond_iff] at hs
      rw [isTail_iff] at ht ht'
      generalize hm : ((lead.toNat % 8 * 64 + payload b) * 64 + payload d) * 64 + payload e = m
      simp only [payload] at hm
      have hn : (Char.ofNat m).toNat = m := toNat_ofNat (by omega)
      exact ⟨[b, d, e], more, rfl, .four (by omega) (by omega) (by omega) (by omega) (by omega), rfl⟩

-- A character is read from its octets, and from no others.
theorem front_eq_char_iff :
    front lead rest = .char c width ↔ ∃ bs more, rest = bs ++ more ∧ lead :: bs = String.utf8EncodeChar c ∧
      width = bs.length + 1 := by
  constructor
  case mp =>
    intro h
    obtain ⟨bs, more, hr, hf, hw⟩ := exists_forms_of_front h
    exact ⟨bs, more, hr, hf.unique (forms_encodeChar c), hw⟩
  case mpr =>
    rintro ⟨bs, more, rfl, he, rfl⟩
    exact Forms.front_eq (he ▸ forms_encodeChar c)

theorem encode_cons : encode (c :: cs) = String.utf8EncodeChar c ++ encode cs :=
  List.flatMap_cons

theorem encode_eq_nil_iff : encode cs = [] ↔ cs = [] := by
  cases cs
  case nil => exact iff_of_true rfl rfl
  case cons => simp [encode_cons, String.utf8EncodeChar_ne_nil]

-- The first character of a text is at the front of its octets.
theorem of_cons_eq_encode (h : lead :: rest = encode cs) :
    ∃ c cs' bs, cs = c :: cs' ∧ lead :: bs = String.utf8EncodeChar c ∧ rest = bs ++ encode cs' := by
  cases cs
  case nil => cases h
  case cons c cs =>
    rw [encode_cons] at h
    cases he : String.utf8EncodeChar c
    case nil => exact absurd he String.utf8EncodeChar_ne_nil
    case cons lead' bs =>
      rw [he, List.cons_append] at h
      obtain ⟨rfl, rfl⟩ := List.cons.inj h
      exact ⟨c, cs, bs, rfl, he.symm, rfl⟩

theorem decodeFrom_eq_ok_iff : decodeFrom start bs = .ok cs ↔ bs = encode cs := by
  -- The induction is on what is read next.
  induction start, bs using decodeFrom.induct generalizing cs
  case case1 =>
    rw [decodeFrom, Except.ok.injEq, eq_comm, ← encode_eq_nil_iff, eq_comm]
  case case2 start lead rest c width hf hi =>
    obtain ⟨bs, more, rfl, he, rfl⟩ := front_eq_char_iff.mp hf
    rw [Nat.add_sub_cancel, List.drop_left] at hi
    have hd : decodeFrom start (lead :: (bs ++ more)) =
        (decodeFrom (start + (bs.length + 1)) more).map (c :: ·) := by
      simp only [decodeFrom, hf, Nat.add_sub_cancel, List.drop_left]
    rw [hd]
    constructor
    case mp =>
      intro h
      cases hm : decodeFrom (start + (bs.length + 1)) more
      case error => rw [hm] at h; cases h
      case ok cs' =>
        rw [hm] at h
        cases h
        rw [encode_cons, ← he, ← hi.mp hm]
        rfl
    case mpr =>
      intro h
      obtain ⟨c', cs', bs', rfl, he', hr⟩ := of_cons_eq_encode h
      have hf' := front_eq_char_iff.mpr ⟨bs', encode cs', hr, he', rfl⟩
      -- There is one character at the front at most.
      obtain ⟨rfl, hl⟩ := Front.char.inj (hf.symm.trans hf')
      obtain ⟨rfl, rfl⟩ := List.append_inj hr (Nat.succ.inj hl)
      rw [hi.mpr rfl]
      rfl
  case case3 hf | case4 hf =>
    rw [decodeFrom, hf]
    refine iff_of_false nofun fun h => ?_
    obtain ⟨c, cs', bs, _, he, hr⟩ := of_cons_eq_encode h
    cases hf.symm.trans (front_eq_char_iff.mpr ⟨bs, encode cs', hr, he, rfl⟩)

-- A run of octets is read as a text if and only if it is what the text is written as.
theorem decode_eq_ok_iff : decode bs = .ok cs ↔ bs = encode cs :=
  decodeFrom_eq_ok_iff

theorem utf8Encode_eq : cs.utf8Encode = (encode cs).toByteArray :=
  rfl

theorem encode_toList (s : String) : encode s.toList = s.toByteArray.data.toList := by
  have hs : s.toByteArray = (encode s.toList).toByteArray := by
    rw [← utf8Encode_eq, ← String.toByteArray_ofList, String.ofList_toList]
  rw [hs, List.toList_data_toByteArray]

-- Octets are read as no text if and only if they are not well-formed.
theorem exists_decode_eq_error_iff : (∃ f, decode bs = .error f) ↔ ¬ bs.toByteArray.IsValidUTF8 := by
  constructor
  case mp =>
    rintro ⟨f, hf⟩ ⟨cs, hcs⟩
    have hbs : bs = encode cs := List.toByteArray_inj.mp hcs
    cases hf.symm.trans (decode_eq_ok_iff.mpr hbs)
  case mpr =>
    intro hn
    cases hd : decode bs
    case error f => exact ⟨f, rfl⟩
    case ok cs => exact absurd ⟨cs, congrArg List.toByteArray (decode_eq_ok_iff.mp hd)⟩ hn

end Parley.Text.Utf8
