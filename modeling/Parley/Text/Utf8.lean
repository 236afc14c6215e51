namespace Parley.Text.Utf8

-- The octets of a text, character by character.
def encode (cs : List Char) : List UInt8 :=
  cs.flatMap String.utf8EncodeChar

-- What stands at the front of a non-empty run of octets.
inductive Front where
  -- A character, and the number of octets that it takes.
  | char (c : Char) (width : Nat)
  -- Octets that begin no character, as many as no longer character could share.
  | ill (width : Nat)
  -- The beginning of a character whose rest is missing.
  | cut
deriving DecidableEq, Repr

-- The bounds that the octet after the leading one has to keep: they leave out overlong forms,
-- surrogates and what lies above U+10FFFF.
def secondBounds (lead : UInt8) : UInt8 × UInt8 :=
  if lead = 0xE0 then (0xA0, 0xBF)
  else if lead = 0xED then (0x80, 0x9F)
  else if lead = 0xF0 then (0x90, 0xBF)
  else if lead = 0xF4 then (0x80, 0x8F)
  else (0x80, 0xBF)

-- The number of octets of a character that begins with `lead`, if one can.
def width? (lead : UInt8) : Option Nat :=
  if lead ≤ 0x7F then some 1
  else if 0xC2 ≤ lead ∧ lead ≤ 0xDF then some 2
  else if 0xE0 ≤ lead ∧ lead ≤ 0xEF then some 3
  else if 0xF0 ≤ lead ∧ lead ≤ 0xF4 then some 4
  else none

def IsSecond (lead b : UInt8) : Prop :=
  (secondBounds lead).1 ≤ b ∧ b ≤ (secondBounds lead).2

instance (lead b : UInt8) : Decidable (IsSecond lead b) := by
  unfold IsSecond; infer_instance

def IsTail (b : UInt8) : Prop := 0x80 ≤ b ∧ b ≤ 0xBF

instance (b : UInt8) : Decidable (IsTail b) := by
  unfold IsTail; infer_instance

-- The six payload bits of an octet after the first.
def payload (b : UInt8) : Nat := b.toNat % 64

def front (lead : UInt8) (rest : List UInt8) : Front :=
  match width? lead with
  | none => .ill 1
  | some 1 => .char (Char.ofNat lead.toNat) 1
  | some 2 =>
    match rest with
    | [] => .cut
    | b :: _ =>
      if IsSecond lead b then .char (Char.ofNat (lead.toNat % 32 * 64 + payload b)) 2 else .ill 1
  | some 3 =>
    match rest with
    | [] => .cut
    | b :: rest =>
      if IsSecond lead b then
        match rest with
        | [] => .cut
        | c :: _ =>
          if IsTail c then
            .char (Char.ofNat ((lead.toNat % 16 * 64 + payload b) * 64 + payload c)) 3
          else .ill 2
      else .ill 1
  | some _ =>
    match rest with
    | [] => .cut
    | b :: rest =>
      if IsSecond lead b then
        match rest with
        | [] => .cut
        | c :: rest =>
          if IsTail c then
            match rest with
            | [] => .cut
            | d :: _ =>
              if IsTail d then
                .char (Char.ofNat
                  (((lead.toNat % 8 * 64 + payload b) * 64 + payload c) * 64 + payload d)) 4
              else .ill 3
          else .ill 2
      else .ill 1

-- Where a run of octets stops being a text.
inductive Fault where
  -- From octet `start` on, `width` octets begin no character.
  | ill (start width : Nat)
  -- The character that begins at octet `start` is not finished.
  | cut (start : Nat)
deriving DecidableEq, Repr

def Fault.message : Fault → String
  | .ill start width => s!"invalid utf-8 sequence of {width} bytes from index {start}"
  | .cut start => s!"incomplete utf-8 byte sequence from index {start}"

-- `decode` for octets that begin at place `start` of a longer run.
def decodeFrom (start : Nat) : List UInt8 → Except Fault (List Char)
  | [] => .ok []
  | b :: rest =>
    match front b rest with
    | .char c width => (decodeFrom (start + width) (rest.drop (width - 1))).map (c :: ·)
    | .ill width => .error (.ill start width)
    | .cut => .error (.cut start)
termination_by bs => bs.length
decreasing_by simp only [List.length_drop, List.length_cons]; omega

-- The text of a run of octets, or the first fault in it.
def decode (bs : List UInt8) : Except Fault (List Char) := decodeFrom 0 bs

-- The text of a run of octets in which each faulty stretch reads as U+FFFD.
def decodeLossy : List UInt8 → List Char
  | [] => []
  | b :: rest =>
    match front b rest with
    | .char c width => c :: decodeLossy (rest.drop (width - 1))
    | .ill width => '\uFFFD' :: decodeLossy (rest.drop (width - 1))
    | .cut => ['\uFFFD']
termination_by bs => bs.length
decreasing_by all_goals (simp only [List.length_drop, List.length_cons]; omega)

end Parley.Text.Utf8
