import Parley.Text.Blank

namespace Parley.Http

-- Header fields of an HTTP request.  Names are compared without regard to case; values are octets.
structure Header where
  name : String
  value : List UInt8
deriving DecidableEq, Repr

abbrev Headers := List Header

namespace Header

-- The characters of a field name.
def IsToken (c : Char) : Prop :=
  c.isAlphanum ∨ c ∈ "!#$%&'*+-.^_`|~".toList

instance : DecidablePred IsToken := fun c => by unfold IsToken; infer_instance

-- A field name has characters, and only such as may be in one.
def isName (s : String) : Bool := s ≠ "" && s.toList.all (IsToken ·)

-- An octet that a field value may have: no control but the tab.
def IsValueOctet (b : UInt8) : Prop := b = 9 ∨ (32 ≤ b ∧ b ≠ 127)

instance (b : UInt8) : Decidable (IsValueOctet b) := by unfold IsValueOctet; infer_instance

-- An octet that is shown as a character of its own.
def IsVisible (b : UInt8) : Prop := b = 9 ∨ (32 ≤ b ∧ b < 127)

instance (b : UInt8) : Decidable (IsVisible b) := by unfold IsVisible; infer_instance

-- Whether a row of octets may be a field value.
def isValue (bs : List UInt8) : Bool := bs.all (IsValueOctet ·)

-- A header field, if the name and the value may stand in one.
def of? (name : String) (value : List UInt8) : Option Header :=
  if isName name && isValue value then some ⟨Text.lowerAscii name, value⟩ else none

-- The text of a value; none unless every octet is visible.
def text? (h : Header) : Option String :=
  if h.value.all (IsVisible ·) then
    some (String.ofList (h.value.map fun b => Char.ofNat b.toNat))
  else none

end Header

-- The first field of a name.
def Headers.find (hs : Headers) (name : String) : Option Header :=
  List.find? (fun h => decide (Text.SameLetters h.name name)) hs

end Parley.Http
