import Parley.Json.Value

namespace Parley.Json

-- Why a text stops being JSON at some place.
inductive Fault where
  -- Nothing more comes.
  | ended
  -- Nothing more comes, and a word such as `null` has begun.
  | endedInWord
  -- Nothing more comes where a number needs a digit.
  | endedInNumber
  -- What comes is not allowed there.
  | malformed
deriving DecidableEq, Repr

-- A string as it is written after the opening quote.  An escape may name one half of a surrogate
-- pair only.
inductive Quoted where
  | closed
  | broken (f : Fault)
  | char (c : Char) (rest : Quoted)
  | half (unit : Nat) (rest : Quoted)
deriving DecidableEq, Repr

mutual
-- The outline of a JSON text: its values, members and strings in the order in which they are written, up to the
-- first place where the text stops being JSON.  The outline decides nothing about the meaning of the text, so that
-- a reader who expects a certain shape can go through it from left to right and complain about whatever comes
-- first.
inductive Outline where
  | null
  | bool (b : Bool)
  -- A number, or none if it is too large for a double.
  | number (n : Option Number)
  | string (s : Quoted)
  | array (items : Items)
  | object (members : Members)
  | broken (f : Fault)

-- The items of an array up to its closing bracket.
inductive Items where
  | closed
  | broken (f : Fault)
  | cons (item : Outline) (rest : Items)

-- The members of an object up to its closing brace; whether a name is a string is left open.
inductive Members where
  | closed
  | broken (f : Fault)
  | cons (name value : Outline) (rest : Members)
end

-- A text that holds one value and, if `rest` is set, something else after it.
structure Document where
  root : Outline
  rest : Bool

namespace Quoted

def ofChars : List Char → Quoted
  | [] => closed
  | c :: cs => char c (ofChars cs)

def IsLeading (unit : Nat) : Prop := 0xD800 ≤ unit ∧ unit < 0xDC00

def IsTrailing (unit : Nat) : Prop := 0xDC00 ≤ unit ∧ unit < 0xE000

instance (unit : Nat) : Decidable (IsLeading unit) := by unfold IsLeading; infer_instance

instance (unit : Nat) : Decidable (IsTrailing unit) := by unfold IsTrailing; infer_instance

-- The character that a surrogate pair stands for.
def pair (leading trailing : Nat) : Char :=
  Char.ofNat (0x10000 + (leading - 0xD800) * 0x400 + (trailing - 0xDC00))

-- The characters of a string, in which the two halves of a surrogate pair must stand together.
def chars : Quoted → Except Fault (List Char)
  | closed => .ok []
  | broken f => .error f
  | char c rest => rest.chars.map (c :: ·)
  | half u (half v rest) =>
    if IsLeading u ∧ IsTrailing v then rest.chars.map (pair u v :: ·) else .error .malformed
  | half u (broken f) => .error (if IsLeading u then f else .malformed)
  | half _ _ => .error .malformed

-- The fault in a string whose characters nobody asks for.
def fault? : Quoted → Option Fault
  | closed => none
  | broken f => some f
  | char _ rest => rest.fault?
  | half _ rest => rest.fault?

end Quoted
end Parley.Json
