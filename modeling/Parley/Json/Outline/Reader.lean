import Parley.Json.Outline
import Parley.Json.Numeral

namespace Parley.Json

-- The four characters that may stand between the parts of a JSON text.
def IsSpace (c : Char) : Prop := c = ' ' ∨ c = '\n' ∨ c = '\t' ∨ c = '\r'

instance : DecidablePred IsSpace := fun c => by unfold IsSpace; infer_instance

def skipSpace : List Char → List Char
  | [] => []
  | c :: cs => if IsSpace c then skipSpace cs else c :: cs

-- The character that an escape of two characters stands for.
def unescape? (c : Char) : Option Char :=
  match c with
  | '"' => some '"'
  | '\\' => some '\\'
  | '/' => some '/'
  | 'b' => some '\x08'
  | 'f' => some '\x0c'
  | 'n' => some '\n'
  | 'r' => some '\r'
  | 't' => some '\t'
  | _ => none

def hexUnit? (a b c d : Char) : Option Nat := do
  let a ← Text.hexDigit? a
  let b ← Text.hexDigit? b
  let c ← Text.hexDigit? c
  let d ← Text.hexDigit? d
  return ((a * 16 + b) * 16 + c) * 16 + d

-- A code unit written as an escape: a character, or half of a surrogate pair.
def Quoted.ofUnit (unit : Nat) (rest : Quoted) : Quoted :=
  if IsLeading unit ∨ IsTrailing unit then half unit rest else char (Char.ofNat unit) rest

-- A string after its opening quote, and what comes after its closing quote.  Four octets must
-- follow `\u`; if fewer are left, the text has ended.
def readQuoted : List Char → Quoted × List Char
  | [] => (.broken .ended, [])
  | '"' :: cs => (.closed, cs)
  | '\\' :: 'u' :: a :: b :: c :: d :: cs =>
    match hexUnit? a b c d with
    | some unit =>
      let (s, rest) := readQuoted cs
      (.ofUnit unit s, rest)
    | none => (.broken .malformed, [])
  | '\\' :: 'u' :: cs =>
    (.broken (if (String.ofList cs).utf8ByteSize < 4 then .ended else .malformed), [])
  | '\\' :: [] => (.broken .ended, [])
  | '\\' :: e :: cs =>
    match unescape? e with
    | some c =>
      let (s, rest) := readQuoted cs
      (.char c s, rest)
    | none => (.broken .malformed, [])
  | c :: cs =>
    if c.toNat < 0x20 then (.broken .malformed, [])
    else
      let (s, rest) := readQuoted cs
      (.char c s, rest)

-- The rest of a word such as `null`, and what it stands for.
def readWord (word : List Char) (o : Outline) (cs : List Char) : Outline × List Char :=
  match word, cs with
  | [], cs => (o, cs)
  | _ :: _, [] => (.broken .endedInWord, [])
  | w :: ws, c :: cs => if w = c then readWord ws o cs else (.broken .malformed, [])

def readNumber (cs : List Char) : Outline × List Char :=
  match Numeral.read cs with
  | .ok (n, rest) => (.number n.value?, rest)
  | .error f => (.broken f, [])

mutual
-- The value at the front of a text, after any space.  Fuel twice the length of the text suffices.
def readValue (fuel : Nat) (cs : List Char) : Outline × List Char :=
  match fuel with
  | 0 => (.broken .ended, [])
  | fuel + 1 =>
    match skipSpace cs with
    | [] => (.broken .ended, [])
    | '"' :: cs => let (s, rest) := readQuoted cs; (.string s, rest)
    | '[' :: cs =>
      match skipSpace cs with
      | [] => (.array (.broken .ended), [])
      | ']' :: rest => (.array .closed, rest)
      | cs => let (items, rest) := readItems fuel cs; (.array items, rest)
    | '\x7b' :: cs =>
      match skipSpace cs with
      | [] => (.object (.broken .ended), [])
      | '\x7d' :: rest => (.object .closed, rest)
      | cs => let (members, rest) := readMembers fuel cs; (.object members, rest)
    | 'n' :: cs => readWord "ull".toList .null cs
    | 't' :: cs => readWord "rue".toList (.bool true) cs
    | 'f' :: cs => readWord "alse".toList (.bool false) cs
    | cs => readNumber cs

-- The items of an array from one item on.
def readItems (fuel : Nat) (cs : List Char) : Items × List Char :=
  match fuel with
  | 0 => (.broken .ended, [])
  | fuel + 1 =>
    let (item, rest) := readValue fuel cs
    match skipSpace rest with
    | [] => (.cons item (.broken .ended), [])
    | ']' :: rest => (.cons item .closed, rest)
    | ',' :: rest => let (items, rest) := readItems fuel rest; (.cons item items, rest)
    | _ => (.cons item (.broken .malformed), [])

-- The members of an object from one member on.
def readMembers (fuel : Nat) (cs : List Char) : Members × List Char :=
  match fuel with
  | 0 => (.broken .ended, [])
  | fuel + 1 =>
    let (name, rest) := readValue fuel cs
    match skipSpace rest with
    | [] => (.cons name (.broken .ended) (.broken .ended), [])
    | ':' :: rest =>
      let (value, rest) := readValue fuel rest
      match skipSpace rest with
      | [] => (.cons name value (.broken .ended), [])
      | '\x7d' :: rest => (.cons name value .closed, rest)
      | ',' :: rest => let (members, rest) := readMembers fuel rest; (.cons name value members, rest)
      | _ => (.cons name value (.broken .malformed), [])
    | _ => (.cons name (.broken .malformed) (.broken .malformed), [])
end

-- The outline of a whole text.
def Document.ofChars (cs : List Char) : Document :=
  let (root, rest) := readValue (2 * cs.length + 2) cs
  { root, rest := !(skipSpace rest).isEmpty }

end Parley.Json
