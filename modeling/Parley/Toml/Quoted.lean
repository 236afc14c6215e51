import Parley.Text.Digits
import Parley.Toml.Blank

namespace Parley.Toml

-- The character that an escape of two characters stands for.
def unescape? : Char → Option Char
  | 'b' => some '\x08'
  | 't' => some '\t'
  | 'n' => some '\n'
  | 'f' => some '\x0c'
  | 'r' => some '\r'
  | '"' => some '"'
  | '\\' => some '\\'
  | _ => none

-- The character with the number that some hexadecimal digits write.
def scalar? (digits : List Char) : Option Char := do
  let n := Text.ofDigits 16 (← digits.mapM Text.hexDigit?)
  if n < 0xD800 ∨ (0xE000 ≤ n ∧ n < 0x110000) then some (Char.ofNat n) else none

-- An escape after its backslash, and what comes after it.
def readEscape (cs : List Char) : Option (Char × List Char) :=
  match cs with
  | 'u' :: cs => if cs.length < 4 then none else (scalar? (cs.take 4)).map (·, cs.drop 4)
  | 'U' :: cs => if cs.length < 8 then none else (scalar? (cs.take 8)).map (·, cs.drop 8)
  | c :: cs => (unescape? c).map (·, cs)
  | [] => none

-- A character before what was read.
def andThen (c : Char) (r : Option (List Char × List Char)) : Option (List Char × List Char) :=
  r.map fun (s, rest) => (c :: s, rest)

-- A string with escapes after its opening quote.
def readBasic (fuel : Nat) (cs : List Char) : Option (List Char × List Char) :=
  match fuel, cs with
  | 0, _ | _, [] => none
  | _, '"' :: cs => some ([], cs)
  | fuel + 1, '\\' :: cs => do
    let (c, cs) ← readEscape cs
    andThen c (readBasic fuel cs)
  | fuel + 1, c :: cs => if IsPlain c then andThen c (readBasic fuel cs) else none

-- A string without escapes after its opening quote.
def readLiteral : List Char → Option (List Char × List Char)
  | [] => none
  | c :: cs =>
    if c = '\x27' then some ([], cs) else if IsPlain c then andThen c (readLiteral cs) else none

-- The spaces and line ends after a backslash that ends a line.
def skipFold (fuel : Nat) (cs : List Char) : List Char :=
  match fuel with
  | 0 => cs
  | fuel + 1 =>
    match lineEnd? (skipSpace cs) with
    | some rest => skipFold fuel rest
    | none => skipSpace cs

-- The end of a string on several lines: three quotes, before which one or two more may stand.
def closing? (quote : Char) (cs : List Char) : Option (List Char × List Char) :=
  let n := min ((cs.takeWhile (· = quote)).length) 5
  if n < 3 then none else some (List.replicate (n - 3) quote, cs.drop n)

-- A string on several lines after its three opening quotes.
def readLines (quote : Char) (escapes : Bool) (fuel : Nat) (cs : List Char) : Option (List Char × List Char) :=
  match fuel with
  | 0 => none
  | fuel + 1 =>
    match closing? quote cs with
    | some r => some r
    | none =>
      match lineEnd? cs with
      | some rest => andThen '\n' (readLines quote escapes fuel rest)
      | none =>
        match cs with
        | [] => none
        | c :: cs =>
          if c = '\\' ∧ escapes then
            match lineEnd? (skipSpace cs) with
            | some rest => readLines quote escapes fuel (skipFold rest.length rest)
            | none => do
              let (c, cs) ← readEscape cs
              andThen c (readLines quote escapes fuel cs)
          else if IsPlain c then andThen c (readLines quote escapes fuel cs)
          else none

-- A line end right after the opening quotes does not belong to the string.
def readFromNextLine (quote : Char) (escapes : Bool) (cs : List Char) : Option (List Char × List Char) :=
  let cs := (lineEnd? cs).getD cs
  readLines quote escapes (cs.length + 1) cs

-- A string that may have several lines.
def readString (cs : List Char) : Option (String × List Char) :=
  let r : Option (List Char × List Char) :=
    match cs with
    | '"' :: '"' :: '"' :: cs => readFromNextLine '"' true cs
    | '"' :: cs => readBasic (cs.length + 1) cs
    | '\x27' :: '\x27' :: '\x27' :: cs => readFromNextLine '\x27' false cs
    | '\x27' :: cs => readLiteral cs
    | _ => none
  r.map fun (s, rest) => (String.ofList s, rest)

end Parley.Toml
