namespace Parley.Text

-- The value of a decimal digit.
def digit? (c : Char) : Option Nat :=
  if '0' ≤ c ∧ c ≤ '9' then some (c.toNat - '0'.toNat) else none

-- The value of a hexadecimal digit in either case.
def hexDigit? (c : Char) : Option Nat :=
  if '0' ≤ c ∧ c ≤ '9' then some (c.toNat - '0'.toNat)
  else if 'a' ≤ c ∧ c ≤ 'f' then some (c.toNat - 'a'.toNat + 10)
  else if 'A' ≤ c ∧ c ≤ 'F' then some (c.toNat - 'A'.toNat + 10)
  else none

-- The digits at the front of a text, by value, and what comes after them.
def takeDigits : List Char → List Nat × List Char
  | [] => ([], [])
  | c :: cs =>
    match digit? c with
    | some d => let (ds, rest) := takeDigits cs; (d :: ds, rest)
    | none => ([], c :: cs)

-- The number that a row of digits of the given base stands for, most significant first.
def ofDigits (base : Nat) (ds : List Nat) : Nat := ds.foldl (fun n d => base * n + d) 0

-- The digits of a number without leading zeros, most significant first.
def decimal (n : Nat) : List Char := Nat.toDigits 10 n

-- The last `width` hexadecimal digits of a number, leading zeros included.
def hexPadded : (width : Nat) → Nat → List Char
  | 0, _ => []
  | width + 1, n => hexPadded width (n / 16) ++ [Nat.digitChar (n % 16)]

-- The last `width` decimal digits of a number, leading zeros included.
def decimalPadded : (width : Nat) → Nat → List Char
  | 0, _ => []
  | width + 1, n => decimalPadded width (n / 10) ++ [Nat.digitChar (n % 10)]

-- The number that a text writes in decimal: one digit or more, and nothing else.
def readDecimal (cs : List Char) : Option Nat :=
  match takeDigits cs with
  | (d :: ds, []) => some (ofDigits 10 (d :: ds))
  | _ => none

-- The unsigned number that a text writes: digits, after at most one plus sign.
def readUnsigned : List Char → Option Nat
  | '+' :: cs => readDecimal cs
  | cs => readDecimal cs

-- The signed number that a text writes: digits, after at most one sign.
def readSigned : List Char → Option Int
  | '-' :: cs => (readDecimal cs).map fun n => -n
  | cs => (readUnsigned cs).map fun n => n

-- Two hexadecimal digits for each octet.
def hexOctets (bs : List UInt8) : String :=
  String.ofList (bs.flatMap fun b => hexPadded 2 b.toNat)

-- The octets that a row of pairs of hexadecimal digits stands for.
def readHexOctets : List Char → Option (List UInt8)
  | [] => some []
  | [_] => none
  | a :: b :: cs => do
    let hi ← hexDigit? a
    let lo ← hexDigit? b
    let bs ← readHexOctets cs
    return (16 * hi + lo).toUInt8 :: bs

end Parley.Text
