import Parley.Text.Digits

namespace Parley.Network

inductive Ip where
  -- Four parts of eight bits.
  | v4 (parts : List Nat)
  -- Eight groups of sixteen bits.
  | v6 (groups : List Nat)
deriving DecidableEq, Repr

structure Address where
  ip : Ip
  -- The number of a zone, which only an IPv6 address has.
  zone : Nat
  port : Nat
deriving DecidableEq, Repr

namespace Ip

open Text

-- A number of at most `limit` digits, without a leading zero, up to `bound`.
def readPart (limit bound : Nat) (cs : List Char) : Option (Nat × List Char) :=
  match takeDigits cs with
  | ([], _) => none
  | (ds, rest) =>
    let n := ofDigits 10 ds
    if limit < ds.length ∨ (1 < ds.length ∧ ds.head? = some 0) ∨ bound < n then none
    else some (n, rest)

-- Four numbers with points between them.
def readV4 (cs : List Char) : Option (List Nat × List Char) := go 3 cs
where
  go : Nat → List Char → Option (List Nat × List Char)
    | 0, cs => do
      let (n, cs) ← readPart 3 255 cs
      return ([n], cs)
    | k + 1, cs => do
      let (n, cs) ← readPart 3 255 cs
      match cs with
      | '.' :: cs =>
        let (ns, cs) ← go k cs
        return (n :: ns, cs)
      | _ => none

-- The hexadecimal digits at the front of a text.
def takeHexDigits : List Char → List Nat × List Char
  | [] => ([], [])
  | c :: cs =>
    match hexDigit? c with
    | some d => let (ds, rest) := takeHexDigits cs; (d :: ds, rest)
    | none => ([], c :: cs)

-- One group: up to four hexadecimal digits.
def readGroup (cs : List Char) : Option (Nat × List Char) :=
  match takeHexDigits cs with
  | ([], _) => none
  | (ds, rest) => if 4 < ds.length then none else some (ofDigits 16 ds, rest)

-- As many groups as there are, at most `limit`, and whether the last two are written as an IPv4
-- address.
def readGroups : (limit : Nat) → (first : Bool) → List Char → List Nat × Bool × List Char
  | 0, _, cs => ([], false, cs)
  | limit + 1, first, cs =>
    let body : Option (List Char) :=
      if first then some cs
      else
        match cs with
        | ':' :: cs => some cs
        | _ => none
    match body with
    | none => ([], false, cs)
    | some body =>
      match if 1 ≤ limit then readV4 body else none with
      | some ([a, b, c, d], rest) => ([256 * a + b, 256 * c + d], true, rest)
      | _ =>
        match readGroup body with
        | none => ([], false, cs)
        | some (n, rest) =>
          let (ns, embedded, rest) := readGroups limit false rest
          (n :: ns, embedded, rest)

-- Eight groups, or fewer with two colons in the place of zeros.  An IPv4 address can only be the
-- end.
def readV6 (cs : List Char) : Option (List Nat × List Char) :=
  match readGroups 8 true cs with
  | (head, embedded, rest) =>
    if 8 ≤ head.length then some (head, rest)
    else if embedded then none
    else
      match rest with
      | ':' :: ':' :: rest =>
        let (tail, _, rest) := readGroups (7 - head.length) true rest
        some (head ++ List.replicate (8 - head.length - tail.length) 0 ++ tail, rest)
      | _ => none

-- The address that a text is.
def read? (cs : List Char) : Option Ip :=
  match readV4 cs with
  | some (parts, []) => some (.v4 parts)
  | _ =>
    match readV6 cs with
    | some (groups, []) => some (.v6 groups)
    | _ => none

-- Where the longest row of zeros begins, and its length; the first of equals.
def longestZeros (groups : List Nat) : Nat × Nat :=
  (List.range groups.length).foldl (fun (start, length) i =>
    let n := ((groups.drop i).takeWhile (· == 0)).length
    if length < n then (i, n) else (start, length)) (0, 0)

def hexGroups (groups : List Nat) : String :=
  String.intercalate ":" (groups.map fun g => String.ofList (Nat.toDigits 16 g))

def v4Text (parts : List Nat) : String := String.intercalate "." (parts.map toString)

def v6Text (groups : List Nat) : String :=
  match groups with
  | [0, 0, 0, 0, 0, 0xffff, a, b] => "::ffff:" ++ v4Text [a / 256, a % 256, b / 256, b % 256]
  | groups =>
    let (start, length) := longestZeros groups
    if 1 < length then hexGroups (groups.take start) ++ "::" ++ hexGroups (groups.drop (start + length))
    else hexGroups groups

def text : Ip → String
  | v4 parts => v4Text parts
  | v6 groups => v6Text groups

end Ip

namespace Address

open Text

def readPort : List Char → Option Nat
  | ':' :: cs =>
    match takeDigits cs with
    | (d :: ds, []) =>
      let n := ofDigits 10 (d :: ds)
      if n < 0x10000 then some n else none
    | _ => none
  | _ => none

def readZone : List Char → Option (Nat × List Char)
  | '%' :: cs =>
    match takeDigits cs with
    | (d :: ds, rest) =>
      let n := ofDigits 10 (d :: ds)
      if n < 0x100000000 then some (n, rest) else none
    | _ => none
  | cs => some (0, cs)

-- The socket address that a text is.
def read? (cs : List Char) : Option Address :=
  match cs with
  | '[' :: cs => do
    let (groups, cs) ← Ip.readV6 cs
    let (zone, cs) ← readZone cs
    match cs with
    | ']' :: cs => return ⟨.v6 groups, zone, ← readPort cs⟩
    | _ => none
  | cs => do
    let (parts, cs) ← Ip.readV4 cs
    return ⟨.v4 parts, 0, ← readPort cs⟩

def text (a : Address) : String :=
  match a.ip with
  | .v4 _ => s!"{a.ip.text}:{a.port}"
  | .v6 _ =>
    let zone := if a.zone = 0 then "" else s!"%{a.zone}"
    s!"[{a.ip.text}{zone}]:{a.port}"

end Address
end Parley.Network
