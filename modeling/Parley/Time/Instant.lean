import Parley.Text.Blank
import Parley.Text.Digits
import Parley.Time.Date

namespace Parley.Time

-- A leap second has a `nano` of `10 ^ 9` or more.
@[ext]
structure Instant where
  date : Date
  -- The seconds since midnight.
  second : Nat
  nano : Nat
  inDay : second < 86400
  inSecond : nano < 2 * 1000000000
deriving DecidableEq, Repr

-- The number of nanoseconds in a second.
def nanosPerSecond : Nat := 1000000000

namespace Instant

def epoch : Instant := ⟨.epoch, 0, 0, by decide, by decide⟩

-- The days after which the calendar repeats.
def cycle : Nat := 146097

-- The instant so many nanoseconds after the epoch.
def ofNanos (n : Nat) : Instant where
  date := (Date.epoch.after (n / nanosPerSecond / 86400 % cycle)).afterCycles
    (n / nanosPerSecond / 86400 / cycle)
  second := n / nanosPerSecond % 86400
  nano := n % nanosPerSecond
  inDay := Nat.mod_lt _ (by decide)
  inSecond := Nat.lt_trans (Nat.mod_lt n (by decide)) (by decide)

-- Years of four digits stand as they are; others have a sign.
def yearText (year : Int) : List Char :=
  if 0 ≤ year ∧ year ≤ 9999 then Text.decimalPadded 4 year.toNat
  else
    let ds := Text.decimal year.natAbs
    (if year < 0 then '-' else '+') :: List.replicate (4 - ds.length) '0' ++ ds

-- The fraction of a second, in no digits or three or six or nine.
def fractionText (nano : Nat) : List Char :=
  if nano = 0 then []
  else if nano % 1000000 = 0 then '.' :: Text.decimalPadded 3 (nano / 1000000)
  else if nano % 1000 = 0 then '.' :: Text.decimalPadded 6 (nano / 1000)
  else '.' :: Text.decimalPadded 9 nano

def chars (t : Instant) : List Char :=
  let leap := t.nano / nanosPerSecond
  yearText t.date.year ++ '-' :: Text.decimalPadded 2 t.date.month ++
    '-' :: Text.decimalPadded 2 t.date.day ++
    'T' :: Text.decimalPadded 2 (t.second / 3600) ++
    ':' :: Text.decimalPadded 2 (t.second / 60 % 60) ++
    ':' :: Text.decimalPadded 2 (t.second % 60 + leap) ++
    fractionText (t.nano % nanosPerSecond) ++ ['Z']

def text (t : Instant) : String := String.ofList t.chars

-- At least one and at most `limit` digits, and what comes after them.
def readDigits (limit : Nat) (cs : List Char) : Option (List Nat × List Char) :=
  let ds := (Text.takeDigits cs).1.take limit
  if ds = [] then none else some (ds, cs.drop ds.length)

-- A number of at most `limit` digits, after any blanks.
def readNumber (limit : Nat) (cs : List Char) : Option (Nat × List Char) :=
  (readDigits limit (Text.trimStart cs)).map fun (ds, rest) => (Text.ofDigits 10 ds, rest)

-- A year has at most four digits, unless it has a sign.
def readYear (cs : List Char) : Option (Int × List Char) :=
  match Text.trimStart cs with
  | '-' :: cs => (readDigits cs.length cs).map fun (ds, rest) => (-(Text.ofDigits 10 ds), rest)
  | '+' :: cs => (readDigits cs.length cs).map fun (ds, rest) => (Text.ofDigits 10 ds, rest)
  | cs => (readNumber 4 cs).map fun (n, rest) => (n, rest)

-- A separator, after any blanks.
def readMark (mark : Char) (cs : List Char) : Option (List Char) :=
  match Text.trimStart cs with
  | c :: cs => if c = mark then some cs else none
  | [] => none

-- The digits after a point give nanoseconds; digits after the ninth are dropped.
def readFraction (cs : List Char) : Option (Nat × List Char) :=
  match cs with
  | '.' :: cs => do
    let (ds, _) ← readDigits 9 cs
    return (Text.ofDigits 10 ds * Nat.pow 10 (9 - ds.length), (Text.takeDigits cs).2)
  | cs => some (0, cs)

-- Two digits, the first one below `bound`.
def readPair (bound : Nat) (cs : List Char) : Option (Nat × List Char) :=
  match cs with
  | a :: b :: cs => do
    let a ← Text.digit? a
    let b ← Text.digit? b
    if a < bound then some (10 * a + b, cs) else none
  | _ => none

-- The distance from universal time in minutes: `Z`, `UTC`, or a sign, hours and minutes.
def readOffset (cs : List Char) : Option (Int × List Char) :=
  match Text.trimStart cs with
  | a :: b :: c :: rest =>
    if [a, b, c].map Char.toLower = ['u', 't', 'c'] then some (0, rest) else signed (a :: b :: c :: rest)
  | cs => signed cs
where
  signed : List Char → Option (Int × List Char)
    | c :: cs =>
      if c = 'Z' ∨ c = 'z' then some (0, cs)
      else if c = '+' then minutes cs
      else if c = '-' ∨ c = '−' then (minutes cs).map fun (n, rest) => (-n, rest)
      else none
    | [] => none
  minutes (cs : List Char) : Option (Int × List Char) := do
    let (h, cs) ← readPair 10 cs
    let (m, cs) ← readPair 6 (cs.dropWhile fun c => c = ':' ∨ Text.IsBlank c)
    return (((60 * h + m : Nat) : Int), cs)

-- The instant at a local date and time, `offset` minutes ahead of universal time.
def ofLocal (date : Date) (second nano : Nat) (offset : Int) (h : nano < 2 * 1000000000) :
    Option Instant :=
  if offset ≤ -1440 ∨ 1440 ≤ offset then none
  else
    let s : Int := second - 60 * offset
    let date := if s < 0 then date.previous else if 86400 ≤ s then date.next else date
    if -yearLimit ≤ date.year ∧ date.year < yearLimit then
      some
        { date
          second := (s % 86400).toNat
          nano
          inDay := by omega
          inSecond := h }
    else none

-- The instant that a text names.
def read (cs : List Char) : Option Instant := do
  let (year, cs) ← readYear cs
  let cs ← readMark '-' cs
  let (month, cs) ← readNumber 2 cs
  let cs ← readMark '-' cs
  let (day, cs) ← readNumber 2 cs
  let date ← Date.of? year month day
  let cs ← match cs with
    | c :: cs => if c = 'T' ∨ c = 't' ∨ c = ' ' then some cs else none
    | [] => none
  let (hour, cs) ← readNumber 2 cs
  let cs ← readMark ':' cs
  let (minute, cs) ← readNumber 2 cs
  let cs ← readMark ':' cs
  let (second, cs) ← readNumber 2 cs
  let (nano, cs) ← readFraction cs
  let (offset, cs) ← readOffset cs
  if Text.trimStart cs ≠ [] ∨ 24 ≤ hour ∨ 60 ≤ minute ∨ 61 ≤ second then none
  else
    let leap := second / 60
    let nano := nano + leap * nanosPerSecond
    if h : nano < 2 * 1000000000 then
      ofLocal date (3600 * hour + 60 * minute + (second - leap)) nano offset h
    else none

end Instant
end Parley.Time
