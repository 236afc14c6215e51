import Parley.Json.Printer
import Parley.Json.Outline.Reader
import Parley.Text.Quoted

namespace Parley.Json

-- A value that was found where another shape was expected.
inductive Found where
  | null
  | bool (b : Bool)
  | number (n : Number)
  | string (s : String)
  | sequence
  | map
deriving DecidableEq, Repr

def Found.text : Found → String
  | null => "null"
  | bool b => s!"boolean `{b}`"
  | number (.whole i _) => s!"integer `{i}`"
  | number (.double x) => s!"floating point `{String.ofList (doubleLayout.text x)}`"
  | string s => "string " ++ Text.quoted s
  | sequence => "sequence"
  | map => "map"

-- How a value differs from the shape that was expected.
inductive Mismatch where
  | kind (found : Found) (expected : String)
  | range (found : Found) (expected : String)
  | missingMember (name : String)
  | repeatedMember (name : String)
  | tooFewItems (count : Nat) (expected : String)
  | unknownName (name : String) (known : List String)
  -- A string that does not follow the format it should have.
  | format
deriving DecidableEq, Repr

-- The known names of a choice, as a sentence lists them.
def choices : List String → String
  | [] => "there are no variants"
  | [a] => s!"expected `{a}`"
  | [a, b] => s!"expected `{a}` or `{b}`"
  | names => "expected one of " ++ String.intercalate ", " (names.map fun n => s!"`{n}`")

-- The words for a mismatch; none for a format, which has words of its own.
def Mismatch.message? : Mismatch → Option String
  | kind found expected => some s!"invalid type: {found.text}, expected {expected}"
  | range found expected => some s!"invalid value: {found.text}, expected {expected}"
  | missingMember name => some s!"missing field `{name}`"
  | repeatedMember name => some s!"duplicate field `{name}`"
  | tooFewItems count expected => some s!"invalid length {count}, expected {expected}"
  | unknownName name known => some (s!"unknown variant `{name}`, " ++ choices known)
  | format => none

inductive ReadError where
  | ended
  | malformed
  -- An array has `count` items, more than the record has members.
  | extraItems (count : Nat)
  | mismatch (m : Mismatch)
deriving DecidableEq, Repr

-- A fault in a value that is kept.
def Fault.whenKept : Fault → ReadError
  | ended | endedInWord | endedInNumber => .ended
  | malformed => .malformed

-- A fault in a value that is passed over.
def Fault.whenSkipped : Fault → ReadError
  | ended | endedInWord => .ended
  | endedInNumber | malformed => .malformed

-- A fault where only a string or an object may begin.
def Fault.whenChosen : Fault → ReadError
  | ended => .ended
  | endedInWord | endedInNumber | malformed => .malformed

-- What can be read so far: an answer or the first problem.
abbrev Reading := Except ReadError

-- What a reader has to know of its surroundings.
structure Context where
  -- How many arrays and objects may still be opened, and one more.
  depth : Nat
  -- Whether a record written as an array may have items after its last member.
  loose : Bool
deriving DecidableEq, Repr

-- A JSON text, in which 127 arrays and objects may be open at once.
def Context.text : Context := ⟨128, false⟩

-- Goes one level down.
def Context.descend (c : Context) : Reading Context :=
  if c.depth ≤ 1 then .error .malformed else .ok { c with depth := c.depth - 1 }

def Quoted.text (s : Quoted) : Reading String :=
  match s.chars with
  | .ok cs => .ok (String.ofList cs)
  | .error f => .error f.whenKept

-- The complaint about a value of another shape than the one expected.
def Outline.unexpected {α : Type} (expected : String) : Outline → Reading α
  | null => .error (.mismatch (.kind .null expected))
  | bool b => .error (.mismatch (.kind (.bool b) expected))
  | number (some n) => .error (.mismatch (.kind (.number n) expected))
  | number none => .error .malformed
  | string s => do
    let s ← s.text
    .error (.mismatch (.kind (.string s) expected))
  | array _ => .error (.mismatch (.kind .sequence expected))
  | object _ => .error (.mismatch (.kind .map expected))
  | broken f => .error f.whenKept

-- The fault in what stands where the name of a member is due, if it is no string.
def Outline.nameFault : Outline → Fault
  | broken .ended => .ended
  | _ => .malformed

mutual
-- The fault in a value that is passed over: any depth and any number will do.
def Outline.fault? : Outline → Option Fault
  | .null | .bool _ | .number _ => none
  | .string s => s.fault?
  | .array items => items.fault?
  | .object members => members.fault?
  | .broken f => some f

def Items.fault? : Items → Option Fault
  | .closed => none
  | .broken f => some f
  | .cons item rest => item.fault? <|> rest.fault?

def Members.fault? : Members → Option Fault
  | .closed => none
  | .broken f => some f
  | .cons (.string name) value rest => name.fault? <|> value.fault? <|> rest.fault?
  | .cons name _ _ => some name.nameFault
end

-- The number of items up to the end of the array, or of the text.
def Items.length : Items → Nat
  | .closed | .broken _ => 0
  | .cons _ rest => rest.length + 1

mutual
-- The outline of a value that is already known.
def Outline.ofValue : Value → Outline
  | .null => .null
  | .bool b => .bool b
  | .number n => .number (some n)
  | .string s => .string (Quoted.ofChars s.toList)
  | .array items => .array (Items.ofValues items)
  | .object members => .object (Members.ofValues members)

def Items.ofValues : List Value → Items
  | [] => .closed
  | v :: vs => .cons (Outline.ofValue v) (Items.ofValues vs)

def Members.ofValues : List (String × Value) → Members
  | [] => .closed
  | (k, v) :: ms => .cons (.string (Quoted.ofChars k.toList)) (Outline.ofValue v) (Members.ofValues ms)
end

-- Passes a value over.
def Outline.skip (o : Outline) : Reading Unit :=
  match o.fault? with
  | none => .ok ()
  | some f => .error f.whenSkipped

-- The name of a member.
def Outline.name : Outline → Reading String
  | string s => s.text
  | o => .error o.nameFault.whenKept

mutual
-- Any value, nested no deeper than the context allows.
def Outline.value (c : Context) : Outline → Reading Value
  | .null => .ok .null
  | .bool b => .ok (.bool b)
  | .number (some n) => .ok (.number n)
  | .number none => .error .malformed
  | .string s => s.text.map .string
  | .array items => do
    let c ← c.descend
    return .array (← items.values c)
  | .object members => do
    let c ← c.descend
    return .ofMembers (← members.values c)
  | .broken f => .error f.whenKept

def Items.values (c : Context) : Items → Reading (List Value)
  | .closed => .ok []
  | .broken f => .error f.whenKept
  | .cons item rest => do
    let v ← item.value c
    let vs ← rest.values c
    return v :: vs

def Members.values (c : Context) : Members → Reading (List (String × Value))
  | .closed => .ok []
  | .broken f => .error f.whenKept
  | .cons name value rest => do
    let k ← name.name
    let v ← value.value c
    let ms ← rest.values c
    return (k, v) :: ms
end

-- How a value of type `α` is read from its outline.  The outline is gone through from left to right, and the first
-- problem met is the answer: the text ends early, is malformed, or is well-formed so far but of another shape.
abbrev Shape (α : Type) := Context → Outline → Reading α

namespace Shape

def string : Shape String := fun _ o =>
  match o with
  | .string s => s.text
  | o => o.unexpected "a string"

def bool : Shape Bool := fun _ o =>
  match o with
  | .bool b => .ok b
  | o => o.unexpected "a boolean"

-- A natural number below `bound`, the limit of the type called `name`.
def natural (name : String) (bound : Nat) : Shape Nat := fun _ o =>
  match o with
  | .number (some (.whole i h)) =>
    if 0 ≤ i ∧ i < bound then .ok i.toNat
    else .error (.mismatch (.range (.number (.whole i h)) name))
  | o => o.unexpected name

def word16 : Shape Nat := natural "u16" (0x10000)
def word32 : Shape Nat := natural "u32" (0x100000000)
def word64 : Shape Nat := natural "u64" (0x10000000000000000)
def size : Shape Nat := natural "usize" (0x10000000000000000)

-- `null` stands for nothing.
def optional {α : Type} (shape : Shape α) : Shape (Option α) := fun c o =>
  match o with
  | .null => .ok none
  | o => (shape c o).map some

def value : Shape Value := fun c o => o.value c

-- An array of any length.
def list {α : Type} (shape : Shape α) : Shape (List α) := fun c o =>
  match o with
  | .array items => do
    let c ← c.descend
    go c items
  | o => o.unexpected "a sequence"
where
  go (c : Context) : Items → Reading (List α)
    | .closed => .ok []
    | .broken f => .error f.whenKept
    | .cons item rest => do
      let x ← shape c item
      let xs ← go c rest
      return x :: xs

-- One of some names, written as a string or as the only member of an object, with `null`.
def choice {α : Type} (known : List (String × α)) : Shape α := fun c o =>
  match o with
  | .string s => do pick (← s.text)
  | .object (.cons name value rest) => do
    let _ ← c.descend
    let x ← pick (← name.name)
    match value with
    | .null =>
      match rest with
      | .closed => .ok x
      | .broken f => .error f.whenKept
      | .cons _ _ _ => .error .malformed
    | value => value.unexpected "unit"
  | .object (.broken f) => do
    let _ ← c.descend
    .error f.whenKept
  | .broken f => .error f.whenChosen
  | _ => .error .malformed
where
  pick (name : String) : Reading α :=
    match known.lookup name with
    | some x => .ok x
    | none => .error (.mismatch (.unknownName name (known.map (·.1))))

end Shape

-- A member of a record of type `σ`: its name, whether it has to be there, and how it is read into
-- the record.
structure Field (σ : Type) where
  name : String
  required : Bool
  read : Shape (σ → σ)

def Field.of {σ α : Type} (name : String) (required : Bool) (shape : Shape α) (set : α → σ → σ) :
    Field σ where
  name := name
  required := required
  read := fun c o => (shape c o).map set

-- A record is written as an object, whose unknown members are passed over, or as an array of its
-- members in order.
structure Record (σ : Type) where
  name : String
  -- The record in which every member that may be missing is missing.
  blank : σ
  fields : List (Field σ)

namespace Record

variable {σ : Type} (r : Record σ)

def expectation : String :=
  s!"{r.name} with {r.fields.length} element" ++ (if r.fields.length = 1 then "" else "s")

-- The members of an object, of which those in `seen` have been read into `x`.
def readMembers (c : Context) (seen : List String) (x : σ) : Members → Reading σ
  | .closed =>
    match r.fields.find? fun f => f.required && !seen.contains f.name with
    | some f => .error (.mismatch (.missingMember f.name))
    | none => .ok x
  | .broken f => .error f.whenKept
  | .cons name value rest => do
    let name ← name.name
    match r.fields.find? fun f => f.name == name with
    | none =>
      value.skip
      readMembers c seen x rest
    | some f =>
      if seen.contains name then .error (.mismatch (.repeatedMember name))
      else
        let set ← f.read c value
        readMembers c (name :: seen) (set x) rest

-- The items of an array, of which `count` have been read into `x`; the given fields are left.
def readItems (c : Context) (count : Nat) (x : σ) : List (Field σ) → Items → Reading σ
  | [], .closed => .ok x
  | [], .broken f => .error f.whenKept
  | [], .cons _ rest => if c.loose then .ok x else .error (.extraItems (count + 1 + rest.length))
  | f :: fields, .closed =>
    if f.required then .error (.mismatch (.tooFewItems count r.expectation))
    else readItems c (count + 1) x fields .closed
  | _ :: _, .broken f => .error f.whenKept
  | f :: fields, .cons item rest => do
    let set ← f.read c item
    readItems c (count + 1) (set x) fields rest

def shape : Shape σ := fun c o =>
  match o with
  | .array items => do
    let c ← c.descend
    r.readItems c 0 r.blank r.fields items
  | .object members => do
    let c ← c.descend
    r.readMembers c [] r.blank members
  | o => o.unexpected r.name

end Record

-- Reads a whole text as something of a given shape.
def read {α : Type} (shape : Shape α) (cs : List Char) : Reading α := do
  let document := Document.ofChars cs
  let x ← shape .text document.root
  if document.rest then .error .malformed else .ok x

-- Reads a value that is already known as something of a given shape.
def readValueAs {α : Type} (shape : Shape α) (v : Value) : Reading α :=
  shape .text (.ofValue v)

end Parley.Json
