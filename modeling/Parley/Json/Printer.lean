import Parley.Decimal.Layout
import Parley.Json.Value
import Parley.Text.Digits

namespace Parley.Json

-- Doubles have at least one digit after the point; below `1e-5` and from `1e16` on they are
-- written with an exponent.
def doubleLayout : Decimal.Layout where
  positional := some (-5, 15)
  point := true

-- The characters of a string that have an escape of two characters.
def shortEscape? (c : Char) : Option Char :=
  match c with
  | '"' => some '"'
  | '\\' => some '\\'
  | '\x08' => some 'b'
  | '\x0c' => some 'f'
  | '\n' => some 'n'
  | '\r' => some 'r'
  | '\t' => some 't'
  | _ => none

-- Quotes, backslashes and the controls below U+0020 are escaped, and nothing else is.
def escape (c : Char) : List Char :=
  match shortEscape? c with
  | some e => ['\\', e]
  | none => if c.toNat < 0x20 then ['\\', 'u'] ++ Text.hexPadded 4 c.toNat else [c]

def stringText (s : String) : List Char :=
  '"' :: s.toList.flatMap escape ++ ['"']

def wholeText (i : Int) : List Char :=
  if i < 0 then '-' :: Text.decimal i.natAbs else Text.decimal i.natAbs

-- Numbers that are neither whole nor finite have no text of their own and read as `null`.
def Number.text : Number → List Char
  | .whole i _ => wholeText i
  | .double x => if x.IsFinite then doubleLayout.text x else "null".toList

-- Parts one after the other, with commas between them.
def commaSeparated : List (List Char) → List Char
  | [] => []
  | [t] => t
  | t :: ts => t ++ ',' :: commaSeparated ts

namespace Value

mutual
-- The text of a JSON value: no blanks, members in their order, and in strings an escape only where one is needed.
def chars : Value → List Char
  | null => "null".toList
  | bool true => "true".toList
  | bool false => "false".toList
  | number n => n.text
  | string s => stringText s
  | array items => '[' :: commaSeparated (itemTexts items) ++ [']']
  | object members => '\x7b' :: commaSeparated (memberTexts members) ++ ['\x7d']

def itemTexts : List Value → List (List Char)
  | [] => []
  | v :: vs => chars v :: itemTexts vs

def memberTexts : List (String × Value) → List (List Char)
  | [] => []
  | (k, v) :: ms => (stringText k ++ ':' :: chars v) :: memberTexts ms
end

def text (v : Value) : String := String.ofList v.chars

end Value

-- A member that is written only if it has a value.
def optionalMember (name : String) (text : Option (List Char)) : List (String × List Char) :=
  (text.map fun t => (name, t)).toList

-- The text of an object, from the names of its members and their texts.
def objectText (members : List (String × List Char)) : List Char :=
  '\x7b' :: commaSeparated (members.map fun (k, t) => stringText k ++ ':' :: t) ++ ['\x7d']

end Parley.Json
