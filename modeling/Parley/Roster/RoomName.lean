import Parley.Text.Blank

namespace Parley.RoomName

-- The most octets that the name of a room may have.
def sizeLimit : Nat := 256

inductive Fault where
  | empty
  | tooLong
  | control
deriving DecidableEq, Repr

def Fault.message : Fault → String
  | empty => "Room id cannot be empty"
  | tooLong => "Room id too long"
  | control => "Room id contains invalid characters"

-- The first fault of a name, if it has one.
def fault? (name : String) : Option Fault :=
  if name = "" then some .empty
  else if sizeLimit < name.utf8ByteSize then some .tooLong
  else if name.toList.any (Text.IsControl ·) then some .control
  else none

end Parley.RoomName
