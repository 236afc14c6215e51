import Parley.Json.Decoding

namespace Parley

-- An identity that was established before the connection came.
structure Identity where
  user : UInt64
  name : String
deriving DecidableEq, Repr

-- The name of the server among the users; no user may have it.
def systemName : String := "system"

-- A line of the list of users.
structure UserInfo where
  id : UInt64
  name : String
  status : String
deriving DecidableEq, Repr

namespace UserInfo

open Json

def online (who : Identity) : UserInfo := ⟨who.user, who.name, "online"⟩

def identity (u : UserInfo) : Identity := ⟨u.id, u.name⟩

def chars (u : UserInfo) : List Char :=
  objectText
    [ ("id", wholeText u.id.toNat),
      ("username", stringText u.name),
      ("status", stringText u.status) ]

def text (u : UserInfo) : String := String.ofList u.chars

def value (u : UserInfo) : Value :=
  .ofMembers
    [ ("id", .nat u.id.toNat), ("username", .string u.name), ("status", .string u.status) ]

def record : Record UserInfo where
  name := "struct UserInfo"
  blank := ⟨0, "", ""⟩
  fields :=
    [ .of "id" true Shape.word64 fun x u => { u with id := x.toUInt64 },
      .of "username" true Shape.string fun x u => { u with name := x },
      .of "status" true Shape.string fun x u => { u with status := x } ]

def ofText (s : String) : Reading UserInfo := Json.read record.shape s.toList

end UserInfo
end Parley
