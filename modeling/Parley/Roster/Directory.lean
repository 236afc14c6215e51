import Parley.Connection.Id
import Parley.Message.User

namespace Parley

-- Who has a name: a connection, and the user behind it.
structure Owner where
  connection : ConnectionId
  user : UInt64
deriving DecidableEq, Repr

structure Directory where
  owners : Std.ExtTreeMap String Owner

namespace Directory

def empty : Directory := ⟨∅⟩

def count (d : Directory) : Nat := d.owners.size

def owner? (d : Directory) (name : String) : Option Owner := d.owners[name]?

def lookup (d : Directory) (name : String) : Option ConnectionId := (d.owner? name).map (·.connection)

-- Gives a name to a connection, whoever had it before.
def claim (d : Directory) (name : String) (owner : Owner) : Directory :=
  ⟨d.owners.insert name owner⟩

-- A connection gives up a name, if it has it.
def release (d : Directory) (name : String) (id : ConnectionId) : Directory :=
  if d.lookup name = some id then ⟨d.owners.erase name⟩ else d

-- All users in the order of their names.
def users (d : Directory) : List UserInfo :=
  d.owners.toList.map fun (name, owner) => .online ⟨owner.user, name⟩

end Directory
end Parley
