import Std.Data.ExtTreeSet
import Parley.Connection.Id
import Parley.Roster.Directory

namespace Parley

-- A room and the connections in it.
structure Room where
  name : String
  members : Std.ExtTreeSet ConnectionId

namespace Room

def new (name : String) : Room := ⟨name, ∅⟩

def join (r : Room) (id : ConnectionId) : Room := { r with members := r.members.insert id }

def leave (r : Room) (id : ConnectionId) : Room := { r with members := r.members.erase id }

def ids (r : Room) : List ConnectionId := r.members.toList

def count (r : Room) : Nat := r.members.size

end Room

-- What the roster knows of a live connection.
structure Entry where
  identity : Identity
  -- The mailbox that notices for the connection go to.
  mailbox : Nat
  rooms : Std.ExtTreeSet String

-- The roster: the live connections, the directory of their names, and the rooms they are in.  Membership is kept
-- on both sides, with the connection and with the room, and a room without members is none.
structure Roster where
  entries : Std.ExtTreeMap ConnectionId Entry
  directory : Directory
  rooms : Std.ExtTreeMap String Room

namespace Roster

def empty : Roster := ⟨∅, .empty, ∅⟩

def count (r : Roster) : Nat := r.entries.size

def roomCount (r : Roster) : Nat := r.rooms.size

def entry? (r : Roster) (id : ConnectionId) : Option Entry := r.entries[id]?

def IsLive (r : Roster) (id : ConnectionId) : Prop := id ∈ r.entries

instance (r : Roster) (id : ConnectionId) : Decidable (r.IsLive id) := by
  unfold IsLive; infer_instance

def ids (r : Roster) : List ConnectionId := r.entries.keys

def lookup (r : Roster) (name : String) : Option ConnectionId := r.directory.lookup name

def room? (r : Roster) (room : String) : Option Room := r.rooms[room]?

-- The members of a room; none if there is no such room.
def memberIds (r : Roster) (room : String) : List ConnectionId :=
  ((r.room? room).map Room.ids).getD []

-- A new connection, which is in no room yet.
def insert (r : Roster) (id : ConnectionId) (identity : Identity) (mailbox : Nat) : Roster :=
  { r with
    entries := r.entries.insert id ⟨identity, mailbox, ∅⟩
    directory := r.directory.claim identity.name ⟨id, identity.user⟩ }

-- A room without the given member; a room left empty goes away.
def expel (rooms : Std.ExtTreeMap String Room) (room : String) (id : ConnectionId) :
    Std.ExtTreeMap String Room :=
  rooms.alter room fun
    | none => none
    | some r =>
      let r := r.leave id
      if r.count = 0 then none else some r

-- The connection goes away, with its name and its places in rooms.
def remove (r : Roster) (id : ConnectionId) : Roster :=
  match r.entry? id with
  | none => r
  | some e =>
    { entries := r.entries.erase id
      directory := r.directory.release e.identity.name id
      rooms := e.rooms.toList.foldl (fun rooms room => expel rooms room id) r.rooms }

theorem count_remove_lt {r : Roster} {id : ConnectionId} (h : r.IsLive id) :
    (r.remove id).count < r.count := by
  have hm : id ∈ r.entries := h
  have hs : r.entry? id = some r.entries[id] := Std.ExtTreeMap.getElem?_eq_some_getElem hm
  have hc : r.entries.contains id = true := hm
  have : 0 < r.entries.size := Nat.pos_of_ne_zero fun h0 => by
    rw [Std.ExtTreeMap.eq_empty_iff_size_eq_zero.2 h0] at hm
    exact Std.ExtTreeMap.not_mem_empty hm
  simp only [remove, hs, count, Std.ExtTreeMap.size_erase, hc, if_true]
  omega

inductive JoinOutcome where
  | joined
  | alreadyMember
  | unknownConnection
deriving DecidableEq, Repr

inductive LeaveOutcome where
  | left (remaining : Nat)
  | notMember
  | unknownConnection
deriving DecidableEq, Repr

def setRooms (r : Roster) (id : ConnectionId) (e : Entry) (rooms : Std.ExtTreeSet String) : Roster :=
  { r with entries := r.entries.insert id { e with rooms } }

def join (r : Roster) (id : ConnectionId) (room : String) : JoinOutcome × Roster :=
  match r.entry? id with
  | none => (.unknownConnection, r)
  | some e =>
    if room ∈ e.rooms then (.alreadyMember, r)
    else
      (.joined,
        { r.setRooms id e (e.rooms.insert room) with
          rooms := r.rooms.alter room fun old => some ((old.getD (.new room)).join id) })

def leave (r : Roster) (id : ConnectionId) (room : String) : LeaveOutcome × Roster :=
  match r.entry? id with
  | none => (.unknownConnection, r)
  | some e =>
    if room ∉ e.rooms then (.notMember, r)
    else
      let rooms := expel r.rooms room id
      (.left ((rooms[room]?.map Room.count).getD 0),
        { r.setRooms id e (e.rooms.erase room) with rooms })

-- The names of the members of a room, in ascending order.
def roomMembers (r : Roster) (room : String) : Option (List String) :=
  (r.room? room).map fun m =>
    (m.ids.filterMap fun id => (r.entry? id).map (·.identity.name)).mergeSort

-- The rooms that a connection is in, in ascending order.
def connectionRooms (r : Roster) (id : ConnectionId) : Option (List String) :=
  (r.entry? id).map fun e => e.rooms.toList

def onlineUsers (r : Roster) : List UserInfo := r.directory.users

end Roster
end Parley
