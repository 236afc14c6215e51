import Parley.Connection.Id
import Parley.Exchange.Mailbox
import Parley.Exchange.Post
import Parley.Exchange.Supply
import Parley.Roster
import Parley.Roster.RoomName

namespace Parley

-- The exchange: it owns the roster and delivers notices to mailboxes.  Commands are handled one after the other.
-- Delivery never waits: whoever has a full or abandoned mailbox is doomed, and is evicted at the end of the
-- command, which may doom others in turn.
structure Exchange where
  roster : Roster
  mailboxes : Std.ExtTreeMap Nat Mailbox
  -- The connections that are to be evicted, first come, first served.
  doomed : List ConnectionId
  -- The number of notices that were put into a mailbox.  This and the next number are counted without a bound; a
  -- machine would need centuries to get beyond 64 bits.
  deliveries : Nat
  -- The number of connections that were evicted.
  evictions : Nat
  supply : Supply

-- What is needed to admit a connection.
structure Registration where
  id : ConnectionId
  identity : Identity
  mailbox : Nat
deriving DecidableEq, Repr

-- Questions that change nothing.
inductive Query where
  | onlineUsers
  | roomMembers (room : String)
  | connectionRooms (id : ConnectionId)
  | stats
deriving DecidableEq, Repr

structure Stats where
  connections : Nat
  rooms : Nat
  deliveries : Nat
  evictions : Nat
deriving DecidableEq, Repr

inductive Answer where
  | users (us : List UserInfo)
  | names (ns : Option (List String))
  | stats (s : Stats)
deriving DecidableEq, Repr

inductive Command where
  | register (r : Registration)
  | unregister (id : ConnectionId)
  | post (p : Post)
  | join (id : ConnectionId) (room : String)
  | leave (id : ConnectionId) (room : String)
  | query (q : Query)
deriving DecidableEq, Repr

namespace Exchange

def empty : Exchange := ⟨.empty, ∅, [], 0, 0, .start⟩

-- The mailbox of a live connection, with its number.
def mailbox? (x : Exchange) (id : ConnectionId) : Option (Nat × Mailbox) := do
  let e ← x.roster.entry? id
  let m ← x.mailboxes[e.mailbox]?
  return (e.mailbox, m)

def changeMailbox (x : Exchange) (number : Nat) (f : Mailbox → Mailbox) : Exchange :=
  { x with mailboxes := x.mailboxes.modify number f }

-- A new mailbox under a number that no other mailbox has.
def openMailbox (x : Exchange) (number capacity : Nat) : Exchange :=
  { x with mailboxes := x.mailboxes.insert number (.new capacity) }

-- Makes a notice with a stamp of its own.
def issue (x : Exchange) (make : Notice.Stamp → Notice) : Notice × Exchange :=
  (make x.supply.stamp, { x with supply := x.supply.next })

-- Offers a notice to a connection: it goes into the mailbox if there is room, and otherwise the
-- connection is doomed.
def offer (n : Notice) (x : Exchange) (id : ConnectionId) : Exchange :=
  match x.roster.entry? id with
  | none => x
  | some e =>
    if (x.mailboxes[e.mailbox]?.map fun m => m.pipe.outcome) = some .accepted then
      { x.changeMailbox e.mailbox (·.put n) with deliveries := x.deliveries + 1 }
    else { x with doomed := x.doomed ++ [id] }

def offerAll (n : Notice) (ids : List ConnectionId) (x : Exchange) : Exchange :=
  ids.foldl (offer n) x

-- Offers a new notice to one connection.
def tell (id : ConnectionId) (make : Notice.Stamp → Notice) (x : Exchange) : Exchange :=
  let (n, x) := x.issue make
  x.offer n id

-- The connections of an audience; none if there is no such room or no such user.
def audience? (x : Exchange) : Audience → Option (List ConnectionId)
  | .everyone => some x.roster.ids
  | .room r => (x.roster.room? r).map Room.ids
  | .user name => (x.roster.lookup name).map ([·])

-- The connection that a post leaves out.
def excepted? (x : Exchange) (p : Post) : Option ConnectionId := p.except.bind x.roster.lookup

def offlineMessage (name : String) : String := s!"User '{name}' is not online"

-- Offers a notice to its audience.  If it is for a user who is not online, the user in whose name it
-- is sent is told so.
def post (l : Listing) (p : Post) (x : Exchange) : Exchange :=
  match x.audience? p.effectiveAudience, p.effectiveAudience with
  | some ids, _ =>
    -- Nobody is evicted on the way, so the audience stays as it was at the beginning.
    x.offerAll p.notice ((l.arrange x.supply.issued ids).filter (some · ≠ x.excepted? p))
  | none, .user name =>
    match x.roster.lookup p.notice.username with
    | some origin =>
      x.tell origin fun s => (Notice.error s (offlineMessage name)).withRecipient name
    | none => x
  | none, _ => x

-- Posts a new notice about a user to an audience, the user excepted.
def announce (l : Listing) (who : Identity) (audience : Audience) (except : Bool)
    (make : Notice.Stamp → Notice) (x : Exchange) : Exchange :=
  let (n, x) := x.issue make
  x.post l ⟨n, audience, if except then some who.name else none⟩

-- Lets go of a connection: it is told to stop, and its mailbox takes nothing more.
def retire (id : ConnectionId) (e : Entry) (x : Exchange) : Exchange :=
  { x.changeMailbox e.mailbox fun m => (m.cancel x.supply.now).release with
    roster := x.roster.remove id }

-- Removes a connection, and tells the others.
def unregister (l : Listing) (id : ConnectionId) (x : Exchange) : Exchange :=
  match x.roster.entry? id with
  | none => x
  | some e =>
    (x.retire id e).announce l e.identity .everyone true fun s =>
      (Notice.about s .userDisconnected e.identity).withContent s!"{e.identity.name} disconnected"

-- Whoever has the name of a new connection has to go.
def displace (l : Listing) (name : String) (x : Exchange) : Exchange :=
  match x.roster.lookup name with
  | some old => x.unregister l old
  | none => x

-- Enters a connection into the roster.  An entry of the same id gives way, and its mailbox takes nothing
-- more.
def enter (r : Registration) (x : Exchange) : Exchange :=
  let x := match x.roster.entry? r.id with
    | some e => x.changeMailbox e.mailbox Mailbox.release
    | none => x
  { x with roster := x.roster.insert r.id r.identity r.mailbox }

-- Admits a connection: it is welcomed and gets the list of users, and the others are told.
def register (l : Listing) (r : Registration) (x : Exchange) : Exchange :=
  -- The name is free before it is given away, so that whoever had it is told nothing of the newcomer.
  let x := (x.displace l r.identity.name).enter r
  let x := x.tell r.id fun s => Notice.system s s!"Welcome to the chat, {r.identity.name}!"
  let x := x.tell r.id fun s => Notice.onlineUsers s x.roster.onlineUsers
  x.announce l r.identity .everyone true fun s =>
    (Notice.about s .userConnected r.identity).withContent s!"{r.identity.name} connected"

def join (l : Listing) (id : ConnectionId) (room : String) (x : Exchange) : Exchange :=
  match x.roster.entry? id with
  | none => x
  | some e =>
    match RoomName.fault? room with
    | some f => x.tell id fun s => Notice.error s f.message
    | none =>
      let (outcome, roster) := x.roster.join id room
      let x := { x with roster }.tell id fun s =>
        ((Notice.about s .roomJoined e.identity).withRoom room).withContent s!"You joined room {room}"
      match outcome with
      | .joined =>
        x.announce l e.identity (.room room) true fun s =>
          ((Notice.about s .userJoined e.identity).withRoom room).withContent
            s!"{e.identity.name} joined the room"
      | _ => x

def leave (l : Listing) (id : ConnectionId) (room : String) (x : Exchange) : Exchange :=
  match x.roster.entry? id with
  | none => x
  | some e =>
    match x.roster.leave id room with
    | (.left remaining, roster) =>
      let x := { x with roster }.tell id fun s =>
        ((Notice.about s .roomLeft e.identity).withRoom room).withContent s!"You left room {room}"
      if 0 < remaining then
        x.announce l e.identity (.room room) false fun s =>
          ((Notice.about s .userLeft e.identity).withRoom room).withContent
            s!"{e.identity.name} left the room"
      else x
    | (.notMember, _) => x.tell id fun s => Notice.error s s!"You are not in room {room}"
    | (.unknownConnection, _) => x

theorem offer_roster (n : Notice) (x : Exchange) (id : ConnectionId) :
    (x.offer n id).roster = x.roster := by
  unfold offer; repeat' split
  all_goals rfl

theorem offerAll_roster (n : Notice) (ids : List ConnectionId) (x : Exchange) :
    (x.offerAll n ids).roster = x.roster := by
  induction ids generalizing x with
  | nil => rfl
  | cons id ids ih => exact (ih (x.offer n id)).trans (offer_roster n x id)

theorem post_roster (l : Listing) (p : Post) (x : Exchange) : (x.post l p).roster = x.roster := by
  unfold post
  split
  · exact offerAll_roster ..
  · split
    · exact offer_roster ..
    · rfl
  · rfl

theorem announce_roster (l : Listing) (who : Identity) (audience : Audience) (except : Bool)
    (make : Notice.Stamp → Notice) (x : Exchange) :
    (x.announce l who audience except make).roster = x.roster :=
  post_roster ..

theorem unregister_roster (l : Listing) (id : ConnectionId) (x : Exchange) :
    (x.unregister l id).roster = x.roster.remove id := by
  unfold unregister
  split
  next h => simp [Roster.remove, h]
  next h => rw [announce_roster]; rfl

-- Evicts the doomed, one after the other, and those who are doomed meanwhile.
def settle (l : Listing) (x : Exchange) : Exchange :=
  match _h : x.doomed with
  | [] => x
  | id :: doomed =>
    if _live : x.roster.IsLive id then
      settle l ({ x with doomed, evictions := x.evictions + 1 }.unregister l id)
    else settle l { x with doomed }
termination_by (x.roster.count, x.doomed.length)
decreasing_by
  · refine Prod.Lex.left _ _ ?_
    rw [unregister_roster]
    exact Roster.count_remove_lt _live
  · refine Prod.Lex.right _ ?_
    simp [_h]

def stats (x : Exchange) : Stats :=
  ⟨x.roster.count, x.roster.roomCount, x.deliveries, x.evictions⟩

def answer (x : Exchange) : Query → Answer
  | .onlineUsers => .users x.roster.onlineUsers
  | .roomMembers room => .names (x.roster.roomMembers room)
  | .connectionRooms id => .names (x.roster.connectionRooms id)
  | .stats => .stats x.stats

-- What a command does before anyone is evicted for it.
def perform (l : Listing) (c : Command) (x : Exchange) : Exchange :=
  match c with
  | .register r => x.register l r
  | .unregister id => x.unregister l id
  | .post p => x.post l p
  | .join id room => x.join l id room
  | .leave id room => x.leave l id room
  | .query _ => x

def handle (l : Listing) (c : Command) (x : Exchange) : Exchange := (x.perform l c).settle l

-- Lets go of every connection at once; nobody is told about the others.
def dismiss (x : Exchange) : Exchange :=
  { x with
    roster := .empty
    mailboxes := x.roster.entries.toList.foldl
      (fun boxes (_, e) => boxes.modify e.mailbox fun m => (m.cancel x.supply.now).release) x.mailboxes
    doomed := [] }

-- The end: whoever is there gets a last notice, if there is room for it.
def closeAll (l : Listing) (message : String) (x : Exchange) : Exchange :=
  if x.roster.count = 0 then x.dismiss
  else
    let (n, x) := x.issue fun s => Notice.system s message
    (x.post l (.toEveryone n)).dismiss

-- Nobody will see to a command: whoever was to be registered by it lets go of the mailbox.
def forgo (x : Exchange) (c : Command) : Exchange :=
  match c with
  | .register r => x.changeMailbox r.mailbox Mailbox.release
  | _ => x

def forgoAll (cs : List Command) (x : Exchange) : Exchange :=
  cs.foldl forgo x

end Exchange
end Parley
