import Parley.Message.Typing
import Parley.Message.User
import Parley.Time.Instant

namespace Parley

open Time (Instant)

namespace Notice

inductive Kind where
  | system
  | chatMessage
  | userConnected
  | userDisconnected
  | userJoined
  | userLeft
  | roomJoined
  | roomLeft
  | typing
  | onlineUsers
  | error
  | pong
deriving DecidableEq, Repr

namespace Kind

def all : List Kind :=
  [system, chatMessage, userConnected, userDisconnected, userJoined, userLeft, roomJoined, roomLeft,
    typing, onlineUsers, error, pong]

def name : Kind → String
  | system => "system"
  | chatMessage => "chat_message"
  | userConnected => "user_connected"
  | userDisconnected => "user_disconnected"
  | userJoined => "user_joined"
  | userLeft => "user_left"
  | roomJoined => "room_joined"
  | roomLeft => "room_left"
  | typing => "typing"
  | onlineUsers => "online_users"
  | error => "error"
  | pong => "pong"

def ofName? (name : String) : Option Kind := all.find? (·.name == name)

end Kind

-- What tells one notice from another: a name of its own, and when it was made.
structure Stamp where
  id : String
  time : Instant
deriving DecidableEq, Repr

end Notice

-- A notice that the server sends to a client.
structure Notice where
  id : String
  kind : Notice.Kind
  content : Option String
  user : Option UInt64
  username : String
  room : Option String
  recipient : Option String
  time : Instant
  data : Option Json.Value
deriving DecidableEq, Repr

namespace Notice

def new (stamp : Stamp) (kind : Kind) (username : String) : Notice :=
  ⟨stamp.id, kind, none, none, username, none, none, stamp.time, none⟩

def withContent (content : String) (n : Notice) : Notice := { n with content := some content }

def withUser (user : UInt64) (n : Notice) : Notice := { n with user := some user }

def withRoom (room : String) (n : Notice) : Notice := { n with room := some room }

def withRecipient (recipient : String) (n : Notice) : Notice := { n with recipient := some recipient }

def withData (data : Json.Value) (n : Notice) : Notice := { n with data := some data }

-- A notice about a user.
def about (stamp : Stamp) (kind : Kind) (who : Identity) : Notice :=
  (new stamp kind who.name).withUser who.user

-- A notice of the server itself.
def system (stamp : Stamp) (content : String) : Notice :=
  (new stamp .system systemName).withContent content

def error (stamp : Stamp) (content : String) : Notice :=
  (new stamp .error systemName).withContent content

def pong (stamp : Stamp) (username : String) : Notice := new stamp .pong username

-- The list of users, with its length.
def onlineUsers (stamp : Stamp) (users : List UserInfo) : Notice :=
  (new stamp .onlineUsers systemName).withData <|
    .ofMembers [("users", .array (users.map UserInfo.value)), ("count", .nat users.length)]

def typing (stamp : Stamp) (who : Identity) (room : Option String) (status : Typing) : Notice :=
  { (about stamp .typing who).withData (.ofMembers [("status", .string status.name)]) with
    room := room }

open Json

-- The text of a notice; what is missing is left out.
def chars (n : Notice) : List Char :=
  objectText <|
    [("id", stringText n.id), ("type", stringText n.kind.name)] ++
      optionalMember "content" (n.content.map stringText) ++
      optionalMember "user_id" (n.user.map fun u => wholeText u.toNat) ++
      [("username", stringText n.username)] ++
      optionalMember "room_id" (n.room.map stringText) ++
      optionalMember "recipient_username" (n.recipient.map stringText) ++
      [("timestamp", stringText n.time.text)] ++
      optionalMember "data" (n.data.map Value.chars)

def text (n : Notice) : String := String.ofList n.chars

-- A string that names an instant.
def timeShape : Shape Instant := fun _ o =>
  match o with
  | .string s => do
    let s ← s.text
    match Instant.read s.toList with
    | some t => .ok t
    | none => .error (.mismatch .format)
  | o => o.unexpected "an RFC 3339 formatted date and time string"

def record : Record Notice where
  name := "struct Notification"
  blank := new ⟨"", .epoch⟩ .system ""
  fields :=
    [ .of "id" true Shape.string fun x n => { n with id := x },
      .of "type" true (Shape.choice (Kind.all.map fun k => (k.name, k)))
        fun x n => { n with kind := x },
      .of "content" false (Shape.optional Shape.string) fun x n => { n with content := x },
      .of "user_id" false (Shape.optional Shape.word64)
        fun x n => { n with user := x.map Nat.toUInt64 },
      .of "username" true Shape.string fun x n => { n with username := x },
      .of "room_id" false (Shape.optional Shape.string) fun x n => { n with room := x },
      .of "recipient_username" false (Shape.optional Shape.string)
        fun x n => { n with recipient := x },
      .of "timestamp" true timeShape fun x n => { n with time := x },
      .of "data" false (Shape.optional Shape.value) fun x n => { n with data := x } ]

def ofText (s : String) : Reading Notice := Json.read record.shape s.toList

end Notice
end Parley
