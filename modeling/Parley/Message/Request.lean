import Parley.Json.Decoding
import Parley.Text.Blank
import Parley.Text.Utf8

namespace Parley

namespace Request

inductive Kind where
  | chatMessage
  | joinRoom
  | leaveRoom
  | privateMessage
  | typing
  | ping
deriving DecidableEq, Repr

namespace Kind

def all : List Kind := [chatMessage, joinRoom, leaveRoom, privateMessage, typing, ping]

def name : Kind → String
  | chatMessage => "chat_message"
  | joinRoom => "join_room"
  | leaveRoom => "leave_room"
  | privateMessage => "private_message"
  | typing => "typing"
  | ping => "ping"

def ofName? (name : String) : Option Kind := all.find? (·.name == name)

theorem ofName?_name (k : Kind) : ofName? k.name = some k := by cases k <;> rfl

end Kind
end Request

-- Requests of a client, and the JSON form of them.  The kind of a request stays the text that the client wrote, so
-- that a kind nobody knows can still be answered.
structure Request where
  kind : String
  content : Option String
  room : Option String
  recipient : Option String
deriving DecidableEq, Repr

namespace Request

-- A request of a known kind, with nothing else in it.
def ofKind (k : Kind) : Request := ⟨k.name, none, none, none⟩

def kind? (r : Request) : Option Kind := Kind.ofName? r.kind

-- A member that is there and not empty.
def nonempty (s : Option String) : Option String := s.filter (· ≠ "")

def content? (r : Request) : Option String := nonempty r.content
def room? (r : Request) : Option String := nonempty r.room
def recipient? (r : Request) : Option String := nonempty r.recipient

open Json

-- The text of a request; what is missing is left out.
def chars (r : Request) : List Char :=
  objectText <|
    ("type", stringText r.kind) ::
      (optionalMember "content" (r.content.map stringText) ++
        optionalMember "room_id" (r.room.map stringText) ++
        optionalMember "recipient_username" (r.recipient.map stringText))

def text (r : Request) : String := String.ofList r.chars

def record : Record Request where
  name := "struct Envelope"
  blank := ⟨"", none, none, none⟩
  fields :=
    [ .of "type" true Shape.string fun x r => { r with kind := x },
      .of "content" false (Shape.optional Shape.string) fun x r => { r with content := x },
      .of "room_id" false (Shape.optional Shape.string) fun x r => { r with room := x },
      .of "recipient_username" false (Shape.optional Shape.string)
        fun x r => { r with recipient := x } ]

-- Why a frame holds no request.
inductive Unreadable where
  -- The text is not the JSON form of a request.
  | text (e : ReadError)
  -- The octets are no text.
  | octets (f : Text.Utf8.Fault)
deriving DecidableEq, Repr

def ofChars (cs : List Char) : Except Unreadable Request :=
  (Json.read record.shape cs).mapError .text

def ofText (s : String) : Except Unreadable Request := ofChars s.toList

def ofOctets (bs : List UInt8) : Except Unreadable Request :=
  match Text.Utf8.decode bs with
  | .ok cs => ofChars cs
  | .error f => .error (.octets f)

end Request
end Parley
