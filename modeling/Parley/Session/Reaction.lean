import Parley.Exchange
import Parley.Message.Request

namespace Parley.Session

-- A courier takes one command at a time to the desk of the exchange, after it has put an answer for the client
-- into the mailbox.  Whoever sent it goes on as soon as there is room for the command, or it turns out that the
-- exchange takes no more.
inductive Courier where
  -- There is nothing to deliver.
  | idle
  -- Still with an answer for the client, or with the writing end that it was offered through; then there may be a
  -- command to deliver.
  | answering (n : Option Notice) (next : Option Command)
  -- On the way to the desk.
  | carrying (c : Command)
  -- At the desk, until there is room for the errand of this number.
  | waiting (number : Nat)
deriving DecidableEq, Repr

-- A courier with a command to deliver, if there is one.
def Courier.bearing : Option Command → Courier
  | none => idle
  | some c => carrying c

-- What a client's request makes its session do: answer the client itself, leave a command for the exchange, or
-- both.
structure Reaction where
  -- A notice for the client alone, which does not pass through the exchange.
  reply : Option Notice
  command : Option Command
deriving DecidableEq, Repr

namespace Reaction

-- The mailbox of the session: for an answer, a writing end is asked for.
def lent (r : Reaction) (m : Mailbox) : Mailbox :=
  match r.reply with
  | some _ => m.lend
  | none => m

-- The courier that is sent; without a writing end for it, an answer is lost.
def courier (r : Reaction) (loan : Mailbox.Loan) : Courier :=
  match r.reply with
  | some n => if loan = .fresh then .answering (some n) r.command else .bearing r.command
  | none => .bearing r.command

def answer (n : Notice) : Reaction := ⟨some n, none⟩

def submit (c : Command) : Reaction := ⟨none, some c⟩

-- A complaint about a request.
def complain (stamp : Notice.Stamp) (message : String) : Reaction := answer (.error stamp message)

def invalidFormat : String := "Invalid message format"

-- Speaks in a room, or to everyone if there is none.
def chat (stamp : Notice.Stamp) (who : Identity) (r : Request) : Reaction :=
  match r.content? with
  | none => complain stamp "Message content is required"
  | some content =>
    let n := (Notice.about stamp .chatMessage who).withContent content
    match r.room? with
    | some room => submit (.post (.toRoom room (n.withRoom room)))
    | none => submit (.post (.toRoom "" n))

-- Speaks to one user; the speaker gets a copy.
def whisper (stamp : Notice.Stamp) (who : Identity) (r : Request) : Reaction :=
  match r.recipient?, r.content? with
  | some recipient, some content =>
    let n := ((Notice.about stamp .chatMessage who).withContent content).withRecipient recipient
    ⟨some n, some (.post (.toUser recipient n))⟩
  | _, _ => complain stamp "Recipient and content are required"

-- Enters or leaves a room.
def move (stamp : Notice.Stamp) (r : Request) (command : String → Command) : Reaction :=
  match r.room? with
  | some room => submit (command room)
  | none => complain stamp "Room ID is required"

-- Lets the others in a room know that the user types, or that all is said.
def type (stamp : Notice.Stamp) (who : Identity) (r : Request) : Reaction :=
  let n := Notice.typing stamp who r.room? (.ofContent r.content)
  submit (.post ((Post.toRoom (r.room?.getD "") n).excluding who.name))

def ofRequest (stamp : Notice.Stamp) (id : ConnectionId) (who : Identity) (r : Request) : Reaction :=
  match r.kind? with
  | none => complain stamp s!"Unknown message type: {r.kind}"
  | some .chatMessage => chat stamp who r
  | some .joinRoom => move stamp r (.join id)
  | some .leaveRoom => move stamp r (.leave id)
  | some .privateMessage => whisper stamp who r
  | some .typing => type stamp who r
  | some .ping => answer (.pong stamp who.name)

-- The reaction to what was read from a frame.
def ofPayload (stamp : Notice.Stamp) (id : ConnectionId) (who : Identity) :
    Except Request.Unreadable Request → Reaction
  | .ok r => ofRequest stamp id who r
  | .error _ => complain stamp invalidFormat

end Reaction
end Parley.Session
