import Parley.Session

namespace Parley

-- The service: the desk of the exchange, the sessions that go on side by side, and a clock.  Its events are the
-- smallest steps that any of them can take; in which order they happen is nowhere laid down.
structure Service where
  desk : Desk
  -- Every session there ever was, in the order in which they began.
  sessions : List Session
  -- The number of mailboxes that were opened.
  mailboxes : Nat
  -- Someone other than the sessions may still leave commands.
  attended : Bool
  -- Replies to visitors that were not collected yet.
  replies : List (Nat × Reply)

namespace Service

def new (farewell : String) (capacity : Nat := Desk.defaultCapacity) : Service :=
  ⟨.new farewell capacity, [], 0, true, []⟩

def now (s : Service) : Nat := s.desk.exchange.supply.now

def mailbox (s : Service) (number : Nat) : Mailbox :=
  (s.desk.exchange.mailboxes[number]?).getD (.new 0)

def changeExchange (s : Service) (f : Exchange → Exchange) : Service :=
  { s with desk := { s.desk with exchange := f s.desk.exchange } }

def changeMailbox (s : Service) (number : Nat) (f : Mailbox → Mailbox) : Service :=
  s.changeExchange (·.changeMailbox number f)

def setSession (s : Service) (i : Nat) (c : Session) : Service :=
  { s with sessions := s.sessions.set i c }

-- Opens a mailbox and gives its number.
def openMailbox (s : Service) (capacity : Nat) : Nat × Service :=
  (s.mailboxes,
    { s.changeExchange (·.openMailbox s.mailboxes capacity) with mailboxes := s.mailboxes + 1 })

-- Comes to the desk with a command.
def submit (s : Service) (e : Errand) : Except Refusal Service :=
  (s.desk.submit e).map fun desk => { s with desk }

-- Nobody will admit the session: its mailbox takes nothing more.
def refuseSession (s : Service) (i : Nat) (c : Session) (r : Refusal) : Service :=
  (s.changeMailbox c.mailbox Mailbox.release).setSession i (c.refuse r)

-- Begins a session, which asks the exchange to admit it if it can have its mailbox.
def connect (s : Service) (id : ConnectionId) (identity : Identity) (limits : Session.Limits)
    (link : Session.Link) : Service :=
  let (number, s) := s.openMailbox limits.outboundCapacity
  let i := s.sessions.length
  let c := Session.new id identity limits number link
  let s := { s with sessions := s.sessions ++ [c] }
  if ¬ Mailbox.Allows limits.outboundCapacity then s.setSession i c.break_
  else
    match s.submit ⟨.register ⟨id, identity, number⟩, some (.session i)⟩ with
    | .ok s => s
    | .error r => s.refuseSession i c r

-- What the courier of the session with a mailbox comes to next: it gets on, or is turned away; none if it has to wait.
def forward (s : Service) (number : Nat) (k : Session.Courier) :
    Option (Except Refusal Session.Courier × Service) :=
  match k with
  | .idle => none
  | .answering (some n) next => some (.ok (.answering none next), s.changeMailbox number (·.reply n))
  | .answering none next => some (.ok (.bearing next), s.changeMailbox number Mailbox.giveBack)
  | .carrying c =>
    match s.submit ⟨c, none⟩ with
    | .ok t => some (.ok (.waiting s.desk.number), t)
    | .error r => some (.error r, s)
  | .waiting n =>
    if s.desk.HasRoom n then some (.ok .idle, s)
    else if s.desk.stopped then some (.error .closed, s)
    else none

-- The writer has stopped, and tells the reader to stop as well.
def writerDone (s : Service) (i : Nat) (c : Session) : Service :=
  (s.changeMailbox c.mailbox (·.cancel s.now)).setSession i c.writerDone

-- The writer is over, and nobody reads the mailbox any more.
def writerOver (s : Service) (i : Nat) (c : Session) : Service :=
  (s.changeMailbox c.mailbox Mailbox.abandon).setSession i
    { c with writer := { c.writer with phase := .done } }

def takeNotice (m : Mailbox) : Mailbox := { m with pipe := m.pipe.receive.2 }

-- The writer takes a frame in hand; if that is a notice, it leaves the mailbox.
def takeFrame (s : Service) (i : Nat) (c : Session) (f : Frame) : Service :=
  let s := s.setSession i { c with writer := c.writer.take c.limits s.now f }
  match f with
  | .text _ => s.changeMailbox c.mailbox takeNotice
  | _ => s

-- One step of the writer; none if it has to wait.
def stepWriter (s : Service) (i : Nat) : Option Service := do
  let c ← s.sessions[i]?
  let m := s.mailbox c.mailbox
  match c.writer.phase with
  | .choosing =>
    match c.writer.choose c.limits s.now m with
    | .giveUp => some (s.setSession i { c with writer := { c.writer with phase := .closing s.now } })
    | .frame f => some (s.takeFrame i c f)
    | .wait =>
      some (s.setSession i { c with writer := { c.writer with phase := .waiting (m.cancelledAt = none) } })
  | .waiting probing =>
    match c.writer.await c.limits s.now m probing with
    | .giveUp => some (s.setSession i { c with writer := { c.writer with phase := .closing s.now } })
    | .frame f => some (s.takeFrame i c f)
    | .wait => none
  | .sending f asked =>
    -- A frame that has begun to wait goes out as soon as there is room, even if later writes would fail.
    let w ← c.writer.sent? c.limits s.now m f asked (c.link.outcome asked)
    some (s.setSession i { c with writer := w, link := c.link.write f asked })
  | .closing since =>
    if c.link.closeHangs ∧ ¬ Session.Writer.IsStuck c.limits since s.now then none
    else some (s.writerDone i c)
  | .leaving .idle => some (s.writerOver i c)
  | .leaving k =>
    let (news, s) ← s.forward c.mailbox k
    let k := match news with
      | .ok k => k
      | .error _ => .idle
    some (s.setSession i { c with writer := { c.writer with phase := .leaving k } })
  | .done => none

-- The reader has stopped.
def readerDone (s : Service) (i : Nat) (c : Session) : Service := s.setSession i c.readerDone

-- Sees to what a request asks for: with an answer, a writing end is asked for, and the courier leaves.
def react (s : Service) (i : Nat) (c : Session) (r : Session.Reaction) : Service :=
  let k := r.courier (r.lent (s.mailbox c.mailbox)).loan
  let s := (s.changeExchange fun x => { x with supply := x.supply.next }).changeMailbox c.mailbox r.lent
  s.setSession i { c with reader := { c.reader with courier := k } }

def stamp (s : Service) : Notice.Stamp := s.desk.exchange.supply.stamp

-- The courier of the reader of session `i` gets on; the reader stops if the exchange takes no more commands.
def stepCourier (s : Service) (i : Nat) : Option Service := do
  let c ← s.sessions[i]?
  let (news, s) ← s.forward c.mailbox c.reader.courier
  let k := match news with
    | .ok k => k
    | .error _ => .idle
  let c := { c with reader := { c.reader with courier := k } }
  match news with
  | .error _ => if c.reader.running then some (s.readerDone i c) else some (s.setSession i c)
  | .ok _ => some (s.setSession i c)

-- The reader of session `i` notices that the session was told to stop.
def stepCancelled (s : Service) (i : Nat) : Option Service := do
  let c ← s.sessions[i]?
  if c.reader.IsListening ∧ (s.mailbox c.mailbox).cancelledAt.isSome then some (s.readerDone i c)
  else none

-- The reader takes what the transport has for it.
def stepRead (s : Service) (i : Nat) : Option Service := do
  let c ← s.sessions[i]?
  if ¬ c.reader.IsListening then none
  else
    match c.link.read with
    | (.frame f, link) =>
      let c := { c with link, reader := c.reader.after c.limits s.now f }
      let s := s.setSession i c
      match Session.Reader.judge c.limits f with
      | .payload p => some (s.react i c (.ofPayload s.stamp c.id c.identity p))
      | .stop => some (s.readerDone i c)
      | .alive | .ignore => some (s.setSession i { c with link := link.goOn f })
    | (.ended, _) | (.failed, _) => some (s.readerDone i c)
    | (.nothing, _) => none

-- The client has been silent for too long.
def stepOverdue (s : Service) (i : Nat) : Option Service := do
  let c ← s.sessions[i]?
  if c.reader.IsListening ∧ c.link.read.1 = .nothing ∧ c.reader.IsOverdue s.now then
    some (s.readerDone i c)
  else none

-- A session learns that it was admitted, and begins.
def stepServe (s : Service) (i : Nat) : Option Service := do
  let c ← s.sessions[i]?
  if c.stage = .admitted then some (s.setSession i (c.serve s.now)) else none

-- A session that was turned away sends a close frame, closes the transport, and is over.
def stepRefusing (s : Service) (i : Nat) : Option Service := do
  let c ← s.sessions[i]?
  match c.stage with
  | .refusing r asked =>
    if c.link.outcome asked = .pending then
      if asked then none else some (s.setSession i { c with stage := .refusing r true })
    else some (s.setSession i { c with stage := .leaving r, link := c.link.write .close asked })
  | .leaving r =>
    if c.link.closeHangs then none
    else some ((s.changeMailbox c.mailbox Mailbox.abandon).setSession i (c.finish (some r)))
  | _ => none

-- A session is over once its reader has seen to the removal of the connection and its writer is over, too.
def stepFinish (s : Service) (i : Nat) : Option Service := do
  let c ← s.sessions[i]?
  if c.stage = .draining ∧ c.reader.courier = .idle ∧ c.writer.phase = .done then
    some (s.setSession i (c.finish none))
  else none

-- Whether anyone may still leave commands.
def IsAttended (s : Service) : Prop := s.attended ∨ ∃ c ∈ s.sessions, ¬ c.IsFinished

instance (s : Service) : Decidable s.IsAttended := by unfold IsAttended; infer_instance

-- Hands a reply to the one who waits for it.
def handOver (s : Service) (r : Caller × Reply) : Service :=
  match r with
  | (.visitor t, reply) => { s with replies := s.replies ++ [(t, reply)] }
  | (.session i, reply) =>
    match s.sessions[i]? with
    | none => s
    | some c =>
      match reply with
      | .refused r => s.refuseSession i c r
      | _ => s.setSession i c.welcome

-- The exchange handles a command, or ends.
def stepDesk (l : Listing) (s : Service) : Option Service :=
  (s.desk.step l s.IsAttended).map fun (replies, desk) => replies.foldl handOver { s with desk }

-- Tells the exchange to shut down, and every session with it.
def shutdown (s : Service) : Service :=
  let now := s.now
  let s := { s with desk := s.desk.shutdown }
  s.sessions.foldl (fun s c => s.changeMailbox c.mailbox (·.cancel now)) s

-- Lets time pass up to a point.
def passTo (s : Service) (time : Nat) : Service :=
  s.changeExchange fun x => { x with supply := { x.supply with now := max x.supply.now time } }

-- The instants at which a timer is set.
def timers (s : Service) : List Nat := s.sessions.flatMap fun c => c.timers (s.mailbox c.mailbox)

def changeLink (s : Service) (i : Nat) (f : Session.Link → Session.Link) : Service :=
  match s.sessions[i]? with
  | some c => s.setSession i { c with link := f c.link }
  | none => s

-- The client of session `i` takes what the transport has for it.
def clientRead (s : Service) (i : Nat) : Pipe.Received Frame × Service :=
  match s.sessions[i]? with
  | none => (.ended, s)
  | some c =>
    let (r, outbound) := c.link.outbound.receive
    (r, s.setSession i { c with link := { c.link with outbound } })

-- What becomes of a frame that the client of session `i` sends now.
def clientOutcome (s : Service) (i : Nat) : Pipe.Sent :=
  match s.sessions[i]? with
  | none => .closed
  | some c => c.link.inbound.outcome

def clientSend (s : Service) (i : Nat) (f : Frame) : Service :=
  s.changeLink i fun k => { k with inbound := k.inbound.send f }

-- The client of session `i` answers a frame that it has read, as clients of web sockets do; none if it finds
-- that the server has left.
def clientAnswer (s : Service) (i : Nat) (f : Frame) : Option Service :=
  if (s.sessions[i]?).any (·.link.isWebSocket) then
    match f with
    | .ping bs =>
      if s.clientOutcome i = .closed then none else some (s.clientSend i (.pong bs))
    | .close => some (s.clientSend i .close)
    | .text _ | .binary _ | .pong _ => some s
  else some s

-- The client will send no more.
def clientHangUp (s : Service) (i : Nat) : Service :=
  s.changeLink i fun k => { k with inbound := k.inbound.closeWriter }

-- The client is gone.
def clientGone (s : Service) (i : Nat) : Service :=
  s.changeLink i fun k =>
    { k with inbound := k.inbound.closeWriter, outbound := k.outbound.closeReader }

end Service
end Parley
