import Parley.Service

namespace Parley

-- Where a client reads: at the end of a transport, or straight from a mailbox.
inductive Place where
  | session (i : Nat)
  | mailbox (number : Nat)
deriving DecidableEq, Repr

-- A service together with its clients, run until nothing more can happen.  Of the orders in which events may
-- happen, a rehearsal takes one: whatever a session can do comes before the next command of the exchange, and
-- clients take what they can get.
structure Rehearsal.Client where
  place : Place
  reading : Bool
  -- The client has read all there will ever be.
  ended : Bool
deriving DecidableEq, Repr

-- What a client reads; none is the end.
abbrev Rehearsal.Sight := Nat × Option Frame

structure Rehearsal where
  service : Service
  clients : List Rehearsal.Client
  -- What the clients have read, each named by its place in the list of clients.
  seen : List Rehearsal.Sight

namespace Rehearsal

def new (farewell : String) (capacity : Nat := Desk.defaultCapacity) : Rehearsal :=
  ⟨.new farewell capacity, [], []⟩

def change (r : Rehearsal) (f : Service → Service) : Rehearsal := { r with service := f r.service }

-- What there is to read at a place.
def readAt (s : Service) : Place → Pipe.Received Frame × Service
  | .session i => s.clientRead i
  | .mailbox number =>
    let r : Pipe.Received Frame :=
      match (s.mailbox number).receive with
      | .item n => .item (.text n.text)
      | .empty => .empty
      | .ended => .ended
    (r, s.changeMailbox number Service.takeNotice)

-- What the client at a place does by itself about a frame; none if it finds that nobody is there.
def answer (s : Service) (p : Place) (f : Frame) : Option Service :=
  match p with
  | .session i => s.clientAnswer i f
  | .mailbox _ => some s

-- Client `k` reads, if it is to read and there is something to be read.
def clientStep (r : Rehearsal) (k : Nat) : Option Rehearsal := do
  let c ← r.clients[k]?
  if ¬ c.reading ∨ c.ended then none
  else
    match readAt r.service c.place with
    | (.item f, service) =>
      let r := { r with service, seen := r.seen ++ [(k, some f)] }
      match answer service c.place f with
      | some service => some { r with service }
      -- Whoever cannot answer has no use for what else there may be to read.
      | none =>
        some
          { r with
            clients := r.clients.set k { c with ended := true }
            seen := r.seen ++ [(k, none)] }
    | (.ended, service) =>
      some
        { service
          clients := r.clients.set k { c with ended := true }
          seen := r.seen ++ [(k, none)] }
    | (.empty, _) => none

-- What session `i` does next, if it can do anything.
def sessionStep (s : Service) (i : Nat) : Option Service :=
  s.stepServe i <|> s.stepCourier i <|> s.stepWriter i <|> s.stepCancelled i <|> s.stepRead i <|>
    s.stepOverdue i <|> s.stepRefusing i <|> s.stepFinish i

-- What happens next, if anything can; clients read only if `reading` is set.
def next (reading : Bool) (r : Rehearsal) : Option Rehearsal :=
  (if reading then (List.range r.clients.length).findSome? r.clientStep else none) <|>
    ((List.range r.service.sessions.length).findSome? (sessionStep r.service)).map
      (fun service => { r with service }) <|>
    (r.service.stepDesk .ascending).map fun service => { r with service }

-- A number of steps within which nothing more can happen: every frame that waits at a transport may
-- become a command, every command may put a notice into every mailbox for every connection that leaves,
-- and every notice is taken, written, read and answered.
def work (s : Service) : Nat :=
  let sessions := s.sessions.length
  let crowd := sessions + s.desk.exchange.roster.count + s.desk.backlog.length + 2
  let command := 8 * crowd * crowd + 16
  let waiting := (s.sessions.flatMap fun c => c.link.inbound.queue).length
  let written := (s.sessions.flatMap fun c => c.link.outbound.queue).length
  let notices := (s.desk.exchange.mailboxes.toList.flatMap fun (_, m) => m.pipe.queue).length
  (2 * waiting + s.desk.backlog.length + 8 * sessions + 2) * command + 8 * notices + 8 * written + 64

def runFor (reading : Bool) : Nat → Rehearsal → Rehearsal
  | 0, r => r
  | fuel + 1, r =>
    match next reading r with
    | some r => runFor reading fuel r
    | none => r

-- Runs until nothing more can happen.
def settle (reading : Bool) (r : Rehearsal) : Rehearsal := runFor reading (work r.service) r

-- Lets time pass from `time` to `target`; timers fire in order, and nobody reads meanwhile.
def passTime (target time : Nat) (r : Rehearsal) : Rehearsal :=
  let r := r.settle false
  match (r.service.timers.filter fun t => decide (time < t ∧ t ≤ target)).min? with
  | some t =>
    if _h : time < t ∧ t ≤ target then passTime target t (r.change (·.passTo t))
    else r
  | none => (r.change (·.passTo target)).settle false
termination_by target - time

-- A visitor leaves a command at the desk and waits for the reply, if there is to be one.
def ask (r : Rehearsal) (c : Command) : Except Refusal (Option Reply) × Rehearsal :=
  match r.service.submit ⟨c, some (.visitor 0)⟩ with
  | .error e => (.error e, r.change (·.changeExchange (·.forgo c)))
  | .ok service =>
    let r := { r with service }.settle true
    (.ok (r.service.replies.getLast?.map (·.2)), r.change fun s => { s with replies := [] })

def advance (r : Rehearsal) (duration : Nat) : Rehearsal :=
  r.passTime (r.service.now + duration) r.service.now

-- Adds a client, and gives its place in the list of clients.
def join (r : Rehearsal) (place : Place) (reading : Bool) : Rehearsal :=
  { r with clients := r.clients ++ [⟨place, reading, false⟩] }

def setReading (r : Rehearsal) (k : Nat) (reading : Bool) : Rehearsal :=
  match r.clients[k]? with
  | some c => { r with clients := r.clients.set k { c with reading } }
  | none => r

end Rehearsal
end Parley
