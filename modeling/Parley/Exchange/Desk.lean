import Parley.Exchange

namespace Parley

-- Why the exchange turns someone away.
inductive Refusal where
  | closed
  | shuttingDown
deriving DecidableEq, Repr

def Refusal.message : Refusal → String
  | closed => "Hub is closed"
  | shuttingDown => "Hub is shutting down"

-- Who waits for a reply.
inductive Caller where
  | session (index : Nat)
  | visitor (ticket : Nat)
deriving DecidableEq, Repr

inductive Reply where
  | admitted
  | answer (a : Answer)
  | refused (r : Refusal)
deriving DecidableEq, Repr

-- A command that waits, and who waits for its outcome.
structure Errand where
  command : Command
  caller : Option Caller
deriving DecidableEq, Repr

-- The desk of the exchange: commands wait there in the order in which they came, and whoever wants to know the
-- outcome of a command waits for a reply.  The desk has room for a number of errands; whoever comes with another
-- one waits in turn until there is room for it.  Once the exchange is told to shut down it handles nothing more;
-- it lets go of everyone and turns away whoever still waits.
structure Desk where
  exchange : Exchange
  -- How many errands there is room for.
  capacity : Nat
  -- The errands that were not handled yet; those that there is no room for come last.
  backlog : List Errand
  -- The number of errands that were handled.
  handled : Nat
  -- When the exchange was told to shut down, if it was.
  shutdownAt : Option Nat
  -- The exchange has let go of everyone and handles nothing more.
  stopped : Bool
  -- What everyone is told at the end.
  farewell : String

namespace Desk

def defaultFarewell : String := "Server shutting down"

-- Whether there may be a desk with room for so many commands; it has room for one at least.
def Allows (capacity : Nat) : Prop := Pipe.IsCapacity (max capacity 1)

instance (capacity : Nat) : Decidable (Allows capacity) := by unfold Allows; infer_instance

def defaultCapacity : Nat := 1024

def new (farewell : String) (capacity : Nat := defaultCapacity) : Desk :=
  ⟨.empty, max capacity 1, [], 0, none, false, farewell⟩

-- Errands are numbered in the order in which they come; this is the number of the next one.
def number (d : Desk) : Nat := d.handled + d.backlog.length

-- Whether there is room for the errand of a number, or it was handled already.
def HasRoom (d : Desk) (number : Nat) : Prop := number < d.handled + d.capacity

instance (d : Desk) (number : Nat) : Decidable (d.HasRoom number) := by unfold HasRoom; infer_instance

-- Whether a command is taken, or why not.
def refusal? (d : Desk) (c : Command) : Option Refusal :=
  match c with
  | .register _ =>
    if d.shutdownAt.isSome then some .shuttingDown else if d.stopped then some .closed else none
  | _ => if d.stopped then some .closed else none

-- Comes to the desk with a command.
def submit (d : Desk) (e : Errand) : Except Refusal Desk :=
  match d.refusal? e.command with
  | some r => .error r
  | none => .ok { d with backlog := d.backlog ++ [e] }

def shutdown (d : Desk) : Desk :=
  { d with shutdownAt := d.shutdownAt <|> some d.exchange.supply.now }

-- The reply to a command that was handled.
def reply (x : Exchange) : Command → Option Reply
  | .register _ => some .admitted
  | .query q => some (.answer (x.answer q))
  | _ => none

-- Replies, each with the one who waits for it.
abbrev Replies := List (Caller × Reply)

-- The commands that were not handled yet.
def pending (d : Desk) : List Command := d.backlog.map (·.command)

-- The end: everyone is let go, and those who wait are turned away.
def stop (l : Listing) (d : Desk) : Replies × Desk :=
  (d.backlog.filterMap fun e =>
      match e.caller, e.command with
      | some c, .register _ => some (c, .refused .closed)
      | some c, .query _ => some (c, .refused .closed)
      | _, _ => none,
    { d with
      exchange := (d.exchange.closeAll l d.farewell).forgoAll d.pending
      backlog := []
      stopped := true })

-- Handles the first command, or ends; `attended` says whether anyone may still leave a command.
def step (l : Listing) (attended : Bool) (d : Desk) : Option (Replies × Desk) :=
  if d.stopped then none
  else if d.shutdownAt.isSome then some (d.stop l)
  else
    match d.backlog with
    | e :: backlog =>
      some
        ((e.caller.bind fun c => (reply d.exchange e.command).map (c, ·)).toList,
          { d with exchange := d.exchange.handle l e.command, backlog, handled := d.handled + 1 })
    | [] => if attended then none else some (d.stop l)

end Desk
end Parley
