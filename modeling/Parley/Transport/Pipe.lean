namespace Parley

-- Bounded queues with a writing and a reading end.  An end that is gone does not come back.
structure Pipe (α : Type) where
  capacity : Nat
  queue : List α
  -- There is someone who may still write.
  writable : Bool
  -- There is someone who may still read.
  readable : Bool
deriving DecidableEq, Repr

namespace Pipe

variable {α : Type}

def new (capacity : Nat) : Pipe α := ⟨capacity, [], true, true⟩

-- No pipe has room for more items than this.
def maxCapacity : Nat := 0x1FFFFFFFFFFFFFFF

-- A pipe has room for one item at least.
def IsCapacity (n : Nat) : Prop := 0 < n ∧ n ≤ maxCapacity

instance (n : Nat) : Decidable (IsCapacity n) := by unfold IsCapacity; infer_instance

inductive Sent where
  | accepted
  | full
  | closed
deriving DecidableEq, Repr

inductive Received (α : Type) where
  | item (x : α)
  | empty
  | ended
deriving DecidableEq, Repr

def IsFull (p : Pipe α) : Prop := p.capacity ≤ p.queue.length

instance (p : Pipe α) : Decidable p.IsFull := by unfold IsFull; infer_instance

-- Whether an item written now would be kept.
def outcome (p : Pipe α) : Sent :=
  if p.writable ∧ p.readable then if p.IsFull then .full else .accepted else .closed

-- Puts an item at the end of the queue, if both ends are there and it is not full.
def send (p : Pipe α) (x : α) : Pipe α :=
  if p.outcome = .accepted then { p with queue := p.queue ++ [x] } else p

-- Takes the first item; the queue has ended once it is empty and nobody may write.
def receive (p : Pipe α) : Received α × Pipe α :=
  match p.queue with
  | x :: queue => (.item x, { p with queue })
  | [] => (if p.writable then .empty else .ended, p)

def closeWriter (p : Pipe α) : Pipe α := { p with writable := false }

-- Nobody reads any more; what is queued is lost.
def closeReader (p : Pipe α) : Pipe α := { p with readable := false, queue := [] }

end Pipe
end Parley
