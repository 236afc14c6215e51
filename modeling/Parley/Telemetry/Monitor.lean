import Parley.Rehearsal
import Parley.Telemetry.Meter

namespace Parley.Telemetry

-- Samplers ask the exchange for its figures at regular intervals, the first time at once, and stop when it answers
-- no more.
structure Sampler where
  period : Nat
  -- When it asks next.
  due : Nat
deriving DecidableEq, Repr

-- No sampler asks more often than ten times in a second.
def Sampler.start (period now : Nat) : Sampler := ⟨max period (millis 100), now⟩

-- A service under observation.
structure Monitor where
  rehearsal : Rehearsal
  meter : Meter
  samplers : List Sampler

namespace Monitor

def new (farewell : String) : Monitor := ⟨.new farewell, {}, []⟩

def now (m : Monitor) : Nat := m.rehearsal.service.now

-- One sampler asks; none is left of it if it gets no answer.
def ask (m : Monitor) (s : Sampler) : Monitor × Option Sampler :=
  match m.rehearsal.ask (.query .stats) with
  | (.ok (some (.answer (.stats x))), rehearsal) =>
    ({ m with rehearsal, meter := m.meter.stats x }, some { s with due := s.due + s.period })
  | (_, rehearsal) => ({ m with rehearsal }, none)

-- Every sampler asks whose time has come.
def sample (m : Monitor) : Monitor :=
  m.samplers.foldl (fun m s =>
    if s.due ≤ m.now then
      let (m, s) := m.ask s
      { m with samplers := m.samplers ++ s.toList }
    else { m with samplers := m.samplers ++ [s] }) { m with samplers := [] }

def passTime (target time : Nat) (m : Monitor) : Monitor :=
  let m := { m with rehearsal := m.rehearsal.passTime (min time target) m.now }
  let m := m.sample
  match ((m.samplers.map (·.due)).filter fun t => decide (time < t ∧ t ≤ target)).min? with
  | some t => if _h : time < t ∧ t ≤ target then passTime target t m else m
  | none => { m with rehearsal := m.rehearsal.passTime target m.now }
termination_by target - time

def advance (m : Monitor) (duration : Nat) : Monitor := m.passTime (m.now + duration) m.now

-- Starts one more sampler.
def watch (m : Monitor) (period : Nat) : Monitor :=
  { m with samplers := m.samplers ++ [Sampler.start period m.now] }.sample

end Monitor
end Parley.Telemetry
