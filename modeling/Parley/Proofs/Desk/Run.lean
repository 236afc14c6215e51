import Parley.Exchange.Desk
import Parley.Proofs.Exchange.Ending
import Parley.Proofs.Exchange.Run

namespace Parley

open Std

namespace Desk

-- The command that is handled next, if one is.
def next? (d : Desk) : Option Command :=
  if d.shutdownAt.isSome then none else d.backlog.head?.map (·.command)

-- What the next step is made of: a command and its evictions, or the last notice.
def acts (l : Listing) (d : Desk) : List Exchange.Act :=
  match d.next? with
  | some c => d.exchange.journal l c
  | none   => Exchange.Acts.closeAll d.exchange l d.farewell

-- Errands are left at a desk in any order and handled one after the other, until the exchange is told to shut down
-- or is deserted.  In between, sessions and clients make use of the mailboxes.
inductive Step : Desk → Desk → Type
  | submit {d d'} (e : Errand) (h : d.submit e = .ok d') : Step d d'
  | shutdown {d} : Step d d.shutdown
  | proceed {d d' rs} (l : Listing) (attended : Bool) (h : d.step l attended = some (rs, d'))
      (ha : ∀ c, d.next? = some c → d.exchange.Allows c) : Step d d'
  | between {d} (i : Exchange.Interlude) (h : d.exchange.Permits i) :
      Step d { d with exchange := i.apply d.exchange }

inductive Run : Desk → Desk → Type
  | refl {d} : Run d d
  | step {d e f} : Run d e → Step e f → Run d f

variable {d d' : Desk} {l : Listing} {attended : Bool} {rs : Replies} {e : Errand} {k : Nat}

theorem submit_eq_ok (h : d.submit e = .ok d') : d' = { d with backlog := d.backlog ++ [e] } := by
  simp only [submit] at h
  split at h <;> cases h
  rfl

theorem exchange_submit (h : d.submit e = .ok d') : d'.exchange = d.exchange ∧ d'.stopped = d.stopped := by
  rw [submit_eq_ok h]
  exact ⟨rfl, rfl⟩

-- A step handles the first errand or is the last one.
theorem step_eq_some (h : d.step l attended = some (rs, d')) :
    d.stopped = false ∧
    ((∃ e backlog, d.next? = some e.command ∧ d.backlog = e :: backlog ∧
        rs = (e.caller.bind fun c => (reply d.exchange e.command).map (c, ·)).toList ∧
        d' = { d with exchange := d.exchange.handle l e.command, backlog, handled := d.handled + 1 }) ∨
      (d.next? = none ∧ (rs, d') = d.stop l)) := by
  simp only [step] at h
  split at h
  case isTrue => cases h
  case isFalse hs =>
    refine ⟨Bool.eq_false_iff.mpr hs, ?_⟩
    split at h
    case isTrue hd => exact .inr ⟨by simp [next?, hd], Option.some.inj h.symm⟩
    case isFalse hd =>
      split at h
      case h_1 e backlog hb =>
        cases h
        exact .inl ⟨e, backlog, by simp [next?, hd, hb], hb, rfl, rfl⟩
      case h_2 hb =>
        split at h
        case isTrue => cases h
        case isFalse => exact .inr ⟨by simp [next?, hd, hb], Option.some.inj h.symm⟩

theorem roster_stop : (d.stop l).2.exchange.roster = .empty :=
  Exchange.roster_forgoAll.trans Exchange.roster_closeAll

theorem step_cases (h : d.step l attended = some (rs, d')) :
    d.stopped = false ∧
    ((∃ c, d.next? = some c ∧ d'.exchange = d.exchange.handle l c ∧ d'.stopped = false) ∨
      (d.next? = none ∧ d'.exchange = (d.stop l).2.exchange ∧ d'.stopped = true)) := by
  obtain ⟨hs, ⟨e, _, hc, _, _, rfl⟩ | ⟨hc, h⟩⟩ := step_eq_some h
  case inl => exact ⟨hs, .inl ⟨e.command, hc, rfl, hs⟩⟩
  case inr =>
    cases h
    exact ⟨hs, .inr ⟨hc, rfl, rfl⟩⟩

theorem queue_step (h : d.step l attended = some (rs, d')) :
    d'.exchange.queue k =
      d.exchange.queue k ++ (d.exchange.attempts (d.acts l)).filterMap (·.enqueued? k) := by
  obtain ⟨_, ⟨c, hc, he, _⟩ | ⟨hc, he, _⟩⟩ := step_cases h
  case inl => rw [he, acts, hc, ← Exchange.replay_journal, Exchange.queue_replay]
  case inr => rw [he, acts, hc, stop, Exchange.queue_forgoAll, Exchange.queue_closeAll]

theorem supply_step (h : d.step l attended = some (rs, d')) :
    d'.exchange.supply = (d.exchange.replay (d.acts l)).supply := by
  obtain ⟨_, ⟨c, hc, he, _⟩ | ⟨hc, he, _⟩⟩ := step_cases h
  case inl => rw [he, acts, hc, Exchange.replay_journal]
  case inr => rw [he, acts, hc, stop, Exchange.supply_forgoAll, Exchange.supply_closeAll]

theorem sound_step (h : d.step l attended = some (rs, d')) (ha : ∀ c, d.next? = some c → d.exchange.Allows c)
    (hs : d.exchange.Sound) : d'.exchange.Sound := by
  obtain ⟨_, ⟨c, hc, he, _⟩ | ⟨_, he, _⟩⟩ := step_cases h
  case inl => exact he ▸ hs.handle (ha c hc)
  case inr => exact Exchange.sound_of_roster_empty (he ▸ roster_stop)

-- The command that a step handles.
def Step.command? {d d' : Desk} : Step d d' → Option Command
  | proceed .. => d.next?
  | _          => none

def Step.post? (s : Step d d') : Option Post :=
  match s.command? with
  | some (.post p) => some p
  | _              => none

def Step.admitted? (s : Step d d') : Option Registration :=
  match s.command? with
  | some (.register r) => some r
  | _                  => none

theorem Step.sound (s : Step d d') (h : d.exchange.Sound) : d'.exchange.Sound := by
  cases s
  case submit hs => exact (exchange_submit hs).1.symm ▸ h
  case shutdown => exact h
  case proceed ha hs => exact sound_step hs ha h
  case between hp => exact h.apply hp

namespace Run

-- What was posted, as far as it was handled.
def posts {d d' : Desk} : Run d d' → List Post
  | refl       => []
  | step run s => run.posts ++ s.post?.toList

-- Who was admitted.
def admitted {d d' : Desk} : Run d d' → List Registration
  | refl       => []
  | step run s => run.admitted ++ s.admitted?.toList

theorem sound (run : Run d d') (h : d.exchange.Sound) : d'.exchange.Sound := by
  induction run
  case refl => exact h
  case step s hi => exact s.sound hi

end Run
end Desk
end Parley
