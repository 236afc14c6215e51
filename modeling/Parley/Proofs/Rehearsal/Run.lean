import Parley.Proofs.Service.Steady
import Parley.Rehearsal

namespace Parley

open Service

variable {s t : Service} {i k : Nat}

theorem Service.calm_changeLink (f : Session.Link → Session.Link) : s.Calm (s.changeLink i f) :=
  .single (.link i f) id

theorem Service.calm_clientRead : s.Calm (s.clientRead i).2 := by
  have he : (s.clientRead i).2 = s.changeLink i fun k => { k with outbound := k.outbound.receive.2 } := by
    simp only [clientRead, changeLink]
    cases s.sessions[i]? <;> rfl
  exact he ▸ calm_changeLink _

theorem Service.calm_clientAnswer {f : Frame} (h : s.clientAnswer i f = some t) : s.Calm t := by
  simp only [clientAnswer] at h
  split at h
  case isFalse => cases h; exact .refl
  case isTrue =>
    cases f <;> simp only at h
    case ping =>
      split at h <;> cases h
      exact calm_changeLink _
    case close => cases h; exact calm_changeLink _
    case text | binary | pong => cases h; exact .refl

namespace Rehearsal

variable {r r' : Rehearsal} {reading : Bool} {p : Place} {f : Frame}

theorem calm_readAt : s.Calm (readAt s p).2 := by
  cases p
  case session => exact calm_clientRead
  case mailbox number => exact .single (.mailbox number takeNotice) id

theorem calm_answer (h : answer s p f = some t) : s.Calm t := by
  cases p
  case session => exact calm_clientAnswer h
  case mailbox => cases h; exact .refl

theorem calm_clientStep (h : r.clientStep k = some r') : r.service.Calm r'.service := by
  have ⟨c, _, h⟩ := Option.bind_eq_some_iff.mp h
  have hread : r.service.Calm (readAt r.service c.place).2 := calm_readAt
  split at h
  case isTrue => cases h
  case isFalse =>
    split at h
    case h_1 f s he =>
      rw [he] at hread
      simp only at h
      split at h
      case h_1 ha => cases h; exact hread.trans (calm_answer ha)
      case h_2 => cases h; exact hread
    case h_2 s he =>
      rw [he] at hread
      cases h
      exact hread
    case h_3 => cases h

theorem calm_sessionStep (h : sessionStep s i = some t) : s.Calm t := by
  have hmove (m : Move) (h : m.apply? s i = some t) : s.Calm t := .single (.session i m h) id
  simp only [sessionStep, Option.orElse_eq_orElse, Option.orElse_eq_or, Option.or_eq_some_iff] at h
  obtain h | ⟨_, h | ⟨_, h | ⟨_, h | ⟨_, h | ⟨_, h | ⟨_, h | ⟨_, h⟩⟩⟩⟩⟩⟩⟩ := h
  · exact hmove .serve h
  · exact hmove .courier h
  · exact hmove .write h
  · exact hmove .notice h
  · exact hmove .read h
  · exact hmove .expire h
  · exact hmove .refuse h
  · exact hmove .finish h

theorem calm_next (h : next reading r = some r') : r.service.Calm r'.service := by
  simp only [next, Option.orElse_eq_orElse, Option.orElse_eq_or, Option.or_eq_some_iff] at h
  obtain h | ⟨_, h | ⟨_, h⟩⟩ := h
  case inl =>
    split at h
    case isFalse => cases h
    case isTrue =>
      have ⟨_, _, h⟩ := List.exists_of_findSome?_eq_some h
      exact calm_clientStep h
  case inr.inl =>
    obtain ⟨t, ht, rfl⟩ := Option.map_eq_some_iff.mp h
    obtain ⟨_, _, ht⟩ := List.exists_of_findSome?_eq_some ht
    exact calm_sessionStep ht
  case inr.inr =>
    obtain ⟨t, ht, rfl⟩ := Option.map_eq_some_iff.mp h
    exact .single (.desk .ascending ht) id

theorem calm_runFor {fuel : Nat} : r.service.Calm (runFor reading fuel r).service := by
  induction fuel generalizing r
  case zero => exact .refl
  case succ fuel hi =>
    simp only [runFor]
    split
    case h_1 h => exact (calm_next h).trans hi
    case h_2 => exact .refl

theorem calm_settle : r.service.Calm (r.settle reading).service := calm_runFor

theorem calm_passTime {target time : Nat} : r.service.Calm (r.passTime target time).service := by
  have hpass {r : Rehearsal} (time : Nat) : r.service.Calm (r.change (·.passTo time)).service :=
    .single (.pass time) id
  fun_induction passTime target time r
  case case1 hi => exact calm_settle.trans ((hpass _).trans hi)
  case case2 => exact calm_settle
  case case3 => exact calm_settle.trans ((hpass _).trans calm_settle)

theorem calm_advance (duration : Nat) : r.service.Calm (r.advance duration).service := calm_passTime

-- Asking takes its course, too.
theorem calm_ask (q : Query) : r.service.Calm (r.ask (.query q)).2.service := by
  simp only [ask]
  split
  case h_1 => exact .refl
  case h_2 s hs =>
    have hvisit : r.service.Calm s := .single (.visit 0 (.query q) hs nofun) id
    exact (hvisit.trans (calm_settle (r := { r with service := s }))).trans (.single .collect id)

end Rehearsal
end Parley
