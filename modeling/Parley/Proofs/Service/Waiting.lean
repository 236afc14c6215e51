import Parley.Proofs.Service.Filing
import Parley.Proofs.Service.Prompt

namespace Parley

open Std

-- What a session comes to by a reply.
def Reply.stage : Reply → Session.Stage
  | refused r            => .refusing r false
  | admitted | answer .. => .admitted

namespace Session

variable {d : Desk} {m m' : Mailbox} {c c' : Session} {i : Nat}

theorem IsSame.registration_eq (h : c.IsSame c') : c'.registration i = c.registration i := by
  rw [registration, registration, h.id, h.identity, h.mailbox]

theorem Stride.registering (h : c.Stride d m c' m') (hs : c'.stage = .registering) : c.stage = .registering := by
  cases h
  case serve | stop | reject | ask | dismiss | leave | finish => cases hs
  case retreat =>
    unfold rebuff at hs
    split at hs
    · cases hs
    · exact hs
  all_goals exact hs

theorem Told.stage_ne (h : Told c c') : c'.stage ≠ .registering := by
  cases h <;> exact nofun

end Session

-- When the exchange ends, whoever waits with a registration is turned away, and nobody is told anything else.
namespace Desk

variable {d : Desk} {l : Listing} {r : Registration} {caller : Caller} {reply : Caller × Reply}

theorem mem_replies_stop (h : ⟨.register r, some caller⟩ ∈ d.backlog) :
    (caller, .refused .closed) ∈ (d.stop l).1 :=
  List.mem_filterMap.mpr ⟨_, h, rfl⟩

theorem refused_of_mem_stop (h : reply ∈ (d.stop l).1) : ∃ r, reply.2 = .refused r := by
  obtain ⟨e, _, hr⟩ := List.mem_filterMap.mp h
  split at hr <;> cases hr <;> exact ⟨_, rfl⟩

theorem not_refused_of_mem {x : Exchange} {e : Errand}
    (h : reply ∈ (e.caller.bind fun c => (Desk.reply x e.command).map (c, ·)).toList) (r : Refusal) :
    reply.2 ≠ .refused r := by
  obtain ⟨_, _, h⟩ := Option.bind_eq_some_iff.mp (Option.mem_toList.mp h)
  obtain ⟨a, ha, rfl⟩ := Option.map_eq_some_iff.mp h
  rintro rfl
  unfold Desk.reply at ha
  split at ha <;> cases ha

end Desk

namespace Service

-- Whoever waits to be admitted waits at the desk.
def Waits (s : Service) : Prop :=
  ∀ i (c : Session), s.sessions[i]? = some c → c.stage = .registering → c.registration i ∈ s.desk.backlog

variable {s t : Service} {i : Nat} {c c' : Session} {left : List Errand} {l : Listing} {rs : Desk.Replies}
  {r : Caller × Reply}

theorem stage_handOver (hr : r.1 = .session i) (hi : (s.handOver r).sessions[i]? = some c') :
    c'.stage = r.2.stage := by
  obtain ⟨_, reply⟩ := r
  subst hr
  simp only [handOver] at hi
  split at hi
  case h_1 hn => cases hn.symm.trans hi
  case h_2 c hc =>
    obtain ⟨hlt, _⟩ := List.getElem?_eq_some_iff.mp hc
    cases reply <;> cases (List.getElem?_set_self hlt).symm.trans hi <;> rfl

-- Whoever is told something has learnt it in the end.
theorem exists_stage_eq (hm : r ∈ rs) (hr : r.1 = .session i) (hi : (rs.foldl handOver s).sessions[i]? = some c') :
    ∃ r' ∈ rs, c'.stage = r'.2.stage := by
  induction rs generalizing s r
  case nil => cases hm
  case cons r₀ rs hind =>
    by_cases hlater : ∃ r ∈ rs, r.1 = .session i
    case pos =>
      obtain ⟨r, hm, hr⟩ := hlater
      obtain ⟨r', hm, hs⟩ := hind hm hr hi
      exact ⟨r', List.mem_cons_of_mem _ hm, hs⟩
    case neg =>
      obtain rfl : r = r₀ := (List.mem_cons.mp hm).resolve_right fun hm => hlater ⟨r, hm, hr⟩
      obtain ⟨c, hc, h⟩ := (foldl_handOver rs).2.2 i c' hi
      obtain rfl := h.resolve_right fun ⟨_, hl⟩ => hlater hl
      exact ⟨r, List.mem_cons_self, stage_handOver hr hc⟩

theorem Befalls.registering (h : s.Befalls t i c c') (hs : c'.stage = .registering) : c.stage = .registering := by
  cases h
  case strides h => exact h.stride.registering hs
  case suffers h =>
    cases h
    case told h => exact absurd hs h.stage_ne
    case link => exact hs

-- Only the desk takes anything from what lies there.
theorem Step.takes_or_desk (st : Step s t) : (∃ new, s.desk.Takes t.desk new) ∨ ∃ l, s.stepDesk l = some t := by
  cases st
  case desk l hd => exact .inr ⟨l, hd⟩
  case connect id identity limits link _ =>
    obtain ⟨_, new, _, _, hd, _⟩ := s.connect_cases id identity limits link
    exact .inl ⟨new, hd⟩
  case session hm =>
    obtain ⟨_, _, new, ht⟩ := Turns.of_move hm
    exact .inl ⟨new, ht.takes⟩
  case visit ht => exact .inl ⟨_, (takes_submit ht).1⟩
  case shutdown => exact .inl ⟨_, shutdown_cases.1⟩
  case link i f =>
    obtain hs | ⟨_, _, ht⟩ := s.changeLink_cases (i := i) f
    case inl => exact .inl ⟨[], by rw [hs]; exact .refl⟩
    case inr => exact .inl ⟨_, ht.takes⟩
  case pass | openMailbox | mailbox => exact .inl ⟨[], Desk.takes_of_roster_eq rfl⟩
  case collect | desert => exact .inl ⟨[], .refl⟩

-- Whoever waits after a step of the desk was told nothing.
theorem Waits.desk (h : s.Waits) (hd : s.stepDesk l = some t) (hi : s.sessions[i]? = some c)
    (hc : c.stage = .registering) (hi' : t.sessions[i]? = some c') (hs : c'.stage = .registering) :
    c.registration i ∈ t.desk.backlog := by
  obtain ⟨⟨rs, d⟩, hstep, rfl⟩ := Option.map_eq_some_iff.mp hd
  have hb : (rs.foldl handOver { s with desk := d }).desk.backlog = d.backlog :=
    (foldl_handOver rs).1.backlog.trans (List.append_nil _)
  have hsilent r (hm : r ∈ rs) : r.1 ≠ .session i := by
    intro hr
    obtain ⟨r', _, hr'⟩ := exists_stage_eq hm hr hi'
    rw [hs] at hr'
    cases h : r'.2 <;> rw [h] at hr' <;> cases hr'
  have hreg := h i c hi hc
  rw [hb]
  obtain ⟨_, ⟨e, backlog, _, hbacklog, rfl, rfl⟩ | ⟨_, hstop⟩⟩ := Desk.step_eq_some hstep
  case inl =>
    rw [hbacklog] at hreg
    obtain rfl | hreg := List.mem_cons.mp hreg
    · exact absurd rfl (hsilent _ (List.mem_singleton_self _))
    · exact hreg
  case inr =>
    cases hstop
    exact absurd rfl (hsilent _ (Desk.mem_replies_stop (l := l) hreg))

theorem Waits.step (h : s.Waits) (hp : s.Proper left) (st : Step s t) : t.Waits := by
  intro i c' hi' hs
  obtain ⟨c, hi, hb⟩ | ⟨rfl, ho⟩ := st.origin hp hi'
  case inr => exact ho.waits hs
  case inl =>
    have hc := hb.registering hs
    rw [hb.isSame.registration_eq]
    obtain ⟨new, hd⟩ | ⟨l, hd⟩ := st.takes_or_desk
    · exact hd.backlog ▸ List.mem_append_left _ (h i c hi hc)
    · exact h.desk hd hi hc hi' hs

theorem waits_new {farewell : String} {capacity : Nat} : (Service.new farewell capacity).Waits := by
  intro i c hi
  simp [Service.new] at hi

end Service
end Parley
