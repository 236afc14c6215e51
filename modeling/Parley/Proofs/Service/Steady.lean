import Parley.Proofs.Service.Run

namespace Parley

open Std

-- The session that waits for the outcome of an errand, if one does.
def Errand.session? (e : Errand) : Option Nat :=
  match e.caller with
  | some (.session i)        => some i
  | some (.visitor _) | none => none

theorem Errand.session?_eq_some_iff {e : Errand} {i : Nat} : e.session? = some i ↔ e.caller = some (.session i) := by
  rcases e with ⟨_, _ | ⟨_⟩ | ⟨_⟩⟩ <;> simp [session?]

namespace Session

variable {d : Desk} {c c' : Session} {new : List Errand} {id : ConnectionId} {who : Identity}

-- Only a session that is served has a reader at work.
structure IsSteady (c : Session) : Prop where
  running : c.reader.running = true → c.stage = .serving
  courier : c.reader.courier ≠ .idle → c.stage = .serving ∨ c.stage = .draining

theorem Begins.isSteady (h : c.Begins id who) : c.IsSteady where
  running hr := by rw [h.reader] at hr; cases hr
  courier hk := by rw [h.reader] at hk; exact absurd rfl hk

theorem isFinished_of_stage_eq (h : c'.stage = c.stage) : c'.IsFinished ↔ c.IsFinished := by
  simp only [IsFinished, h]

theorem Alike.isSteady (ha : Alike c c') (h : c.IsSteady) : c'.IsSteady :=
  ⟨fun hr => ha.stage ▸ h.running (ha.running ▸ hr), fun hc => ha.stage ▸ h.courier (ha.courier ▸ hc)⟩

-- What a turn of a session leaves as it was.
structure Goes (c c' : Session) (new : List Errand) : Prop where
  steady      : c'.IsSteady
  finished    : c.IsFinished → c'.IsFinished
  registering : c.stage = .registering → c'.stage = .registering
  uncalled    : ∀ e ∈ new, e.caller = none

theorem Courier.Forwards.uncalled {k k' : Courier} (h : k.Forwards d k' new) : ∀ e ∈ new, e.caller = none := by
  obtain ⟨_, rfl⟩ | ⟨_, _, _, rfl⟩ := h.command?
  · exact List.forall_mem_nil _
  · exact List.forall_mem_singleton.mpr rfl

theorem Turn.goes (t : Turn d c c' new) (h : c.IsSteady) : Goes c c' new := by
  have hstay {c'' : Session} {new : List Errand} (hs : c''.IsSteady) (he : c''.stage = c.stage)
      (hn : ∀ e ∈ new, e.caller = none) : Goes c c'' new :=
    ⟨hs, (isFinished_of_stage_eq he).mpr, he.trans, hn⟩
  have hmove {c'' : Session} (hs : c''.IsSteady) (hf : ¬ c.IsFinished) (hr : c.stage ≠ .registering) :
      Goes c c'' [] :=
    ⟨hs, fun hc => absurd hc hf, fun hc => absurd hc hr, List.forall_mem_nil _⟩
  have hmoves {stage : Stage} (hs : c.stage = stage) (hl : stage.lifecycle ≠ .closed) (hb : stage ≠ .broken) :
      ¬ c.IsFinished := by
    subst hs
    exact fun hf => hf.elim hl hb
  cases t
  case stay ha => exact hstay (ha.isSteady h) ha.stage (List.forall_mem_nil _)
  case serve now hs =>
    exact hmove ⟨fun _ => rfl, fun hc => absurd rfl hc⟩ (hmoves hs nofun nofun) (hs ▸ nofun)
  case request ha hl _ _ =>
    have hs := ha.stage.trans (h.running hl.1)
    exact hstay ⟨fun _ => hs, fun _ => .inl hs⟩ ha.stage (List.forall_mem_nil _)
  case readerStops ha hl =>
    have hs := h.running hl.1
    exact hmove ⟨nofun, fun _ => .inr rfl⟩ (hmoves hs nofun nofun) (hs ▸ nofun)
  case readerGivesUp hf hr =>
    have hs := h.running hr
    exact hmove ⟨nofun, fun _ => .inr rfl⟩ (hmoves hs nofun nofun) (hs ▸ nofun)
  case readerForwards hf =>
    have hc : c.reader.courier ≠ .idle := fun hc => not_forwards_idle (hc ▸ hf)
    exact hstay ⟨h.running, fun _ => h.courier hc⟩ rfl hf.uncalled
  case readerRefused => exact hstay ⟨h.running, fun hc => absurd rfl hc⟩ rfl (List.forall_mem_nil _)
  case writerForwards hf => exact hstay ⟨h.running, h.courier⟩ rfl hf.uncalled
  case writerStops | writerRefused | writerEnds =>
    exact hstay ⟨h.running, h.courier⟩ rfl (List.forall_mem_nil _)
  case refuse hs hc hs' ha =>
    have hserve : c.stage ≠ .serving ∧ c.stage ≠ .draining ∧ c.stage ≠ .registering ∧ c.stage ≠ .broken := by
      refine ⟨fun he => ?_, fun he => ?_, fun he => ?_, fun he => ?_⟩ <;> exact (he ▸ hs : Stage.IsRefusal _)
    have hreader : c.reader.running = false ∧ c.reader.courier = .idle := by
      refine ⟨Bool.eq_false_iff.mpr fun hr => hserve.1 (h.running hr), Decidable.not_not.mp fun hk => ?_⟩
      exact (h.courier hk).elim hserve.1 hserve.2.1
    refine hmove ⟨fun hr => ?_, fun hk => ?_⟩ (fun hf => hf.elim hc hserve.2.2.2) hserve.2.2.1
    · exact nomatch hreader.1.symm.trans (ha.running.symm.trans hr)
    · exact absurd (ha.courier.trans hreader.2) hk
  case finish hs hk hp =>
    refine hmove ⟨fun hr => ?_, fun hc => absurd hk hc⟩ (hmoves hs nofun nofun) (hs ▸ nofun)
    exact nomatch hs.symm.trans (h.running hr)

-- What a session learns while it waits does not set its reader to work.
theorem Told.isSteady (ht : Told c c') (hr : c.stage = .registering) (h : c.IsSteady) : c'.IsSteady := by
  have hrun : c.reader.running = true → False := fun hc => nomatch hr.symm.trans (h.running hc)
  have hk : c.reader.courier ≠ .idle → False := fun hc => (h.courier hc).elim (hr ▸ nofun) (hr ▸ nofun)
  cases ht <;> exact ⟨fun hc => (hrun hc).elim, fun hc => (hk hc).elim⟩

end Session

namespace Service

-- Whoever waits for the outcome of a registration waits for nothing else, and does nothing else.
structure Steady (s : Service) : Prop where
  sessions : ∀ c ∈ s.sessions, c.IsSteady
  callers  : ∀ e ∈ s.desk.backlog, ∀ i, e.session? = some i → ∃ c, s.sessions[i]? = some c ∧ c.stage = .registering
  once     : (s.desk.backlog.filterMap Errand.session?).Nodup

-- Whether a session begins by a step.
def Step.IsArrival {s t : Service} : Step s t → Prop
  | connect .. => True
  | _          => False

-- What becomes of a service as long as nobody new comes.
inductive Calm : Service → Service → Prop
  | refl {s} : Calm s s
  | step {s t u} (h : Calm s t) (st : Step t u) (hn : ¬ st.IsArrival) : Calm s u

variable {s t u : Service} {i j : Nat} {c c' : Session} {new : List Errand} {l : Listing} {id : ConnectionId}
  {identity : Identity} {limits : Session.Limits} {link : Session.Link}

-- Whoever is over stays over.
def Lasts (s t : Service) : Prop :=
  ∀ (i : Nat) (c : Session), s.sessions[i]? = some c → c.IsFinished → ∃ c', t.sessions[i]? = some c' ∧ c'.IsFinished

theorem lasts_of_sessions_eq (h : t.sessions = s.sessions) : s.Lasts t :=
  fun _ c hc hf => ⟨c, h ▸ hc, hf⟩

theorem Lasts.trans (h : s.Lasts t) (h' : t.Lasts u) : s.Lasts u := by
  intro i c hc hf
  have ⟨c', hc', hf'⟩ := h i c hc hf
  exact h' i c' hc' hf'

namespace Steady

variable (h : s.Steady)

include h

-- Errands come that no session waits for.
theorem takes (hs : t.sessions = s.sessions) (hd : s.desk.Takes t.desk new) (hn : ∀ e ∈ new, e.session? = none) :
    t.Steady where
  sessions := hs ▸ h.sessions
  callers := by
    rw [hd.backlog, hs]
    refine List.forall_mem_append.mpr ⟨h.callers, fun e he i hi => ?_⟩
    exact nomatch (hn e he).symm.trans hi
  once := by
    rw [hd.backlog, List.filterMap_append, List.filterMap_eq_nil_iff.mpr hn, List.append_nil]
    exact h.once

theorem turns (ht : Turns s t i c c' new) : t.Steady ∧ s.Lasts t := by
  have hgoes := ht.turn.goes (h.sessions c (List.mem_of_getElem? ht.before))
  have hnew : ∀ e ∈ new, e.session? = none := fun e he => by simp [Errand.session?, hgoes.uncalled e he]
  refine ⟨⟨fun c'' hm => ?sessions, ?callers, ?once⟩, fun j c'' hj hf => ?lasts⟩
  case sessions =>
    have ⟨j, hj⟩ := List.mem_iff_getElem?.mp hm
    obtain ⟨_, rfl⟩ | ⟨_, hj⟩ := ht.cases hj
    case inl => exact hgoes.steady
    case inr => exact h.sessions c'' (List.mem_of_getElem? hj)
  case callers =>
    rw [ht.takes.backlog]
    refine List.forall_mem_append.mpr ⟨fun e he j hj => ?_, fun e he j hj => nomatch (hnew e he).symm.trans hj⟩
    have ⟨c'', hc, hr⟩ := h.callers e he j hj
    by_cases hij : i = j
    case pos =>
      subst hij
      cases Option.some.inj (ht.before.symm.trans hc)
      exact ⟨c', ht.self, hgoes.registering hr⟩
    case neg => exact ⟨c'', (ht.other hij).trans hc, hr⟩
  case once =>
    rw [ht.takes.backlog, List.filterMap_append, List.filterMap_eq_nil_iff.mpr hnew, List.append_nil]
    exact h.once
  case lasts =>
    by_cases hij : i = j
    case pos =>
      subst hij
      cases Option.some.inj (ht.before.symm.trans hj)
      exact ⟨c', ht.self, hgoes.finished hf⟩
    case neg => exact ⟨c'', (ht.other hij).trans hj, hf⟩

-- Whoever gets a reply from the desk waited for it, and waits for nothing more.
theorem told {d : Desk} {rs : Desk.Replies} {attended : Bool} {r : Caller × Reply}
    (hd : s.desk.step l attended = some (rs, d)) (hm : r ∈ rs) (hr : r.1 = .session i)
    (hi : s.sessions[i]? = some c) : c.stage = .registering ∧ ∀ e ∈ d.backlog, e.session? ≠ some i := by
  have ⟨e, he, hcaller, hb⟩ := Desk.exists_caller hd hm
  have hw : e.session? = some i := Errand.session?_eq_some_iff.mpr (hr ▸ hcaller)
  have ⟨c₀, hc, hstage⟩ := h.callers e he i hw
  cases Option.some.inj (hi.symm.trans hc)
  refine ⟨hstage, ?_⟩
  cases hb
  case inr hb => exact hb ▸ List.forall_mem_nil _
  case inl hb =>
    intro e' he' hw'
    have honce := h.once
    rw [hb, List.filterMap_cons, hw] at honce
    exact (List.nodup_cons.mp honce).1 (List.mem_filterMap.mpr ⟨e', he', hw'⟩)

theorem desk (ht : s.stepDesk l = some t) : t.Steady ∧ s.Lasts t := by
  have ⟨rs, d, hd, htakes, hlength, hsessions⟩ := stepDesk_cases ht
  have hb : t.desk.backlog = d.backlog := htakes.backlog.trans (List.append_nil _)
  have hsuffix : t.desk.backlog <:+ s.desk.backlog := hb ▸ Desk.backlog_step hd
  -- A session is as it was, or has learnt what it waited for.
  have hcase {i c} (hi : s.sessions[i]? = some c) :
      ∃ c', t.sessions[i]? = some c' ∧ (c' = c ∨
        c.Told c' ∧ c.stage = .registering ∧ ∀ e ∈ t.desk.backlog, e.session? ≠ some i) := by
    have ⟨hlt, _⟩ := List.getElem?_eq_some_iff.mp hi
    have hi' := List.getElem?_eq_getElem (hlength ▸ hlt)
    have ⟨c₀, hc, hc'⟩ := hsessions i _ hi'
    cases Option.some.inj (hi.symm.trans hc)
    exact ⟨_, hi', hc'.imp id fun ⟨hw, r, hm, hr⟩ => ⟨hw, hb ▸ h.told hd hm hr hi⟩⟩
  refine ⟨⟨fun c' hm => ?sessions, fun e he i hw => ?callers, ?once⟩, fun i c hi hf => ?lasts⟩
  case sessions =>
    have ⟨i, hi⟩ := List.mem_iff_getElem?.mp hm
    have ⟨c, hc, _⟩ := hsessions i c' hi
    have hs := h.sessions c (List.mem_of_getElem? hc)
    have ⟨c₀, hc₀, hc'⟩ := hcase hc
    cases Option.some.inj (hi.symm.trans hc₀)
    obtain rfl | ⟨hw, hr, _⟩ := hc'
    · exact hs
    · exact hw.isSteady hr hs
  case callers =>
    have ⟨c, hc, hr⟩ := h.callers e (hsuffix.subset he) i hw
    have ⟨c', hi, hc'⟩ := hcase hc
    obtain rfl | ⟨_, _, hn⟩ := hc'
    · exact ⟨_, hi, hr⟩
    · exact absurd hw (hn e he)
  case once => exact h.once.sublist (hsuffix.sublist.filterMap _)
  case lasts =>
    have ⟨c', hi', hc'⟩ := hcase hi
    obtain rfl | ⟨_, hr, _⟩ := hc'
    · exact ⟨_, hi', hf⟩
    · simp [Session.IsFinished, hr, Session.Stage.lifecycle] at hf

theorem connect : (s.connect id identity limits link).Steady ∧ s.Lasts (s.connect id identity limits link) := by
  have ⟨c, new, hc, hs, hd, hnew⟩ := s.connect_cases id identity limits link
  have hold (i : Nat) (c' : Session) (hi : s.sessions[i]? = some c') :
      (s.connect id identity limits link).sessions[i]? = some c' := by
    have ⟨hlt, _⟩ := List.getElem?_eq_some_iff.mp hi
    rw [hs, List.getElem?_append_left hlt, hi]
  have hcallers : ∀ e ∈ s.desk.backlog, ∀ i, e.session? = some i →
      ∃ c', (s.connect id identity limits link).sessions[i]? = some c' ∧ c'.stage = .registering := by
    intro e he i hi
    have ⟨c', hc', hr⟩ := h.callers e he i hi
    exact ⟨c', hold i c' hc', hr⟩
  have hself : (s.connect id identity limits link).sessions[s.sessions.length]? = some c := by
    rw [hs, List.getElem?_append_right (Nat.le_refl _), Nat.sub_self]
    rfl
  refine ⟨⟨?sessions, ?callers, ?once⟩, fun i c' hi hf => ⟨c', hold i c' hi, hf⟩⟩
  case sessions =>
    rw [hs]
    exact List.forall_mem_append.mpr ⟨h.sessions, List.forall_mem_singleton.mpr hc.isSteady⟩
  case callers =>
    rw [hd.backlog]
    refine List.forall_mem_append.mpr ⟨hcallers, ?_⟩
    obtain rfl | ⟨hr, rfl⟩ := hnew
    case inl => exact List.forall_mem_nil _
    case inr =>
      refine List.forall_mem_singleton.mpr fun i hi => ?_
      cases hi
      exact ⟨c, hself, hr⟩
  case once =>
    rw [hd.backlog, List.filterMap_append]
    refine List.nodup_append.mpr ⟨h.once, ?_, fun i hi j hj hij => ?_⟩
    case refine_1 =>
      obtain rfl | ⟨_, rfl⟩ := hnew
      · exact .nil
      · exact List.pairwise_singleton ..
    case refine_2 =>
      -- Nobody waits for the session that comes.
      have hj : j = s.sessions.length := by
        obtain rfl | ⟨_, rfl⟩ := hnew
        · cases hj
        · exact List.mem_singleton.mp hj
      have ⟨e, he, hw⟩ := List.mem_filterMap.mp hi
      have ⟨c', hc', _⟩ := h.callers e he i hw
      have ⟨hlt, _⟩ := List.getElem?_eq_some_iff.mp hc'
      omega

end Steady

theorem steady_new {farewell : String} {capacity : Nat} : (Service.new farewell capacity).Steady :=
  ⟨List.forall_mem_nil _, List.forall_mem_nil _, .nil⟩

theorem Step.steady (st : Step s t) (h : s.Steady) : t.Steady ∧ s.Lasts t := by
  have hquiet {t : Service} (hs : t.sessions = s.sessions) (hd : s.desk.Takes t.desk []) : t.Steady ∧ s.Lasts t :=
    ⟨h.takes hs hd (List.forall_mem_nil _), lasts_of_sessions_eq hs⟩
  cases st
  case connect => exact h.connect
  case session hm =>
    have ⟨_, _, _, ht⟩ := Turns.of_move hm
    exact h.turns ht
  case desk hd => exact h.desk hd
  case visit ht =>
    have ⟨hd, hs⟩ := takes_submit ht
    exact ⟨h.takes hs hd (List.forall_mem_singleton.mpr rfl), lasts_of_sessions_eq hs⟩
  case shutdown => exact hquiet shutdown_cases.2 shutdown_cases.1
  case link i f =>
    obtain hs | ⟨_, _, ht⟩ := s.changeLink_cases (i := i) f
    case inl => exact hquiet (congrArg sessions hs) (by rw [hs]; exact .refl)
    case inr => exact h.turns ht
  case pass | openMailbox | mailbox => exact hquiet rfl (Desk.takes_of_roster_eq rfl)
  case collect | desert => exact hquiet rfl .refl

-- Unless someone comes there are as many sessions as before.
theorem Step.length_eq (st : Step s t) (hn : ¬ st.IsArrival) : t.sessions.length = s.sessions.length := by
  have hturns {i c c' new} (ht : Turns s t i c c' new) : t.sessions.length = s.sessions.length := by
    rw [ht.sessions, List.length_set]
  cases st
  case connect => exact (hn trivial).elim
  case session hm =>
    have ⟨_, _, _, ht⟩ := Turns.of_move hm
    exact hturns ht
  case desk hd =>
    have ⟨_, _, _, _, hl, _⟩ := stepDesk_cases hd
    exact hl
  case visit ht => rw [(takes_submit ht).2]
  case shutdown => rw [shutdown_cases.2]
  case link i f =>
    obtain hs | ⟨_, _, ht⟩ := s.changeLink_cases (i := i) f
    · rw [hs]
    · exact hturns ht
  case pass | openMailbox | mailbox | collect | desert => rfl

namespace Calm

theorem single (st : Step s t) (hn : ¬ st.IsArrival) : Calm s t :=
  .step .refl st hn

theorem trans (h : Calm s t) (h' : Calm t u) : Calm s u := by
  induction h'
  case refl => exact h
  case step st hn hi => exact .step hi st hn

theorem steady (hc : Calm s t) (h : s.Steady) :
    t.Steady ∧ s.Lasts t ∧ t.sessions.length = s.sessions.length := by
  induction hc
  case refl => exact ⟨h, lasts_of_sessions_eq rfl, rfl⟩
  case step st hn hi =>
    have ⟨ht, hl, hlen⟩ := hi
    have ⟨hu, hl'⟩ := st.steady ht
    exact ⟨hu, hl.trans hl', (st.length_eq hn).trans hlen⟩

end Calm
end Service
end Parley
