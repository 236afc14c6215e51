import Parley.Proofs.Service.Grace

namespace Parley

namespace Session

-- A session that was turned away, and why.
def Stage.Refuses (r : Refusal) : Stage → Prop
  | refusing r' _ | leaving r' | finished (some r')               => r' = r
  | registering | admitted | serving | draining | finished none | broken => False

theorem Stage.Refuses.ne_registering {stage : Stage} {r : Refusal} (h : stage.Refuses r) : stage ≠ .registering := by
  rintro rfl
  exact h

-- A session that was turned away and cannot get on: its transport has no room for the close frame, or does not close.
inductive Stalls (c : Session) : Prop
  | writing {r} (hs : c.stage = .refusing r true) (ho : c.link.outcome true = .pending)
  | closing {r} (hs : c.stage = .leaving r) (hc : c.link.closeHangs = true)

variable {d : Desk} {m m' : Mailbox} {c c' : Session} {left : List Errand} {r : Refusal}

theorem Stage.Refuses.isOutside {stage : Stage} (h : stage.Refuses r) : stage.IsOutside := by
  cases stage
  case finished r => cases r <;> first | exact h.elim | trivial
  all_goals first | exact h.elim | trivial

theorem Stage.Refuses.toil_le {stage : Stage} (h : stage.Refuses r) : stage.toil ≤ 3 := by
  cases stage
  case refusing asked => cases asked <;> simp [toil]
  all_goals first | exact h.elim | simp [toil]

theorem Stalls.lifecycle_eq (h : c.Stalls) : c.stage.lifecycle = .opened := by
  cases h
  case writing hs _ | closing hs _ => rw [hs]; rfl

-- Nothing but its transport matters to a session that was turned away.
theorem Stride.refuses (h : c.Stride d m c' m') (hk : Keeps d left c) (hs : c.stage.Refuses r) :
    c'.stage.Refuses r ∧ c'.stage.toil < c.stage.toil := by
  have ⟨_, hr, hcourier, hp, _⟩ := hk.of_isOutside hs.isOutside
  have hstage {stage : Stage} (hq : c.stage = stage) : stage.Refuses r := hq ▸ hs
  cases h
  case ask hq _ =>
    have hwhy := hstage hq
    exact ⟨hwhy, hq ▸ Nat.lt_succ_self _⟩
  case dismiss asked hq _ =>
    have hwhy := hstage hq
    refine ⟨hwhy, ?_⟩
    rw [hq]
    cases asked
    · exact Nat.succ_lt_succ Nat.zero_lt_two
    · exact Nat.lt_succ_self _
  case leave hq _ =>
    have hwhy := hstage hq
    exact ⟨hwhy, hq ▸ Nat.lt_succ_self _⟩
  case serve hq | finish hq _ _ => exact (hstage hq).elim
  case bring hf => exact absurd (hcourier ▸ hf) not_forwards_idle
  case retreat hf => cases hcourier ▸ hf
  case stop hl _ | hear hl _ _ _ | reject hl _ _ | heed hl _ _ => exact nomatch hr.symm.trans hl.1
  case giveUp hq _ | take hq _ =>
    rw [hp] at hq
    cases hq
  case wait hq _ | write hq _ | close hq _ | send hq _ | lose hq _ | cease hq => cases hp.symm.trans hq

end Session

namespace Service

variable {s t u : Service} {i : Nat} {c c' : Session} {left : List Errand} {r : Refusal}

theorem Befalls.refuses (h : s.Befalls t i c c') (hk : Session.Keeps s.desk left c) (hs : c.stage.Refuses r) :
    c'.stage.Refuses r := by
  cases h
  case strides h => exact (h.stride.refuses hk hs).1
  case suffers h =>
    obtain ⟨_, rfl⟩ := h.exists_link hs.ne_registering
    exact hs

theorem Rests.stalls (h : s.Rests i) (hi : s.sessions[i]? = some c) (hs : c.stage.Refuses r) :
    c.stage = .finished (some r) ∨ c.Stalls := by
  have hn : s.stepRefusing i = none := h.idle .refuse
  simp only [stepRefusing, hi, Option.bind_eq_bind, Option.bind_some] at hn
  split at hn
  case h_1 r asked hq =>
    split at hn
    case isFalse => cases hn
    case isTrue ho =>
      split at hn
      case isFalse => cases hn
      case isTrue ha =>
        obtain rfl := ha
        exact .inr (.writing hq ho)
  case h_2 r hq =>
    split at hn
    case isFalse => cases hn
    case isTrue hc => exact .inr (.closing hq hc)
  case h_3 hw hl =>
    cases hq : c.stage
    case finished r =>
      rw [hq] at hs
      cases r
      · exact hs.elim
      · exact .inl (congrArg _ (congrArg _ hs))
    case refusing => exact absurd hq (hw _ _)
    case leaving => exact absurd hq (hl _)
    all_goals
      rw [hq] at hs
      exact hs.elim

-- Whoever was turned away waits for nothing but the transport, and for no time.
theorem lingers_of_refuses (hk : Session.Keeps s.desk left c) (hi : s.sessions[i]? = some c) (hs : c.stage.Refuses r)
    (hw : c.stage = .finished (some r) ∨ c.Stalls) (time : Nat) : s.Lingers i time := by
  have ⟨_, hr, hcourier, hp, _⟩ := hk.of_isOutside hs.isOutside
  have hl : ¬ c.reader.IsListening := fun hl => nomatch hr.symm.trans hl.1
  refine lingers_of_idle hi (fun m => ?idle) (fun n hn => ?awaits) ?timers
  case awaits =>
    obtain hn | hn := hn
    · cases hcourier.symm.trans hn
    · cases hp.symm.trans hn
  case timers =>
    simp only [Session.timers, hp, hl, if_false, List.append_nil]
    exact List.forall_mem_nil _
  case idle =>
    cases m
    case serve | refuse | finish =>
      obtain hq | ⟨hq, ho⟩ | ⟨hq, hc⟩ := hw
      · simp [stepServe, Move.apply?, stepRefusing, stepFinish, hi, hq]
      · simp [stepServe, Move.apply?, stepRefusing, stepFinish, hi, hq, ho]
      · simp [stepServe, Move.apply?, stepRefusing, stepFinish, hi, hq, hc]
    case courier => simp [stepCourier, Move.apply?, hi, hcourier, forward]
    case write => simp [stepWriter, Move.apply?, hi, hp]
    case notice => simp [stepCancelled, Move.apply?, hi, hl]
    case read => simp [stepRead, Move.apply?, hi, hl]
    case expire => simp [stepOverdue, Move.apply?, hi, hl]

theorem length_le_of_refuses {ms : List Move} (hp : s.Proper left) (hi : s.sessions[i]? = some c)
    (hs : c.stage.Refuses r) (h : s.moves? i ms = some t) : ms.length ≤ c.stage.toil := by
  induction ms generalizing s c left
  case nil => exact Nat.zero_le _
  case cons m ms hind =>
    rw [moves?, List.foldlM_cons] at h
    obtain ⟨u, hm, h⟩ := Option.bind_eq_some_iff.mp h
    obtain ⟨c₀, c', m', hst⟩ := Strides.of_move hm
    cases Option.some.inj (hi.symm.trans hst.before)
    have hk := hp.keeps c (List.mem_of_getElem? hi)
    obtain ⟨hs', hlt⟩ := hst.stride.refuses hk hs
    have hle := hind ((Step.session i m hm).proper hp).1 hst.self hs' h
    exact Nat.lt_of_le_of_lt hle hlt

theorem Prompt.refuses (later : s.Prompt i t) (hp : s.Proper left) (hi : s.sessions[i]? = some c)
    (hs : c.stage.Refuses r) : ∃ c', t.sessions[i]? = some c' ∧ c'.stage.Refuses r := by
  induction later
  case refl => exact ⟨c, hi, hs⟩
  case step later st _ hind =>
    obtain ⟨c₁, h₁, hs₁⟩ := hind
    obtain ⟨_, hp'⟩ := later.proper hp
    obtain ⟨c₂, h₂, hb⟩ := st.befalls hp' h₁
    exact ⟨c₂, h₂, hb.refuses (hp'.keeps c₁ (List.mem_of_getElem? h₁)) hs₁⟩

-- Wherever a run leads in which a session was turned away, it ends with its refusal and with nothing else, and it comes
-- to rest after three steps of its own at most.  When it rests it is over, or its transport has no room for the close
-- frame, or does not close.  In the latter case nothing but the transport gets it on: it rests as long as that does
-- nothing, however much time passes.
theorem Run.refusal_waits {farewell : String} {capacity : Nat} (run : Run (.new farewell capacity) s)
    (hi : s.sessions[i]? = some c) (hs : c.stage.Refuses r) (later : s.Prompt i u) :
    ∃ c', u.sessions[i]? = some c' ∧ c'.stage.Refuses r ∧
      (∀ ms v, u.moves? i ms = some v → ms.length ≤ 3) ∧
      (u.Rests i ↔ c'.stage = .finished (some r) ∨ c'.Stalls) ∧
      (c'.Stalls → ∀ time, u.now ≤ time → s.Prompt i (u.passTo time) ∧
        (u.passTo time).now = time ∧ (u.passTo time).sessions = u.sessions ∧ c'.stage.lifecycle = .opened) := by
  obtain ⟨hp, _⟩ := run.proper proper_new
  obtain ⟨c', hi', hs'⟩ := later.refuses hp hi hs
  obtain ⟨_, hp'⟩ := later.proper hp
  have hk := hp'.keeps c' (List.mem_of_getElem? hi')
  have hlingers := lingers_of_refuses hk hi' hs'
  refine ⟨c', hi', hs', fun ms v h => ?steps, ⟨fun h => h.stalls hi' hs', fun h => (hlingers h 0).toRests⟩,
    fun h time hle => ⟨later.pass hle (hlingers (.inr h) time), Nat.max_eq_right hle, rfl, h.lifecycle_eq⟩⟩
  case steps => exact Nat.le_trans (length_le_of_refuses hp' hi' hs' h) hs'.toil_le

-- Ann comes after everyone was told to stop, and her transport does not close.
theorem exists_stalls (grace : Nat) :
    ∃ (s t : Service) (_ : Run (.new "bye") s) (c c' : Session), s.sessions[0]? = some c ∧
      c.limits.writeGrace = grace ∧ c.stage.Refuses .shuttingDown ∧ s.Prompt 0 t ∧ s.now = t.now ∧
      t.sessions[0]? = some c' ∧ c'.Stalls := by
  let limits : Session.Limits := { Session.Limits.default with writeGrace := grace }
  let link : Session.Link := { Session.Link.new 8 with closeHangs := true }
  let s := (Service.new "bye").shutdown.connect ⟨1⟩ ⟨1, "ann"⟩ limits link
  let c := (Session.new ⟨1⟩ ⟨1, "ann"⟩ limits 0 link).refuse .shuttingDown
  let c' : Session := { c with stage := .leaving .shuttingDown, link := link.write .close false }
  have hnew : (Service.new "bye").shutdown.IsNew ⟨1⟩ := ⟨by decide, List.forall_mem_nil _, List.forall_mem_nil _⟩
  let run : Run (.new "bye") s := .step (.step .refl .shutdown) (.connect ⟨1⟩ ⟨1, "ann"⟩ limits link hnew)
  have p : s.Prompt 0 (s.setSession 0 c') := .move (m := .refuse) .refl rfl
  exact ⟨s, _, run, c, c', rfl, rfl, rfl, p, rfl, rfl, .closing rfl rfl⟩

-- Ann waits for her transport all the time.
theorem Run.refusal_waits_stalled :
    ∃ (s u : Service) (_ : Run (.new "bye") s) (c c' : Session), s.sessions[0]? = some c ∧
      c.stage.Refuses .shuttingDown ∧ s.Prompt 0 u ∧ u.sessions[0]? = some c' ∧
      ∀ time, u.now ≤ time → s.Prompt 0 (u.passTo time) ∧ (u.passTo time).sessions = u.sessions ∧
        c'.stage.lifecycle = .opened := by
  obtain ⟨s, u, run, c, c₁, hi, _, hs, p, _, h₁, hstalls⟩ := exists_stalls (millis 50)
  obtain ⟨c', hc', _, _, _, hwait⟩ := run.refusal_waits hi hs p
  obtain rfl : c₁ = c' := Option.some.inj (h₁.symm.trans hc')
  refine ⟨s, u, run, c, c₁, hi, hs, p, h₁, fun time hle => ?_⟩
  obtain ⟨hprompt, _, hsessions, hopened⟩ := hwait hstalls time hle
  exact ⟨hprompt, hsessions, hopened⟩

-- No number of times of grace is enough for whoever was turned away.
theorem Run.not_closes_in_time_refused :
    ¬ ∃ n, ∀ (s u : Service) (_ : Run (.new "bye") s) (i : Nat) (c : Session) (r : Refusal), s.sessions[i]? = some c →
      c.stage.Refuses r → s.Prompt i u → s.now + n * c.limits.writeGrace < u.now →
      ∃ c', u.sessions[i]? = some c' ∧ c'.stage = .finished (some r) := by
  rintro ⟨n, h⟩
  obtain ⟨s, u, run, c, c₁, hi, hgrace, hs, p, hnow, h₁, hstalls⟩ := exists_stalls (millis 50)
  obtain ⟨hp, _⟩ := run.proper proper_new
  obtain ⟨_, hp'⟩ := p.proper hp
  obtain ⟨c₂, h₂, hs'⟩ := p.refuses hp hi hs
  obtain rfl : c₁ = c₂ := Option.some.inj (h₁.symm.trans h₂)
  let time := u.now + n * millis 50 + 1
  have hle : u.now ≤ time := Nat.le_trans (Nat.le_add_right ..) (Nat.le_succ _)
  have hlingers := lingers_of_refuses (hp'.keeps c₁ (List.mem_of_getElem? h₁)) h₁ hs' (.inr hstalls) time
  have htime : (u.passTo time).now = time := Nat.max_eq_right hle
  have hlt : s.now + n * c.limits.writeGrace < (u.passTo time).now := by
    rw [htime, hgrace, hnow]
    exact Nat.lt_succ_self _
  obtain ⟨c', hc', hover⟩ := h s _ run 0 c .shuttingDown hi hs (p.pass hle hlingers) hlt
  obtain rfl : c₁ = c' := Option.some.inj (h₁.symm.trans hc')
  -- It is as if nothing had begun.
  have hopened := hstalls.lifecycle_eq
  rw [hover] at hopened
  cases hopened

end Service
end Parley
