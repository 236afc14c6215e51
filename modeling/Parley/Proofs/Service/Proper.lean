import Parley.Proofs.Service.Books

namespace Parley

open Std

namespace Service

-- The books are in order, every session is where it should be with the removal of its connection, and whoever waits
-- to be admitted does nothing else.
structure Proper (s : Service) (left : List Errand) : Prop where
  books : s.desk.Books left (s.sessions.map (·.id))
  keeps : ∀ c ∈ s.sessions, Session.Keeps s.desk left c
  waits : ∀ c ∈ s.sessions, ∀ e ∈ s.desk.backlog, e.newcomer? = some c.id → c.stage = .registering

-- Sessions come and stay, and none is set back; nor is the desk.
structure Advances (s t : Service) : Prop where
  desk     : s.desk.Precedes t.desk
  sessions : ∀ (i : Nat) (c : Session), s.sessions[i]? = some c →
    ∃ c' : Session, t.sessions[i]? = some c' ∧ c'.id = c.id ∧ c.stage.lifecycle.rank ≤ c'.stage.lifecycle.rank

variable {s t u : Service} {i j : Nat} {c c' : Session} {left new : List Errand} {l : Listing} {e : Errand}
  {v : ConnectionId} {c'' : Session}

theorem Advances.of_sessions_eq (hd : s.desk.Precedes t.desk) (hs : t.sessions = s.sessions) : s.Advances t :=
  ⟨hd, fun _ c hc => ⟨c, hs ▸ hc, rfl, Nat.le_refl _⟩⟩

theorem Advances.trans (h : s.Advances t) (h' : t.Advances u) : s.Advances u := by
  refine ⟨h.desk.trans h'.desk, fun i c hc => ?_⟩
  have ⟨c', hc', hi, hr⟩ := h.sessions i c hc
  have ⟨c'', hc'', hi', hr'⟩ := h'.sessions i c' hc'
  exact ⟨c'', hc'', hi'.trans hi, Nat.le_trans hr hr'⟩

theorem Turns.map_id (h : Turns s t i c c' new) : t.sessions.map (·.id) = s.sessions.map (·.id) := by
  have ⟨_, hi⟩ := List.getElem?_eq_some_iff.mp h.before
  calc
    t.sessions.map (·.id) = (s.sessions.map (·.id)).set i c'.id := by rw [h.sessions, List.map_set]
    _ = (s.sessions.set i c).map (·.id) := by rw [h.turn.id_eq, List.map_set]
    _ = s.sessions.map (·.id) := by rw [← hi, List.set_getElem_self]

namespace Proper

variable (h : s.Proper left)

include h

theorem index_eq (hi : s.sessions[i]? = some c) (hj : s.sessions[j]? = some c') (hc : c.id = c'.id) : i = j := by
  have ⟨hlt, _⟩ := List.getElem?_eq_some_iff.mp hi
  refine (List.getElem?_inj (by simpa using hlt) h.books.apart).mp ?_
  rw [List.getElem?_map, List.getElem?_map, hi, hj, Option.map_some, Option.map_some, hc]

-- Whoever's removal was sent for does not wait to be admitted.
theorem unsent (he : e ∈ s.desk.backlog) (hn : e.newcomer? = some v) : ⟨.unregister v, none⟩ ∉ left := by
  intro hm
  have ⟨v', hi, hid⟩ := (h.books.senders _ hm rfl).resolve_left fun hr => hr
  have ⟨c, hc, hid'⟩ := List.mem_map.mp hi
  cases hid
  subst hid'
  exact (h.keeps c hc).unsent (h.waits c hc e he hn) hm

theorem takes (hs : t.sessions = s.sessions) (hd : s.desk.Takes t.desk new)
    (hn : s.desk.Expects (s.sessions.map (·.id)) new) (hc : ∀ e ∈ new, e.caller ≠ none)
    (hw : ∀ e ∈ new, ∀ c ∈ s.sessions, e.newcomer? = some c.id → c.stage = .registering) :
    t.Proper (left ++ new) where
  books := hs ▸ h.books.takes hd hn
  keeps c hm := (h.keeps c (hs ▸ hm)).mono hd.precedes fun hr => hc _ hr rfl
  waits c hm e he := by
    cases List.mem_append.mp (hd.backlog ▸ he)
    case inl he => exact h.waits c (hs ▸ hm) e he
    case inr he => exact hw e he c (hs ▸ hm)

theorem takes_nil (hs : t.sessions = s.sessions) (hd : s.desk.Takes t.desk []) : t.Proper left :=
  List.append_nil left ▸
    h.takes hs hd Desk.expects_nil (List.forall_mem_nil _) (List.forall_mem_nil _)

theorem append (hn : s.IsNew c.id) (hk : ∀ d left, c.removal ∉ left → Session.Keeps d left c) :
    Proper { s with sessions := s.sessions ++ [c] } left := by
  have hid : c.id ∉ s.sessions.map (·.id) := by
    intro hm
    have ⟨c', hc', hid⟩ := List.mem_map.mp hm
    exact hn.sessions c' hc' hid
  refine ⟨?books, List.forall_mem_append.mpr ⟨h.keeps, List.forall_mem_singleton.mpr (hk _ _ fun hm => ?keeps)⟩,
    List.forall_mem_append.mpr ⟨h.waits, List.forall_mem_singleton.mpr fun e he hc => ?waits⟩⟩
  case books =>
    rw [List.map_append]
    exact h.books.append hid
  case keeps =>
    -- Only sessions send for a removal, each for its own.
    have ⟨v, hi, hv⟩ := (h.books.senders _ hm rfl).resolve_left fun hr => hr
    cases hv
    exact hid hi
  case waits => exact absurd hc (hn.pending e he)

theorem connect {identity : Identity} {limits : Session.Limits} {link : Session.Link} (hn : s.IsNew v) :
    (s.connect v identity limits link).Proper (left ++ s.left (s.connect v identity limits link)) := by
  have ⟨c, new, hc, hs, hd, hnew⟩ := s.connect_cases v identity limits link
  obtain rfl := hc.id
  rw [left_of_takes hd]
  have h := h.append hn fun _ _ => hc.keeps
  obtain rfl | ⟨hr, rfl⟩ := hnew
  case inl => exact (List.append_nil left).symm ▸ h.takes_nil hs hd
  case inr =>
    have hr' {id} (hi : some c.id = some id) : id = c.id := (Option.some.inj hi).symm
    refine h.takes hs hd ⟨List.pairwise_singleton .., ?fresh, ?callers, ?senders⟩ ?called ?registering <;>
      refine List.forall_mem_singleton.mpr ?_
    case fresh => exact fun _ hi => hr' hi ▸ ⟨hn.gone, hn.pending⟩
    case callers =>
      intro i hi
      cases hi
      exact ⟨c.id, by simp, rfl⟩
    case senders => exact nofun
    case called => exact nofun
    case registering =>
      refine List.forall_mem_append.mpr ⟨fun c' hc' hi => ?_, List.forall_mem_singleton.mpr fun _ => hr⟩
      exact absurd (hr' hi) (hn.sessions c' hc')

-- Nobody is registered by a session's turn, and nobody waits for the outcome of what it leaves at the desk.
theorem uncalled_of_turns (ht : Turns s t i c c' new) : ∀ e ∈ new, e.caller = none ∧ e.newcomer? = none := by
  intro e hm
  obtain rfl | ⟨hcaller, hr⟩ := ht.turn.errands (h.keeps c (List.mem_of_getElem? ht.before)) e hm
  case inl => exact ⟨rfl, rfl⟩
  case inr =>
    refine ⟨hcaller, ?_⟩
    cases hc : e.command <;> simp_all [Errand.newcomer?, Command.IsRequest]

theorem expects_of_turns (ht : Turns s t i c c' new) : s.desk.Expects (s.sessions.map (·.id)) new := by
  have hnew := h.uncalled_of_turns ht
  have hc := List.mem_of_getElem? ht.before
  refine ⟨?newcomers, fun e hm id hi => ?fresh, fun e hm i hi => ?callers, fun e hm _ => ?senders⟩
  case newcomers => exact List.filterMap_eq_nil_iff.mpr (fun e hm => (hnew e hm).2) ▸ .nil
  case fresh => cases (hnew e hm).2.symm.trans hi
  case callers => cases (hnew e hm).1.symm.trans hi
  case senders =>
    obtain rfl | ⟨_, hr⟩ := ht.turn.errands (h.keeps c hc) e hm
    · exact .inr ⟨c.id, List.mem_map_of_mem hc, rfl⟩
    · exact .inl hr

-- A session's turn does not remove the connection of another.
theorem removal_mem_of_turns (ht : Turns s t i c c' new) (hj : s.sessions[j]? = some c'') (hij : i ≠ j)
    (hm : c''.removal ∈ new) : c''.removal.command.IsRequest := by
  obtain hr | ⟨_, hr⟩ := ht.turn.errands (h.keeps c (List.mem_of_getElem? ht.before)) _ hm
  case inr => exact hr
  case inl =>
    have hid : c.id = c''.id := by simpa [Session.removal] using hr.symm
    exact absurd (h.index_eq ht.before hj hid) hij

theorem turn (ht : Turns s t i c c' new) : t.Proper (left ++ new) := by
  have hc := List.mem_of_getElem? ht.before
  have hk := h.keeps c hc
  have hn := h.expects_of_turns ht
  refine ⟨ht.map_id ▸ h.books.takes ht.takes hn, fun c'' hm => ?keeps, fun c'' hm e he hi => ?waits⟩
  case keeps =>
    obtain ⟨j, hj⟩ := List.mem_iff_getElem?.mp hm
    obtain ⟨_, rfl⟩ | ⟨hij, hj⟩ := ht.cases hj
    case inl => exact hk.turn ht.takes.precedes h.books.number_eq ht.turn
    case inr =>
      exact (h.keeps c'' (List.mem_of_getElem? hj)).mono ht.takes.precedes (h.removal_mem_of_turns ht hj hij)
  case waits =>
    have he : e ∈ s.desk.backlog := by
      refine (List.mem_append.mp (ht.takes.backlog ▸ he)).resolve_right fun hm => ?_
      cases (h.uncalled_of_turns ht e hm).2.symm.trans hi
    obtain ⟨j, hj⟩ := List.mem_iff_getElem?.mp hm
    obtain ⟨_, rfl⟩ | ⟨_, hj⟩ := ht.cases hj
    case inl => exact (ht.turn.registering_iff hk).mpr (h.waits c hc e he (ht.turn.id_eq ▸ hi))
    case inr => exact h.waits c'' (List.mem_of_getElem? hj) e he hi

theorem turn_advances (ht : Turns s t i c c' new) : s.Advances t := by
  refine ⟨ht.takes.precedes, fun j c₀ hj => ?_⟩
  by_cases hij : i = j
  case neg => exact ⟨c₀, (ht.other hij).trans hj, rfl, Nat.le_refl _⟩
  case pos =>
    subst hij
    cases ht.before.symm.trans hj
    exact ⟨c', ht.self, ht.turn.id_eq, ht.turn.rank_le (h.keeps c (List.mem_of_getElem? hj))⟩

-- Only those who waited to be admitted are told anything, and they wait no more.
theorem waiting_of_mem_replies {d : Desk} {rs : Desk.Replies} {attended : Bool} {r : Caller × Reply}
    (hd : s.desk.step l attended = some (rs, d)) (hi : s.sessions[i]? = some c) (hm : r ∈ rs)
    (hr : r.1 = .session i) :
    c.stage = .registering ∧ ∀ e ∈ d.backlog, e.newcomer? ≠ some c.id := by
  have ⟨e, he, hcaller, hb⟩ := Desk.exists_caller hd hm
  have ⟨v, hv, hn⟩ := h.books.callers e he i (hr ▸ hcaller)
  rw [List.getElem?_map, hi] at hv
  cases hv
  refine ⟨h.waits c (List.mem_of_getElem? hi) e he hn, ?_⟩
  cases hb
  case inr hb => exact hb ▸ List.forall_mem_nil _
  case inl hb =>
    intro e' he' hn'
    have hnew := h.books.newcomers
    rw [hb, List.filterMap_cons, hn] at hnew
    exact (List.nodup_cons.mp hnew).1 (List.mem_filterMap.mpr ⟨e', he', hn'⟩)

theorem books_step {d : Desk} {rs : Desk.Replies} {attended : Bool}
    (hd : s.desk.step l attended = some (rs, d)) : d.Books left (s.sessions.map (·.id)) := by
  obtain ⟨hs, ⟨e, _, _, hb, _, rfl⟩ | ⟨_, hd⟩⟩ := Desk.step_eq_some hd
  case inl => exact h.books.handle hs hb fun v hv => h.unsent (hb ▸ List.mem_cons_self) hv
  case inr =>
    cases hd
    exact h.books.stop

-- A step of the desk leaves a session as it is, or lets it know what has become of its registration.
theorem told_of_stepDesk (hd : s.stepDesk l = some t) (hi : t.sessions[i]? = some c') :
    ∃ c, s.sessions[i]? = some c ∧ (c' = c ∨
      c.Told c' ∧ c.stage = .registering ∧ ∀ e ∈ t.desk.backlog, e.newcomer? ≠ some c.id) := by
  have ⟨rs, d, hd, ht, _, hc⟩ := stepDesk_cases hd
  have hb : t.desk.backlog = d.backlog := ht.backlog.trans (List.append_nil _)
  have ⟨c, hi, hc'⟩ := hc i c' hi
  refine ⟨c, hi, hc'.imp id fun ⟨hw, r, hm, hr⟩ => ⟨hw, ?_⟩⟩
  exact hb ▸ h.waiting_of_mem_replies hd hi hm hr

theorem map_id_of_stepDesk (hd : s.stepDesk l = some t) :
    t.sessions.map (·.id) = s.sessions.map (·.id) := by
  have ⟨_, _, _, _, hl, _⟩ := stepDesk_cases hd
  refine List.ext_getElem? fun i => ?_
  rw [List.getElem?_map, List.getElem?_map]
  cases hi : t.sessions[i]?
  case none => rw [List.getElem?_eq_none (hl ▸ List.getElem?_eq_none_iff.mp hi)]
  case some c' =>
    have ⟨c, hi, hc'⟩ := h.told_of_stepDesk hd hi
    rw [hi]
    obtain rfl | ⟨hw, _⟩ := hc'
    · rfl
    · exact congrArg some hw.id_eq

theorem desk_advances (hd : s.stepDesk l = some t) : s.Advances t := by
  have ⟨_, _, hs, ht, hl, _⟩ := stepDesk_cases hd
  refine ⟨(Desk.precedes_step hs).trans ht.precedes, fun i c hi => ?_⟩
  have ⟨hlt, _⟩ := List.getElem?_eq_some_iff.mp hi
  have hi' := List.getElem?_eq_getElem (hl ▸ hlt)
  refine ⟨_, hi', ?_⟩
  have ⟨c₀, hi₀, hc'⟩ := h.told_of_stepDesk hd hi'
  cases hi.symm.trans hi₀
  obtain hc' | ⟨hw, hr, _⟩ := hc'
  · exact hc'.symm ▸ ⟨rfl, Nat.le_refl _⟩
  · exact ⟨hw.id_eq, hr ▸ Nat.zero_le _⟩

theorem desk (hd : s.stepDesk l = some t) : t.Proper left := by
  have ⟨rs, d, hs, ht, _⟩ := stepDesk_cases hd
  refine ⟨?books, fun c' hm => ?keeps, fun c' hm e he hn => ?waits⟩
  case books =>
    have hb := (h.books_step hs).takes ht Desk.expects_nil
    exact h.map_id_of_stepDesk hd ▸ List.append_nil left ▸ hb
  case keeps =>
    have ⟨i, hi⟩ := List.mem_iff_getElem?.mp hm
    have ⟨c, hi, hc'⟩ := h.told_of_stepDesk hd hi
    have hk := (h.keeps c (List.mem_of_getElem? hi)).mono (h.desk_advances hd).desk
      (List.not_mem_nil (a := c.removal))
    rw [List.append_nil] at hk
    obtain rfl | ⟨hw, hr, _⟩ := hc'
    · exact hk
    · exact hk.told hr hw
  case waits =>
    have ⟨i, hi⟩ := List.mem_iff_getElem?.mp hm
    have ⟨c, hi, hc'⟩ := h.told_of_stepDesk hd hi
    obtain rfl | ⟨hw, _, hnew⟩ := hc'
    case inr => exact absurd (hw.id_eq ▸ hn) (hnew e he)
    case inl =>
      have hb : t.desk.backlog = d.backlog := ht.backlog.trans (List.append_nil _)
      exact h.waits c' (List.mem_of_getElem? hi) e ((Desk.backlog_step hs).subset (hb ▸ he)) hn

theorem quiet (hs : t.sessions = s.sessions) (hd : s.desk.Takes t.desk []) :
    t.Proper (left ++ s.left t) ∧ s.Advances t := by
  rw [left_of_takes hd, List.append_nil]
  exact ⟨h.takes_nil hs hd, .of_sessions_eq hd.precedes hs⟩

theorem visit {ticket : Nat} {a : Command} (ht : s.submit ⟨a, some (.visitor ticket)⟩ = .ok t)
    (hn : ∀ r, a = .register r → s.IsNew r.id) : t.Proper (left ++ s.left t) ∧ s.Advances t := by
  have ⟨hd, hs⟩ := takes_submit ht
  have hnew {v} (hv : Errand.newcomer? ⟨a, some (.visitor ticket)⟩ = some v) : s.IsNew v := by
    have ⟨r, hr, hv⟩ := Desk.newcomer?_eq_some_iff.mp hv
    exact hv ▸ hn r hr
  rw [left_of_takes hd]
  refine ⟨h.takes hs hd ⟨?newcomers, ?fresh, ?callers, ?senders⟩ ?called ?registering,
    .of_sessions_eq hd.precedes hs⟩
  case newcomers =>
    rw [List.filterMap_cons]
    split
    · exact .nil
    · exact List.pairwise_singleton ..
  all_goals refine List.forall_mem_singleton.mpr ?_
  case fresh => exact fun _ hv => ⟨(hnew hv).gone, (hnew hv).pending⟩
  case callers | senders | called => exact nofun
  case registering => exact fun c hc hv => absurd rfl ((hnew hv).sessions c hc)

end Proper

theorem Step.proper (st : Step s t) (h : s.Proper left) : t.Proper (left ++ s.left t) ∧ s.Advances t := by
  have hturn {i c c' new} (ht : Turns s t i c c' new) : t.Proper (left ++ s.left t) ∧ s.Advances t := by
    rw [left_of_takes ht.takes]
    exact ⟨h.turn ht, h.turn_advances ht⟩
  cases st
  case connect id identity limits link hn =>
    have ⟨_, _, _, hs, hd, _⟩ := s.connect_cases id identity limits link
    refine ⟨h.connect hn, hd.precedes, fun i c hc => ?_⟩
    have ⟨hlt, _⟩ := List.getElem?_eq_some_iff.mp hc
    exact ⟨c, hs ▸ (List.getElem?_append_left hlt).trans hc, rfl, Nat.le_refl _⟩
  case session hm =>
    have ⟨_, _, _, ht⟩ := Turns.of_move hm
    exact hturn ht
  case desk hd =>
    rw [left_desk hd, List.append_nil]
    exact ⟨h.desk hd, h.desk_advances hd⟩
  case visit hn ht => exact h.visit ht hn
  case shutdown => exact h.quiet shutdown_cases.2 shutdown_cases.1
  case link i f =>
    obtain hs | ⟨_, _, ht⟩ := s.changeLink_cases (i := i) f
    case inl => exact h.quiet (congrArg sessions hs) (by rw [hs]; exact .refl)
    case inr => exact hturn ht
  case pass | openMailbox | mailbox => exact h.quiet rfl (Desk.takes_of_roster_eq rfl)
  case collect | desert => exact h.quiet rfl .refl

namespace Run

theorem proper (run : Run s t) (h : s.Proper left) : t.Proper (left ++ run.left) ∧ s.Advances t := by
  induction run
  case refl =>
    rw [Run.left, List.append_nil]
    exact ⟨h, .of_sessions_eq .refl rfl⟩
  case step run st hi =>
    have ⟨hp, ha⟩ := hi
    have ⟨hp', ha'⟩ := st.proper hp
    rw [Run.left, ← List.append_assoc]
    exact ⟨hp', ha.trans ha'⟩

end Run

theorem proper_new {farewell : String} {capacity : Nat} : (Service.new farewell capacity).Proper [] where
  books := ⟨Roster.consistent_empty, Nat.le_refl _, fun _ => rfl, fun _ => rfl, .nil, .nil, List.forall_mem_nil _,
    List.forall_mem_nil _, List.forall_mem_nil _, nofun⟩
  keeps := List.forall_mem_nil _
  waits := List.forall_mem_nil _

end Service
end Parley
