import Parley.Proofs.Service.Proper
import Parley.Proofs.Session.Signature

namespace Parley

open Std

namespace Service

-- The session that leaves errands at the desk by a step, if it is one.
def Step.sender? {s t : Service} : Step s t → Option Nat
  | @connect s .. => some s.sessions.length
  | session i .. => some i
  | _ => none

-- All errands that were left at the desk, each with its sender and at the place of its number.
def Run.letters {s t : Service} : Run s t → List (Option Nat × Errand)
  | refl => []
  | @step _ t u run st => run.letters ++ (t.left u).map (st.sender?, ·)

-- The ids and identities of all sessions.
def cards (s : Service) : List (ConnectionId × Identity) :=
  s.sessions.map fun c => (c.id, c.identity)

-- Whose connection it is: that of a session, or, if no session has it, of someone else who has registered it.
inductive HasConnection (s : Service) (letters : List (Option Nat × Errand)) (v : ConnectionId) (who : Identity) : Prop
  | session (h : (v, who) ∈ s.cards)
  | visitor {e r} (h : (none, e) ∈ letters) (hr : e.command = .register r) (hv : r.id = v) (hw : r.identity = who)
      (hn : ∀ w, (v, w) ∉ s.cards)

-- All couriers and letters of sessions are signed, and nobody is in the roster as anyone else than they were
-- registered; nor does anybody else ask to be registered in the place of a session.
structure Vouched (s : Service) (letters : List (Option Nat × Errand)) : Prop where
  honest    : ∀ c ∈ s.sessions, c.IsHonest
  signed    : ∀ i e, (some i, e) ∈ letters →
    ∃ v who, s.cards[i]? = some (v, who) ∧ Session.Signs v who e.command
  roster    : ∀ v e, s.desk.exchange.roster.entry? v = some e → s.HasConnection letters v e.identity
  strangers : s.desk.stopped = false → ∀ n e v, s.desk.handled ≤ n → letters[n]? = some (none, e) →
    e.newcomer? = some v → ∀ w, (v, w) ∉ s.cards

variable {s t u : Service} {i : Nat} {c c' : Session} {letters : List (Option Nat × Errand)} {new : List Errand}
  {v : ConnectionId} {who : Identity} {l : Listing} {e : Errand} {r : Registration} {m : Option Nat}

theorem Run.map_letters (run : Run s t) : run.letters.map (·.2) = run.left := by
  induction run
  case refl => rfl
  case step st hi => rw [letters, left, List.map_append, hi, List.map_map, Function.comp_def, List.map_id']

theorem getElem?_cards : s.cards[i]? = (s.sessions[i]?).map fun c => (c.id, c.identity) :=
  List.getElem?_map

theorem Turns.cards_eq (h : Turns s t i c c' new) : t.cards = s.cards := by
  refine List.ext_getElem? fun j => ?_
  rw [getElem?_cards, getElem?_cards, h.sessions, List.getElem?_set]
  have ⟨hi, _⟩ := List.getElem?_eq_some_iff.mp h.before
  by_cases hj : i = j
  case neg => rw [if_neg hj]
  case pos =>
    subst hj
    rw [if_pos rfl, if_pos hi, h.before, Option.map_some, Option.map_some, h.turn.id_eq, h.turn.identity_eq]

theorem cards_of_stepDesk (h : s.stepDesk l = some t) : t.cards = s.cards := by
  have ⟨_, _, _, _, hl, hc⟩ := stepDesk_cases h
  refine List.ext_getElem? fun i => ?_
  rw [getElem?_cards, getElem?_cards]
  cases hi : t.sessions[i]?
  case none => rw [List.getElem?_eq_none (hl ▸ List.getElem?_eq_none_iff.mp hi)]
  case some c' =>
    obtain ⟨c, hi, rfl | ⟨ht, _⟩⟩ := hc i c' hi
    case inl => rw [hi]
    case inr =>
      rw [hi]
      cases ht <;> rfl

theorem IsNew.not_mem_cards (h : s.IsNew v) : (v, who) ∉ s.cards := by
  intro hm
  obtain ⟨c, hc, heq⟩ := List.mem_map.mp hm
  exact h.sessions c hc (congrArg Prod.fst heq)

-- Whoever has a connection has it alone.
theorem HasConnection.eq_of_session {left : List Errand} (h : s.HasConnection letters c.id who)
    (hp : s.Proper left) (hc : c ∈ s.sessions) : who = c.identity := by
  cases h
  case visitor hn => exact absurd (List.mem_map_of_mem hc) (hn _)
  case session h =>
    obtain ⟨c', hc', heq⟩ := List.mem_map.mp h
    obtain ⟨hid, rfl⟩ := Prod.mk.inj heq
    obtain ⟨i, hi⟩ := List.mem_iff_getElem?.mp hc
    obtain ⟨j, hj⟩ := List.mem_iff_getElem?.mp hc'
    obtain rfl := hp.index_eq hi hj hid.symm
    cases hi.symm.trans hj
    rfl

namespace Vouched

variable (h : s.Vouched letters)

include h

section Append

variable (hp : s.Proper (letters.map (·.2))) (hd : s.desk.Takes t.desk new)

include hp hd

-- Another session must come with a new connection; errands are left by someone who signs them, if it is a session,
-- and otherwise does not take the place of one.
theorem append {more : List (ConnectionId × Identity)} (hc : t.cards = s.cards ++ more)
    (hmore : ∀ card ∈ more, s.IsNew card.1) (hh : ∀ c ∈ t.sessions, c.IsHonest)
    (hs : ∀ i, m = some i → ∃ v who, t.cards[i]? = some (v, who) ∧ ∀ e ∈ new, Session.Signs v who e.command)
    (hn : m = none → ∀ e ∈ new, ∀ v, e.newcomer? = some v → ∀ w, (v, w) ∉ t.cards) :
    t.Vouched (letters ++ new.map (m, ·)) := by
  have hcards {v w} (hv : (v, w) ∉ s.cards) (hm : (v, w) ∈ t.cards) : s.IsNew v :=
    hmore _ ((List.mem_append.mp (hc ▸ hm)).resolve_left hv)
  refine ⟨hh, fun i e hm => ?signed, fun v e he => ?roster, fun hgo n e v hle he hv w hm => ?strangers⟩
  case signed =>
    obtain hm | hm := List.mem_append.mp hm
    case inl =>
      obtain ⟨v, who, hi, hs⟩ := h.signed i e hm
      have ⟨hlt, _⟩ := List.getElem?_eq_some_iff.mp hi
      exact ⟨v, who, hc ▸ (List.getElem?_append_left hlt).trans hi, hs⟩
    case inr =>
      obtain ⟨e', hm, heq⟩ := List.mem_map.mp hm
      cases heq
      obtain ⟨v, who, hi, hs⟩ := hs i rfl
      exact ⟨v, who, hi, hs e hm⟩
  case roster =>
    rw [hd.roster] at he
    cases h.roster v e he
    case session hm => exact .session (hc ▸ List.mem_append_left _ hm)
    case visitor hm hr hv hw hn =>
      exact .visitor (List.mem_append_left _ hm) hr hv hw fun w hm => (hcards (hn w) hm).gone (.of_some he)
  case strangers =>
    rw [hd.stopped] at hgo
    rw [hd.handled] at hle
    by_cases hlt : n < letters.length
    case pos =>
      rw [List.getElem?_append_left hlt] at he
      refine (hcards (h.strangers hgo n e v hle he hv w) hm).pending e ?_ hv
      refine List.mem_of_getElem? (i := n - s.desk.handled) ?_
      rw [← hp.books.backlog hgo, List.getElem?_drop, Nat.add_sub_cancel' hle, List.getElem?_map, he, Option.map_some]
    case neg =>
      rw [List.getElem?_append_right (Nat.not_lt.mp hlt)] at he
      obtain ⟨e', he', heq⟩ := List.mem_map.mp (List.mem_of_getElem? he)
      cases heq
      exact hn rfl e he' v hv w hm

theorem others (hs : t.sessions = s.sessions) (hn : ∀ e ∈ new, ∀ v, e.newcomer? = some v → s.IsNew v) :
    t.Vouched (letters ++ new.map (none, ·)) := by
  have hc : t.cards = s.cards := by rw [cards, hs, cards]
  refine h.append hp hd (hc.trans (List.append_nil _).symm) (List.forall_mem_nil _) (hs ▸ h.honest) nofun ?_
  exact fun _ e hm v hv w => hc ▸ (hn e hm v hv).not_mem_cards

end Append

variable (hp : s.Proper (letters.map (·.2)))

include hp

theorem turn (ht : Turns s t i c c' new) : t.Vouched (letters ++ new.map (some i, ·)) := by
  have hc := h.honest c (List.mem_of_getElem? ht.before)
  have hcard : t.cards[i]? = some (c.id, c.identity) := by rw [ht.cards_eq, getElem?_cards, ht.before]; rfl
  refine h.append hp ht.takes (ht.cards_eq.trans (List.append_nil _).symm) (List.forall_mem_nil _) (fun c'' hm => ?_)
    (fun j hj => ?_) nofun
  case refine_1 =>
    obtain ⟨j, hj⟩ := List.mem_iff_getElem?.mp hm
    obtain ⟨_, rfl⟩ | ⟨_, hj⟩ := ht.cases hj
    case inl => exact ht.turn.isHonest hc
    case inr => exact h.honest c'' (List.mem_of_getElem? hj)
  case refine_2 =>
    cases hj
    exact ⟨c.id, c.identity, hcard, ht.turn.signs hc⟩

theorem connect {limits : Session.Limits} {link : Session.Link} (hn : s.IsNew v) :
    (s.connect v who limits link).Vouched
      (letters ++ (s.left (s.connect v who limits link)).map (some s.sessions.length, ·)) := by
  obtain ⟨c, new, hc, hs, hd, hnew⟩ := s.connect_cases v who limits link
  have hcards : (s.connect v who limits link).cards = s.cards ++ [(v, who)] := by
    rw [cards, hs, List.map_append, List.map_singleton, hc.id, hc.identity, cards]
  rw [left_of_takes hd]
  refine h.append hp hd hcards (List.forall_mem_singleton.mpr hn) (fun c' hm => ?_) (fun i hi => ?_) nofun
  case refine_1 =>
    rw [hs] at hm
    obtain hm | hm := List.mem_append.mp hm
    case inl => exact h.honest c' hm
    case inr => exact List.mem_singleton.mp hm ▸ hc.isHonest
  case refine_2 =>
    cases hi
    refine ⟨v, who, ?card, ?_⟩
    case card =>
      have hl : s.cards.length = s.sessions.length := List.length_map _
      rw [hcards, ← hl, List.getElem?_concat_length]
    obtain rfl | ⟨_, rfl⟩ := hnew
    · exact List.forall_mem_nil _
    · exact List.forall_mem_singleton.mpr (.registration _)

-- Whoever the exchange knows while it handles an errand has a connection.
theorem hasConnection_of_identity? {backlog : List Errand} (hs : s.desk.stopped = false)
    (hq : s.desk.backlog = e :: backlog) (hi : s.desk.exchange.identity? e.command v = some who) :
    s.HasConnection letters v who := by
  obtain ⟨r, hr, rfl, rfl⟩ | ⟨entry, he, rfl⟩ := Exchange.identity?_cases hi
  case inr => exact h.roster v entry he
  case inl =>
    -- Whoever comes is a session, or takes the place of none.
    obtain ⟨⟨m, _⟩, hm, rfl⟩ :=
      Option.map_eq_some_iff.mp (List.getElem?_map ▸ hp.books.getElem?_handled hq hs)
    cases m
    case none =>
      have hv := Desk.newcomer?_eq_some_iff.mpr ⟨r, hr, rfl⟩
      exact .visitor (List.mem_of_getElem? hm) hr rfl rfl (h.strangers hs _ _ _ (Nat.le_refl _) hm hv)
    case some i =>
      obtain ⟨v, who, hc, hs⟩ := h.signed i _ (List.mem_of_getElem? hm)
      rw [hr] at hs
      obtain ⟨rfl, rfl⟩ := hs.eq_of_register
      exact .session (List.mem_of_getElem? hc)

theorem desk (hd : s.stepDesk l = some t) : t.Vouched letters := by
  have hc : t.cards = s.cards := cards_of_stepDesk hd
  obtain ⟨rs, d, hs, ht, _, hsessions⟩ := stepDesk_cases hd
  have hd := Desk.precedes_step hs
  refine ⟨fun c' hm => ?honest, hc ▸ h.signed, fun v e he => ?roster, fun hgo n e v hn => ?strangers⟩
  case honest =>
    obtain ⟨i, hi⟩ := List.mem_iff_getElem?.mp hm
    obtain ⟨c, hi, rfl | ⟨hw, _⟩⟩ := hsessions i c' hi
    case inl => exact h.honest c' (List.mem_of_getElem? hi)
    case inr => exact hw.isHonest (h.honest c (List.mem_of_getElem? hi))
  case strangers =>
    rw [hc]
    exact h.strangers (hd.goesOn (ht.stopped ▸ hgo)) n e v (Nat.le_trans hd.handled (ht.handled ▸ hn))
  case roster =>
    suffices hs : s.HasConnection letters v e.identity by
      cases hs
      case session hm => exact .session (hc ▸ hm)
      case visitor hm hr hv hw hn => exact .visitor hm hr hv hw (hc ▸ hn)
    rw [ht.roster] at he
    obtain ⟨hgo, ⟨errand, _, _, hb, _, rfl⟩ | ⟨_, hd⟩⟩ := Desk.step_eq_some hs
    case inl =>
      have hi := Exchange.identity?_of_handle hp.books.roster (hp.books.admits hb) he
      exact h.hasConnection_of_identity? hp hgo hb hi
    case inr =>
      -- At the end everyone is let go.
      cases hd
      simp [Exchange.roster_closeAll, Roster.entry?_empty] at he

end Vouched

theorem vouched_new {farewell : String} {capacity : Nat} : (Service.new farewell capacity).Vouched [] := by
  refine ⟨List.forall_mem_nil _, fun _ _ hm => absurd hm List.not_mem_nil, fun v e he => ?_, fun _ _ _ _ _ hn => ?_⟩
  case refine_1 => cases Roster.entry?_empty.symm.trans he
  case refine_2 => cases hn

theorem Step.vouched (st : Step s t) (hp : s.Proper (letters.map (·.2))) (h : s.Vouched letters) :
    t.Vouched (letters ++ (s.left t).map (st.sender?, ·)) := by
  have hquiet (hs : t.sessions = s.sessions) (hd : s.desk.Takes t.desk []) :
      t.Vouched (letters ++ (s.left t).map (none, ·)) :=
    left_of_takes hd ▸ h.others hp hd hs (List.forall_mem_nil _)
  cases st
  case connect hn => exact h.connect hp hn
  case session hm =>
    obtain ⟨_, _, _, ht⟩ := Turns.of_move hm
    exact left_of_takes ht.takes ▸ h.turn hp ht
  case desk hd =>
    rw [left_desk hd, List.map_nil, List.append_nil]
    exact h.desk hp hd
  case visit hn ht =>
    obtain ⟨hd, hs⟩ := takes_submit ht
    refine left_of_takes hd ▸ h.others hp hd hs (List.forall_mem_singleton.mpr fun v hv => ?_)
    obtain ⟨r, hr, rfl⟩ := Desk.newcomer?_eq_some_iff.mp hv
    exact hn r hr
  case shutdown => exact hquiet shutdown_cases.2 shutdown_cases.1
  case link i f =>
    obtain hs | ⟨_, _, ht⟩ := s.changeLink_cases (i := i) f
    case inl => exact hquiet (congrArg sessions hs) (by rw [hs]; exact .refl)
    case inr =>
      have ht' := h.turn hp ht
      rw [left_of_takes ht.takes]
      exact ht'
  case pass | openMailbox | mailbox => exact hquiet rfl (Desk.takes_of_roster_eq rfl)
  case collect | desert => exact hquiet rfl .refl

theorem Run.vouched (run : Run s t) (hp : s.Proper []) (h : s.Vouched []) :
    t.Proper (run.letters.map (·.2)) ∧ t.Vouched run.letters := by
  rw [map_letters]
  refine ⟨(run.proper hp).1, ?_⟩
  induction run
  case refl => exact h
  case step run st hi =>
    refine st.vouched ?_ hi
    rw [map_letters]
    exact (run.proper hp).1

end Service
end Parley
