import Parley.Proofs.Service.Letters
import Parley.Proofs.Service.Strides

namespace Parley

open Std

namespace Exchange

variable {x : Exchange} {c : Command} {l : Listing} {v : ConnectionId} {e : Entry}

-- Whoever is there after a command was there before with the same mailbox, or came with it.
theorem entry?_handle_cases (h : x.roster.Consistent) (ha : x.Admits c)
    (he : (x.handle l c).roster.entry? v = some e) :
    c = .register ⟨v, e.identity, e.mailbox⟩ ∨
      x.target? c ≠ some v ∧ ∃ e', x.roster.entry? v = some e' ∧ e'.identity = e.identity ∧ e'.mailbox = e.mailbox := by
  rw [handle, ← (cascade l (x.perform l c)).last_eq_settle, Cascade.entry?_last] at he
  split at he
  case isTrue => cases he
  case isFalse =>
    have ht := ((isLive_perform h ha).mp (.of_some he)).1
    -- Rooms apart, an entry is who someone is and which mailbox they have.
    let card (e : Entry) : Identity × Nat := (e.identity, e.mailbox)
    have hold {o : Option Entry} (ho : some (card e) = o.map card) :
        ∃ e', o = some e' ∧ e'.identity = e.identity ∧ e'.mailbox = e.mailbox := by
      obtain ⟨e', he', heq⟩ := Option.map_eq_some_iff.mp ho.symm
      exact ⟨e', he', (Prod.mk.inj heq).1, (Prod.mk.inj heq).2⟩
    have hcard := congrArg (Option.map card) he
    rw [perform_roster] at he hcard
    cases c
    case post | query => exact .inr ⟨ht, e, he, rfl, rfl⟩
    case join id room =>
      simp only [nextRoster] at hcard
      split at hcard
      case isTrue => exact .inr ⟨ht, hold (hcard.symm.trans (Roster.map_entry?_join card fun _ _ => rfl))⟩
      case isFalse => exact .inr ⟨ht, hold hcard.symm⟩
    case leave id room => exact .inr ⟨ht, hold (hcard.symm.trans (Roster.map_entry?_leave card fun _ _ => rfl))⟩
    case unregister id =>
      rw [nextRoster, Roster.entry?_remove] at he
      split at he
      case isTrue => cases he
      case isFalse => exact .inr ⟨ht, e, he, rfl, rfl⟩
    case register r =>
      rw [nextRoster, Roster.entry?_insert] at he
      split at he
      case isTrue hv =>
        subst hv
        cases he
        exact .inl rfl
      case isFalse =>
        rw [Roster.entry?_vacate] at he
        split at he
        case isTrue => cases he
        case isFalse => exact .inr ⟨ht, e, he, rfl, rfl⟩

end Exchange

-- Someone in the roster whose registration was handled, in the place of a certain number, and whose name was given to
-- nobody else since.
structure Entry.IsFiled (entry : Entry) (v : ConnectionId) (n handled : Nat) (letters : List (Option Nat × Errand)) :
    Prop where
  past   : n < handled
  letter : ∃ m e, letters[n]? = some (m, e) ∧ e.command = .register ⟨v, entry.identity, entry.mailbox⟩
  last   : ∀ n' m e r, letters[n']? = some (m, e) → e.command = .register r → n < n' → n' < handled →
    r.identity.name ≠ entry.identity.name

theorem Entry.IsFiled.append {entry : Entry} {v : ConnectionId} {n handled : Nat}
    {letters more : List (Option Nat × Errand)} (h : entry.IsFiled v n handled letters)
    (hle : handled ≤ letters.length) : entry.IsFiled v n handled (letters ++ more) := by
  have hold {n' : Nat} (hlt : n' < handled) : (letters ++ more)[n']? = letters[n']? :=
    List.getElem?_append_left (Nat.lt_of_lt_of_le hlt hle)
  have ⟨hn, ⟨m, e, hm, hr⟩, hlast⟩ := h
  exact ⟨hn, ⟨m, e, (hold hn).trans hm, hr⟩, fun n' m e r hm hr hlt hlt' => hlast n' m e r (hold hlt' ▸ hm) hr hlt hlt'⟩

namespace Session

-- A session that was turned away, or is over before it began.
def Stage.IsBarred : Stage → Prop
  | refusing .. | leaving _ | finished (some _) | broken              => True
  | registering | admitted | serving | draining | finished none => False

-- A session whose registration is among the letters, in the place of a certain number.  Nobody else is registered in
-- its place afterwards, and it asks for nothing before.
structure IsFiled (c : Session) (i n : Nat) (letters : List (Option Nat × Errand)) : Prop where
  letter : letters[n]? = some (some i, c.registration i)
  last   : ∀ n' m e r, letters[n']? = some (m, e) → e.command = .register r → r.id = c.id → n' ≤ n
  first  : ∀ n' e, letters[n']? = some (some i, e) → e.command.IsRequest → n < n'

variable {d : Desk} {c c' : Session} {i n : Nat} {letters : List (Option Nat × Errand)} {left new : List Errand}
  {m : Option Nat}

theorem Stage.eq_registering {stage : Stage} (hr : ¬ stage.IsRegistered) (hb : ¬ stage.IsBarred) :
    stage = .registering := by
  cases stage
  case registering => rfl
  case finished r => cases r <;> exact absurd trivial (by assumption)
  case admitted | serving | draining => exact absurd trivial hr
  case refusing | leaving | broken => exact absurd trivial hb

theorem Stage.IsRefusal.isBarred {stage : Stage} (h : stage.IsRefusal) : stage.IsBarred := by
  cases stage
  case finished r => cases r <;> exact h
  case refusing | leaving | broken => trivial
  all_goals exact h.elim

-- Whoever is barred stays so, and leaves nothing at the desk.
theorem Turn.isBarred (t : Turn d c c' new) (h : Keeps d left c) (hs : c.stage.IsBarred) :
    c'.stage.IsBarred ∧ new = [] := by
  have hout : c.stage.IsOutside := by
    cases hq : c.stage <;> rw [hq] at hs <;> first | exact hs.elim | trivial | skip
    case finished r => cases r <;> first | exact hs.elim | trivial
  have ⟨_, hr, hk, hp, _⟩ := h.of_isOutside hout
  have hrun (hl : c.reader.running = true) : False := nomatch hr.symm.trans hl
  cases t
  case stay ha => exact ⟨ha.stage ▸ hs, rfl⟩
  case serve hq => rw [hq] at hs; exact hs.elim
  case request hl _ _ | readerStops hl => exact (hrun hl.1).elim
  case readerForwards hf => exact absurd (hk ▸ hf) not_forwards_idle
  case readerRefused => exact ⟨hs, rfl⟩
  case readerGivesUp hl => exact (hrun hl).elim
  case writerStops hw => rw [hp] at hw; exact hw.elim
  case writerForwards hw _ | writerRefused hw _ | writerEnds hw => cases hp.symm.trans hw
  case refuse hs' _ => exact ⟨hs'.isBarred, rfl⟩
  case finish hq _ _ => rw [hq] at hs; exact hs.elim

theorem IsFiled.append (h : c.IsFiled i n letters) (hc : c'.registration i = c.registration i)
    (hn : ∀ e ∈ new, ∀ r, e.command = .register r → r.id ≠ c.id) : c'.IsFiled i n (letters ++ new.map (m, ·)) := by
  have ⟨hid, _⟩ : c'.id = c.id ∧ c'.identity = c.identity ∧ c'.mailbox = c.mailbox := by
    simpa [registration] using hc
  have ⟨hlt, _⟩ := List.getElem?_eq_some_iff.mp h.letter
  have hnew {n' : Nat} {card : Option Nat × Errand} (hge : ¬ n' < letters.length)
      (hm : (letters ++ new.map (m, ·))[n']? = some card) : card.2 ∈ new := by
    rw [List.getElem?_append_right (Nat.not_lt.mp hge)] at hm
    obtain ⟨e, he, rfl⟩ := List.mem_map.mp (List.mem_of_getElem? hm)
    exact he
  refine ⟨?letter, fun n' m' e r hm hr hi => ?last, fun n' e hm he => ?first⟩
  case letter => rw [List.getElem?_append_left hlt, h.letter, hc]
  case last =>
    by_cases hlt' : n' < letters.length
    case pos => exact h.last n' m' e r (List.getElem?_append_left hlt' ▸ hm) hr (hi.trans hid)
    case neg => exact absurd (hi.trans hid) (hn e (hnew hlt' hm) r hr)
  case first =>
    by_cases hlt' : n' < letters.length
    case pos => exact h.first n' e (List.getElem?_append_left hlt' ▸ hm) he
    case neg => exact Nat.lt_of_lt_of_le hlt (Nat.not_lt.mp hlt')

-- Of those who were registered under one name, the one who has it was registered last.
theorem IsFiled.le_of_entry {entry : Entry} {v : ConnectionId} {n' handled : Nat} (h : c.IsFiled i n letters)
    (he : entry.IsFiled v n' handled letters) (hn : n < handled) (hname : entry.identity.name = c.identity.name) :
    n ≤ n' :=
  Nat.not_lt.mp fun hlt => he.last n _ _ _ h.letter rfl hlt hn hname.symm

-- As long as the connection of a session is there, it has the mailbox of the session.
theorem IsFiled.mailbox_eq {entry : Entry} {n' handled : Nat} (h : c.IsFiled i n letters)
    (he : entry.IsFiled c.id n' handled letters) (hn : n < handled)
    (hname : entry.identity.name = c.identity.name) : entry.mailbox = c.mailbox := by
  obtain ⟨m, e, hm, hr⟩ := he.letter
  obtain rfl : n = n' := Nat.le_antisymm (h.le_of_entry he hn hname) (h.last n' m e _ hm hr rfl)
  cases h.letter.symm.trans hm
  exact (congrArg Registration.mailbox (Command.register.inj hr)).symm

-- A session has asked to be admitted, or was turned away at once.
def HasFiled (c : Session) (i : Nat) (letters : List (Option Nat × Errand)) : Prop :=
  (∃ n, c.IsFiled i n letters) ∨ c.stage.IsBarred ∧ ∀ e, (some i, e) ∉ letters

theorem HasFiled.append (h : c.HasFiled i letters) (hc : c'.registration i = c.registration i)
    (hn : ∀ e ∈ new, ∀ r, e.command = .register r → r.id ≠ c.id)
    (hb : c.stage.IsBarred → c'.stage.IsBarred ∧ (m = some i → new = [])) :
    c'.HasFiled i (letters ++ new.map (m, ·)) := by
  obtain ⟨n, hn'⟩ | ⟨hs, hm⟩ := h
  case inl => exact .inl ⟨n, hn'.append hc hn⟩
  case inr =>
    refine .inr ⟨(hb hs).1, fun e he => ?_⟩
    obtain he | he := List.mem_append.mp he
    case inl => exact hm e he
    case inr =>
      obtain ⟨e', he', heq⟩ := List.mem_map.mp he
      rw [(hb hs).2 (Prod.mk.inj heq).1] at he'
      cases he'

end Session

namespace Service

-- All sessions have asked to be admitted, and everyone in the roster was registered.
structure Filed (s : Service) (letters : List (Option Nat × Errand)) : Prop where
  sessions : ∀ i (c : Session), s.sessions[i]? = some c → c.HasFiled i letters
  roster   : ∀ v entry, s.desk.exchange.roster.entry? v = some entry →
    ∃ n, entry.IsFiled v n s.desk.handled letters

variable {s t : Service} {i j : Nat} {c c' : Session} {letters : List (Option Nat × Errand)} {new : List Errand}
  {v : ConnectionId} {l : Listing} {m : Option Nat}

-- A session that begins asks to be admitted, or is over or turned away at once.
theorem connect_files (identity : Identity) (limits : Session.Limits) (link : Session.Link) :
    ∃ c new, (s.connect v identity limits link).sessions = s.sessions ++ [c] ∧
      s.desk.Takes (s.connect v identity limits link).desk new ∧ c.id = v ∧
      (new = [c.registration s.sessions.length] ∨ c.stage.IsBarred ∧ new = []) := by
  have hset (c c' : Session) : (s.sessions ++ [c]).set s.sessions.length c' = s.sessions ++ [c'] := by simp
  have hopen : s.desk.Takes (s.openMailbox limits.outboundCapacity).2.desk [] := Desk.takes_of_roster_eq rfl
  let c := Session.new v identity limits s.mailboxes link
  simp only [connect]
  split
  case isTrue => exact ⟨c.break_, [], hset .., hopen, rfl, .inr ⟨trivial, rfl⟩⟩
  case isFalse =>
    split
    case h_1 t ht =>
      obtain ⟨hd, hs⟩ := takes_submit ht
      exact ⟨c, _, hs, hopen.trans hd, rfl, .inl rfl⟩
    case h_2 r _ => exact ⟨c.refuse r, [], hset .., Desk.takes_of_roster_eq rfl, rfl, .inr ⟨trivial, rfl⟩⟩

theorem filed_new {farewell : String} {capacity : Nat} : (Service.new farewell capacity).Filed [] := by
  refine ⟨fun _ _ hc => ?_, fun v e he => ?_⟩
  · cases hc
  · cases Roster.entry?_empty.symm.trans he

namespace Filed

variable (h : s.Filed letters) (hp : s.Proper (letters.map (·.2)))

include h hp

theorem takes (hd : s.desk.Takes t.desk new)
    (hs : ∀ i (c : Session), t.sessions[i]? = some c → c.HasFiled i (letters ++ new.map (m, ·))) :
    t.Filed (letters ++ new.map (m, ·)) := by
  have hle : s.desk.handled ≤ letters.length := by simpa only [List.length_map] using hp.books.handled
  refine ⟨hs, fun v entry he => ?_⟩
  obtain ⟨n, hn⟩ := h.roster v entry (hd.roster ▸ he)
  exact ⟨n, hd.handled ▸ hn.append hle⟩

theorem others (hs : t.sessions = s.sessions) (hd : s.desk.Takes t.desk new)
    (hn : ∀ e ∈ new, ∀ v, e.newcomer? = some v → s.IsNew v) : t.Filed (letters ++ new.map (none, ·)) := by
  refine h.takes hp hd fun i c hi => ?_
  rw [hs] at hi
  refine (h.sessions i c hi).append rfl (fun e he r hr hid => ?_) fun hb => ⟨hb, nofun⟩
  exact (hn e he r.id (Desk.newcomer?_eq_some_iff.mpr ⟨r, hr, rfl⟩)).sessions c (List.mem_of_getElem? hi) hid.symm

theorem turn (ht : Turns s t i c c' new) (hm : c'.mailbox = c.mailbox) :
    t.Filed (letters ++ new.map (some i, ·)) := by
  have hk := hp.keeps c (List.mem_of_getElem? ht.before)
  have hnew (e) (he : e ∈ new) (r) (hr : e.command = .register r) : False := by
    obtain rfl | ⟨_, he⟩ := ht.turn.errands hk e he
    · cases hr
    · rw [hr] at he
      exact he
  refine h.takes hp ht.takes fun j c'' hj => ?_
  obtain ⟨rfl, rfl⟩ | ⟨hij, hj⟩ := ht.cases hj
  case inl =>
    have hc : c''.registration i = c.registration i := by
      simp only [Session.registration, ht.turn.id_eq, ht.turn.identity_eq, hm]
    refine (h.sessions i c ht.before).append hc (fun e he r hr => (hnew e he r hr).elim) fun hb => ?_
    have ⟨hb, hn⟩ := ht.turn.isBarred hk hb
    exact ⟨hb, fun _ => hn⟩
  case inr =>
    refine (h.sessions j c'' hj).append rfl (fun e he r hr => (hnew e he r hr).elim) fun hb => ⟨hb, fun heq => ?_⟩
    exact absurd (Option.some.inj heq) hij

theorem connect {identity : Identity} {limits : Session.Limits} {link : Session.Link} (hv : s.Vouched letters)
    (hn : s.IsNew v) : (s.connect v identity limits link).Filed
      (letters ++ (s.left (s.connect v identity limits link)).map (some s.sessions.length, ·)) := by
  obtain ⟨c, new, hs, hd, rfl, hnew⟩ := s.connect_files (v := v) identity limits link
  have hfresh (e) : (some s.sessions.length, e) ∉ letters := by
    intro hm
    obtain ⟨_, _, hi, _⟩ := hv.signed _ e hm
    rw [getElem?_cards, List.getElem?_eq_none (Nat.le_refl _)] at hi
    cases hi
  rw [left_of_takes hd]
  refine h.takes hp hd fun i c' hi => ?_
  rw [hs] at hi
  by_cases hlt : i < s.sessions.length
  case pos =>
    rw [List.getElem?_append_left hlt] at hi
    have hid : c.id ≠ c'.id := fun hid => hn.sessions c' (List.mem_of_getElem? hi) hid.symm
    refine (h.sessions i c' hi).append rfl (fun e he r hr => ?_) fun hb => ⟨hb, fun heq => ?_⟩
    · obtain rfl | ⟨_, rfl⟩ := hnew
      · obtain rfl := List.mem_singleton.mp he
        cases hr
        exact hid
      · cases he
    · exact absurd (Option.some.inj heq) (Nat.ne_of_gt hlt)
  case neg =>
    obtain rfl : i = s.sessions.length := by
      have ⟨hlt', _⟩ := List.getElem?_eq_some_iff.mp hi
      rw [List.length_append, List.length_singleton] at hlt'
      omega
    obtain rfl : c = c' := Option.some.inj (List.getElem?_concat_length.symm.trans hi)
    obtain rfl | ⟨hb, rfl⟩ := hnew
    case inr => exact .inr ⟨hb, by simpa using hfresh⟩
    case inl =>
      refine .inl ⟨letters.length, List.getElem?_concat_length, fun n' _ _ _ hm _ _ => ?_, fun n' e hm he => ?_⟩
      · have ⟨hlt', _⟩ := List.getElem?_eq_some_iff.mp hm
        rw [List.length_append] at hlt'
        exact Nat.le_of_lt_succ hlt'
      · obtain hm | hm := List.mem_append.mp (List.mem_of_getElem? hm)
        · exact absurd hm (hfresh e)
        · cases List.mem_singleton.mp hm
          exact he.elim

theorem desk (hd : s.stepDesk l = some t) : t.Filed letters := by
  obtain ⟨rs, d, hs, ht, _, _⟩ := stepDesk_cases hd
  refine ⟨fun i c' hi => ?sessions, fun v entry he => ?roster⟩
  case sessions =>
    obtain ⟨c, hi, rfl | ⟨hw, hr, _⟩⟩ := hp.told_of_stepDesk hd hi
    case inl => exact h.sessions i c' hi
    case inr =>
      have hc : c'.registration i = c.registration i := by cases hw <;> rfl
      have hfiled : c'.HasFiled i (letters ++ [].map (none, ·)) :=
        (h.sessions i c hi).append hc (List.forall_mem_nil _) fun hb => ?_
      · simpa using hfiled
      · rw [hr] at hb
        exact hb.elim
  case roster =>
    rw [ht.roster] at he
    obtain ⟨hgo, ⟨errand, backlog, _, hb, _, rfl⟩ | ⟨_, hd⟩⟩ := Desk.step_eq_some hs
    case inr =>
      -- At the end everyone is let go.
      cases hd
      simp [Exchange.roster_closeAll, Roster.entry?_empty] at he
    case inl =>
      rw [ht.handled]
      obtain ⟨⟨m, e⟩, hm, rfl⟩ := Option.map_eq_some_iff.mp (List.getElem?_map ▸ hp.books.getElem?_handled hb hgo)
      obtain hc | ⟨hgone, e', he', hi, hk⟩ := Exchange.entry?_handle_cases hp.books.roster (hp.books.admits hb) he
      case inl =>
        refine ⟨s.desk.handled, Nat.lt_succ_self _, ⟨m, e, hm, hc⟩, fun n' _ _ _ _ _ hlt hlt' => ?_⟩
        exact absurd hlt (Nat.not_lt.mpr (Nat.le_of_lt_succ hlt'))
      case inr =>
        obtain ⟨n, hn, ⟨m', e'', hm', hr'⟩, hlast⟩ := h.roster v e' he'
        refine ⟨n, Nat.lt_succ_of_lt hn, ⟨m', e'', hm', hi ▸ hk ▸ hr'⟩, fun n' m₁ e₁ r hm₁ hr hlt hlt' => ?_⟩
        obtain hlt' | rfl := Nat.lt_succ_iff_lt_or_eq.mp hlt'
        case inl => exact hi ▸ hlast n' m₁ e₁ r hm₁ hr hlt hlt'
        case inr =>
          -- Whoever is registered under a name takes it from the one who has it.
          intro hname
          cases hm.symm.trans hm₁
          refine hgone ?_
          rw [hr, Exchange.target?, hname, ← hi]
          exact hp.books.roster.lookup_name he'

end Filed

theorem Step.filed (st : Step s t) (hp : s.Proper (letters.map (·.2))) (hv : s.Vouched letters) (h : s.Filed letters) :
    t.Filed (letters ++ (s.left t).map (st.sender?, ·)) := by
  have hquiet (hs : t.sessions = s.sessions) (hd : s.desk.Takes t.desk []) :
      t.Filed (letters ++ (s.left t).map (none, ·)) :=
    left_of_takes hd ▸ h.others hp hs hd (List.forall_mem_nil _)
  cases st
  case connect hn => exact h.connect hp hv hn
  case session i m hm =>
    obtain ⟨c, c', new, ht⟩ := Turns.of_move hm
    obtain ⟨c₀, c₁, _, hs⟩ := Strides.of_move hm
    cases Option.some.inj (ht.before.symm.trans hs.before)
    cases Option.some.inj (ht.self.symm.trans hs.self)
    exact left_of_takes ht.takes ▸ h.turn hp ht hs.stride.isSame.mailbox
  case desk hd =>
    rw [left_desk hd, List.map_nil, List.append_nil]
    exact h.desk hp hd
  case visit hn ht =>
    obtain ⟨hd, hs⟩ := takes_submit ht
    refine left_of_takes hd ▸ h.others hp hs hd (List.forall_mem_singleton.mpr fun v hv => ?_)
    obtain ⟨r, hr, rfl⟩ := Desk.newcomer?_eq_some_iff.mp hv
    exact hn r hr
  case shutdown => exact hquiet shutdown_cases.2 shutdown_cases.1
  case link i f =>
    cases hi : s.sessions[i]?
    case none =>
      have hs : s.changeLink i f = s := by simp only [changeLink, hi]
      exact hquiet (congrArg sessions hs) (hs.symm ▸ .refl)
    case some c =>
      have hs : s.changeLink i f = s.setSession i { c with link := f c.link } := by simp only [changeLink, hi]
      have ht : Turns s (s.changeLink i f) i c { c with link := f c.link } [] :=
        ⟨hi, congrArg sessions hs, hs.symm ▸ .refl, .stay (Session.alike_of_link _)⟩
      have hf := h.turn hp ht rfl
      rw [left_of_takes ht.takes]
      exact hf
  case pass | openMailbox | mailbox => exact hquiet rfl (Desk.takes_of_roster_eq rfl)
  case collect | desert => exact hquiet rfl .refl

theorem Run.filed (run : Run s t) (hp : s.Proper []) (hv : s.Vouched []) (h : s.Filed []) : t.Filed run.letters := by
  induction run
  case refl => exact h
  case step run st hi =>
    obtain ⟨hp', hv'⟩ := run.vouched hp hv
    exact st.filed hp' hv' hi

end Service
end Parley
