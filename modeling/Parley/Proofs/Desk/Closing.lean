import Parley.Proofs.Desk.Run
import Parley.Proofs.Exchange.Parting

namespace Parley

open Std

-- Where what once is so remains so, there is a point from which on it is so.
theorem exists_split_of_pairwise {α : Type} {P : α → Prop} [DecidablePred P] {as : List α}
    (h : as.Pairwise fun a b => P a → P b) :
    ∃ before after, as = before ++ after ∧ (∀ a ∈ before, ¬ P a) ∧ ∀ a ∈ after, P a := by
  induction as
  case nil => exact ⟨[], [], rfl, List.forall_mem_nil _, List.forall_mem_nil _⟩
  case cons a as hi =>
    have ⟨ha, h⟩ := List.pairwise_cons.mp h
    by_cases hp : P a
    case pos =>
      exact ⟨[], a :: as, rfl, List.forall_mem_nil _, List.forall_mem_cons.mpr ⟨hp, fun b hb => ha b hb hp⟩⟩
    case neg =>
      have ⟨before, after, hs, hb, hf⟩ := hi h
      exact ⟨a :: before, after, congrArg (a :: ·) hs, List.forall_mem_cons.mpr ⟨hp, hb⟩, hf⟩

namespace Desk

variable {d d' : Desk} {k : Nat} {r : Registration} {l : Listing} {attended : Bool} {rs : Replies}

-- The states that a step leads the exchange through, those in the midst of a command included.
def Step.course {d d' : Desk} : Step d d' → List Exchange
  | proceed l .. => d.exchange.stations (d.acts l) ++ [d'.exchange]
  | between ..   => [d'.exchange]
  | _            => []

theorem fades_step (h : d.step l attended = some (rs, d')) :
    Exchange.Fades k (d.exchange.replay (d.acts l)) d'.exchange := by
  obtain ⟨_, ⟨c, hc, he, _⟩ | ⟨hc, he, _⟩⟩ := step_cases h
  case inl =>
    rw [he, acts, hc, Exchange.replay_journal]
    exact .refl
  case inr =>
    rw [he, acts, hc, stop, Exchange.closeAll_eq]
    exact Exchange.fades_dismiss.trans Exchange.fades_forgoAll

namespace Step

theorem fades (s : Step d d') :
    Exchange.Fades k d.exchange d'.exchange ∧ (∀ y ∈ s.course, Exchange.Fades k d.exchange y) ∧
      s.course.Pairwise (Exchange.Fades k) ∧ ∀ y ∈ s.course, Exchange.Fades k y d'.exchange := by
  cases s
  case submit h =>
    rw [(exchange_submit h).1]
    exact ⟨.refl, List.forall_mem_nil _, .nil, List.forall_mem_nil _⟩
  case shutdown => exact ⟨.refl, List.forall_mem_nil _, .nil, List.forall_mem_nil _⟩
  case between h =>
    have hf : Exchange.Fades k d.exchange _ := Exchange.fades_interlude h
    exact ⟨hf, List.forall_mem_singleton.mpr hf, List.pairwise_singleton ..,
      List.forall_mem_singleton.mpr .refl⟩
  case proceed l attended _ h =>
    have ⟨hx, hp, hr⟩ : (∀ y ∈ d.exchange.stations (d.acts l), Exchange.Fades k d.exchange y) ∧ _ ∧ _ :=
      Exchange.pairwise_stations
    have hr y (hm : y ∈ d.exchange.stations (d.acts l)) := (hr y hm).trans (fades_step h)
    have hf : Exchange.Fades k d.exchange d'.exchange := Exchange.fades_replay.trans (fades_step h)
    refine ⟨hf, ?_, ?_, ?_⟩
    case refine_1 => exact List.forall_mem_append.mpr ⟨hx, List.forall_mem_singleton.mpr hf⟩
    case refine_2 =>
      refine List.pairwise_append.mpr ⟨hp, List.pairwise_singleton .., fun y hy z hz => ?_⟩
      exact List.mem_singleton.mp hz ▸ hr y hy
    case refine_3 => exact List.forall_mem_append.mpr ⟨hr, List.forall_mem_singleton.mpr .refl⟩

theorem consistent (s : Step d d') (h : d.exchange.roster.Consistent) :
    d'.exchange.roster.Consistent ∧ ∀ y ∈ s.course, y.roster.Consistent := by
  cases s
  case submit hs => exact ⟨(exchange_submit hs).1.symm ▸ h, List.forall_mem_nil _⟩
  case shutdown => exact ⟨h, List.forall_mem_nil _⟩
  case between i _ =>
    have hi : (i.apply d.exchange).roster.Consistent := (Exchange.apply_roster i).symm ▸ h
    exact ⟨hi, List.forall_mem_singleton.mpr hi⟩
  case proceed l attended ha hs =>
    simp only [course, List.forall_mem_append, List.forall_mem_singleton]
    obtain ⟨_, ⟨c, hc, he, _⟩ | ⟨hc, he, _⟩⟩ := step_cases hs
    case inl =>
      have hh : d'.exchange.roster.Consistent := he ▸ Exchange.consistent_handle h (ha c hc).admits
      simp only [acts, hc]
      exact ⟨hh, Exchange.consistent_stations_journal h (ha c hc).admits, hh⟩
    case inr =>
      have hh : d'.exchange.roster.Consistent := he ▸ roster_stop ▸ Roster.consistent_empty
      simp only [acts, hc]
      exact ⟨hh, (Exchange.consistent_stations (Exchange.safe_of_talk Exchange.talk_closeAll) h).1, hh⟩

-- Whoever is registered remains tied to its mailbox, unless its id is registered again.
theorem tied (s : Step d d') (h : d.exchange.Tied r) (hn : ∀ r', s.admitted? = some r' → r'.id ≠ r.id) :
    d'.exchange.Tied r ∧ ∀ y ∈ s.course, y.Tied r := by
  cases s
  case submit hs => exact ⟨(exchange_submit hs).1.symm ▸ h, List.forall_mem_nil _⟩
  case shutdown => exact ⟨h, List.forall_mem_nil _⟩
  case between hp => exact ⟨h.interlude hp, List.forall_mem_singleton.mpr (h.interlude hp)⟩
  case proceed l attended ha hs =>
    simp only [course, List.forall_mem_append, List.forall_mem_singleton]
    obtain ⟨_, ⟨c, hc, he, _⟩ | ⟨hc, he, _⟩⟩ := step_cases hs
    case inl =>
      have hn r' (hr : c = .register r') : r'.id ≠ r.id := by
        subst hr
        exact hn r' (by simp [admitted?, command?, hc])
      obtain ⟨hy, hh⟩ := h.journal (l := l) (ha c hc) hn
      simp only [acts, hc, he]
      exact ⟨hh, hy, hh⟩
    case inr =>
      obtain ⟨hy, hh⟩ :
          (∀ y ∈ d.exchange.stations (Exchange.Acts.closeAll d.exchange l d.farewell), y.Tied r) ∧ _ :=
        h.closeAll
      have hh : (d.stop l).2.exchange.Tied r :=
        hh.forgoAll (Exchange.roster_closeAll ▸ ExtTreeMap.not_mem_empty)
      simp only [acts, hc, he]
      exact ⟨hh, hy, hh⟩

-- Whoever is admitted is tied to its mailbox, which was open before.
theorem tied_of_admitted (s : Step d d') (h : d.exchange.Sound) (hr : s.admitted? = some r) :
    d.exchange.writable? r.mailbox = some true ∧ d'.exchange.Tied r ∧
      ∀ y ∈ s.course, y.writable? r.mailbox ≠ some false ∨ y.Tied r := by
  cases s
  case submit | shutdown | between => cases hr
  case proceed l attended ha hs =>
    have hc : d.next? = some (.register r) := by
      simp only [admitted?, command?] at hr
      split at hr
      case h_1 hc => rw [hc, Option.some.inj hr]
      case h_2 => cases hr
    have ha : d.exchange.Newcomer r := ha _ hc
    simp only [course, List.forall_mem_append, List.forall_mem_singleton]
    obtain ⟨_, ⟨c, hc', he, _⟩ | ⟨hc', _⟩⟩ := step_cases hs
    case inr => rw [hc] at hc'; cases hc'
    case inl =>
      cases hc.symm.trans hc'
      have ⟨hy, hh⟩ := h.tied_register (l := l) ha
      simp only [acts, hc, he]
      exact ⟨ha.held, hh, hy, .inr hh⟩

theorem roster_of_stopped (s : Step d d') (h : d.stopped → d.exchange.roster = .empty) (hs : d'.stopped) :
    d'.exchange.roster = .empty := by
  cases s
  case submit hd =>
    have ⟨he, hs'⟩ := exchange_submit hd
    exact he ▸ h (hs' ▸ hs)
  case shutdown => exact h hs
  case between i _ => exact (Exchange.apply_roster i).trans (h hs)
  case proceed hd =>
    obtain ⟨_, ⟨_, _, _, hn⟩ | ⟨_, he, _⟩⟩ := step_cases hd
    case inl => rw [hn] at hs; cases hs
    case inr => rw [he, roster_stop]

end Step

namespace Run

-- The states that a run leads the exchange through.
def course {d d' : Desk} : Run d d' → List Exchange
  | refl       => [d.exchange]
  | step run s => run.course ++ s.course

theorem fades (run : Run d d') :
    run.course.Pairwise (Exchange.Fades k) ∧ ∀ y ∈ run.course, Exchange.Fades k y d'.exchange := by
  induction run
  case refl => exact ⟨List.pairwise_singleton .., List.forall_mem_singleton.mpr .refl⟩
  case step run s hi =>
    have ⟨hp, hl⟩ := hi
    have ⟨hs, hx, hp', hl'⟩ := s.fades (k := k)
    refine ⟨List.pairwise_append.mpr ⟨hp, hp', fun y hy z hz => (hl y hy).trans (hx z hz)⟩, ?_⟩
    exact List.forall_mem_append.mpr ⟨fun y hy => (hl y hy).trans hs, hl'⟩

theorem consistent (run : Run d d') (h : d.exchange.roster.Consistent) :
    d'.exchange.roster.Consistent ∧ ∀ y ∈ run.course, y.roster.Consistent := by
  induction run
  case refl => exact ⟨h, List.forall_mem_singleton.mpr h⟩
  case step run s hi =>
    have ⟨hd, hy⟩ := hi
    have ⟨hd', hy'⟩ := s.consistent hd
    exact ⟨hd', List.forall_mem_append.mpr ⟨hy, hy'⟩⟩

theorem roster_of_stopped (run : Run d d') (h : d.stopped = false) (hs : d'.stopped) :
    d'.exchange.roster = .empty := by
  induction run
  case refl => rw [h] at hs; cases hs
  case step run s hi => exact s.roster_of_stopped hi hs

theorem tied (run : Run d d') (h : d.exchange.Sound) (hn : (run.admitted.map (·.id)).Nodup)
    (hr : r ∈ run.admitted) :
    d'.exchange.Tied r ∧ ∀ y ∈ run.course, y.writable? r.mailbox ≠ some false ∨ y.Tied r := by
  induction run
  case refl => cases hr
  case step run s hi =>
    simp only [admitted, List.map_append, List.nodup_append] at hn
    obtain ⟨hn, _, hd⟩ := hn
    cases List.mem_append.mp hr
    case inl hr =>
      obtain ⟨ht, hy⟩ := hi hn hr
      have hs r' (hs : s.admitted? = some r') : r'.id ≠ r.id := by
        refine (hd r.id (List.mem_map_of_mem hr) r'.id ?_).symm
        simp [hs]
      obtain ⟨ht, hy'⟩ := s.tied ht hs
      exact ⟨ht, List.forall_mem_append.mpr ⟨hy, fun y hm => .inr (hy' y hm)⟩⟩
    case inr hr =>
      obtain ⟨hw, ht, hy⟩ := s.tied_of_admitted (run.sound h) (Option.mem_toList.mp hr)
      refine ⟨ht, List.forall_mem_append.mpr ⟨fun y hm => .inl fun hc => ?_, hy⟩⟩
      -- A mailbox that had been closed would be closed still.
      have := ((run.fades.2 y hm).shut hc).symm.trans hw
      cases this

-- As long as a connection is there the exchange holds on to its mailbox, and once it is gone no more; in the end nobody
-- is there.  There is one moment when the exchange lets go.  From then on the connection has been told to stop and is
-- in no part of the roster.  The session may still have a writing end that was lent to it before, through which one
-- answer may come.  When that is given back, at once if there is none, the mailbox is closed: then nobody has a
-- writing end, nobody gets one, and nothing is put into the mailbox.
theorem closes_once {farewell : String} {capacity : Nat} (run : Run (.new farewell capacity) d)
    (hn : (run.admitted.map (·.id)).Nodup) (hr : r ∈ run.admitted) :
    (d.exchange.roster.IsLive r.id →
      d.exchange.address r.id = some r.mailbox ∧ d.exchange.writable? r.mailbox = some true) ∧
    (¬ d.exchange.roster.IsLive r.id → d.exchange.writable? r.mailbox = some false) ∧
    (d.stopped → ¬ d.exchange.roster.IsLive r.id) ∧
    ∃ before during closed, run.course = before ++ (during ++ closed) ∧
      (∀ y ∈ before, y.writable? r.mailbox ≠ some false) ∧
      (∀ y ∈ during ++ closed, y.writable? r.mailbox = some false ∧ y.IsCancelled r.mailbox ∧ y.roster.Lacks r.id) ∧
      (∀ y ∈ during, y.loan r.mailbox ≠ .absent) ∧ (∀ y ∈ closed, y.loan r.mailbox = .absent) ∧
      (during ++ closed).Pairwise fun y z => ∃ ns, z.queue r.mailbox <:+ y.queue r.mailbox ++ ns ∧
        ns.length ≤ (y.loan r.mailbox).due ∧ ∀ n ∈ ns, n.IsReply := by
  have ⟨ht, hy⟩ := run.tied Exchange.sound_empty hn hr
  have ⟨_, hc⟩ := run.consistent Roster.consistent_empty
  have hf : run.course.Pairwise (Exchange.Fades r.mailbox) := run.fades.1
  have ⟨before, after, hs, hopen, hshut⟩ :=
    exists_split_of_pairwise <| hf.imp fun {y z} h (hw : y.writable? r.mailbox = some false) => h.shut hw
  have hp : after.Pairwise (Exchange.Fades r.mailbox) := (List.pairwise_append.mp (hs ▸ hf)).2.1
  have ⟨during, closed, hs', hlent, hback⟩ :=
    exists_split_of_pairwise <| hp.imp_of_mem fun {y z} hy _ h (hl : y.loan r.mailbox = .absent) =>
      h.loan (hshut y hy) hl
  have hm {y} (hm : y ∈ after) : y ∈ run.course := hs ▸ List.mem_append_right _ hm
  subst hs'
  refine ⟨fun hl => ?live, fun hl => ?gone, fun hd hl => ?stopped, before, during, closed, hs, hopen,
    fun y hy' => ?after, hlent, hback, ?queue⟩
  case live =>
    cases ht
    case held ho hw => exact ⟨(ho r.id).mpr rfl, hw⟩
    case parted hg _ _ => exact absurd hl hg
  case gone =>
    cases ht
    case held ho _ => exact absurd (Exchange.isLive_iff_address.mpr ⟨_, (ho r.id).mpr rfl⟩) hl
    case parted hw _ => exact hw
  case stopped =>
    rw [run.roster_of_stopped rfl hd] at hl
    exact ExtTreeMap.not_mem_empty hl
  case after =>
    have hw := hshut y hy'
    cases (hy y (hm hy')).resolve_left (· hw)
    case held _ hw' => rw [hw] at hw'; cases hw'
    case parted hg _ hk => exact ⟨hw, hk, (hc y (hm hy')).lacks hg⟩
  case queue => exact hp.imp_of_mem fun hy' _ hf => hf.late (hshut _ hy')

-- Ann is there until the end.
theorem closes_once_at_end :
    let ann : Registration := ⟨⟨1⟩, ⟨7, "ann"⟩, 0⟩
    ∃ (d : Desk) (run : Run (.new "bye") d), run.admitted = [ann] ∧ d.stopped ∧
      d.exchange.writable? ann.mailbox = some false := by
  intro ann
  let x := (Exchange.Interlude.prepare 0 8).apply .empty
  have ha : x.Allows (.register ann) := Exchange.newcomer_first (fun _ => ExtTreeMap.not_mem_empty) (by decide)
  let y := x.handle .ascending (.register ann)
  let desk (x : Exchange) (backlog : List Errand) (handled : Nat) : Desk :=
    ⟨x, Desk.defaultCapacity, backlog, handled, none, false, "bye"⟩
  let run₁ : Run (.new "bye") (desk x [⟨.register ann, none⟩] 0) :=
    .step (.step .refl (.between (.prepare 0 8) ExtTreeMap.not_mem_empty)) (.submit ⟨.register ann, none⟩ rfl)
  let run₂ : Run (.new "bye") (desk y [] 1) :=
    .step run₁ (.proceed .ascending true rfl fun c hc => Option.some.inj hc ▸ ha)
  let d := (desk y [] 1).shutdown
  have hs : d.step .ascending true = some (d.stop .ascending) := rfl
  have hn : d.next? = none := rfl
  let run₃ : Run (.new "bye") (d.stop .ascending).2 :=
    .step (.step run₂ .shutdown) (.proceed .ascending true hs fun c hc => nomatch hn.symm.trans hc)
  have hr : run₃.admitted = [ann] := rfl
  have h := run₃.closes_once (hr ▸ List.pairwise_singleton ..) (hr ▸ List.mem_singleton_self ann)
  exact ⟨_, run₃, hr, rfl, h.2.1 (h.2.2.1 rfl)⟩

-- A mailbox is not open to its client exactly as long as the connection is there.  It is not closed as soon as the
-- exchange lets go: here Ann's session is about to answer a ping when her connection is removed, and the answer comes
-- after.  And her session may drop the reading end before the exchange knows of it.
theorem not_closes_at_once :
    (¬ ∀ (farewell : String) (capacity : Nat) (d : Desk) (run : Run (.new farewell capacity) d) (r : Registration),
      (run.admitted.map (·.id)).Nodup → r ∈ run.admitted → ∀ y z, [y, z].Sublist run.course →
        y.writable? r.mailbox = some false → z.queue r.mailbox <:+ y.queue r.mailbox) ∧
    ¬ ∀ (farewell : String) (capacity : Nat) (d : Desk) (run : Run (.new farewell capacity) d) (r : Registration),
      (run.admitted.map (·.id)).Nodup → r ∈ run.admitted → d.exchange.roster.IsLive r.id →
        (d.exchange.mailboxes[r.mailbox]?).map (·.pipe.readable) = some true := by
  let ann : Registration := ⟨⟨1⟩, ⟨7, "ann"⟩, 0⟩
  let desk (x : Exchange) (backlog : List Errand) (handled : Nat) : Desk :=
    ⟨x, Desk.defaultCapacity, backlog, handled, none, false, "bye"⟩
  let x₀ := (Exchange.Interlude.prepare 0 8).apply .empty
  let x₁ := x₀.handle .ascending (.register ann)
  have ha : x₀.Allows (.register ann) := Exchange.newcomer_first (fun _ => ExtTreeMap.not_mem_empty) (by decide)
  have hx₁ : x₁ = x₀.perform .ascending (.register ann) := Exchange.handle_eq_perform (by decide +kernel)
  let run₁ : Run (.new "bye") (desk x₁ [] 1) :=
    .step (.step (.step .refl (.between (.prepare 0 8) ExtTreeMap.not_mem_empty)) (.submit ⟨.register ann, none⟩ rfl))
      (.proceed .ascending true rfl fun c hc => Option.some.inj hc ▸ ha)
  constructor
  case left =>
    intro hall
    let x₂ := (Exchange.Interlude.lend 0).apply x₁
    let x₃ := x₂.handle .ascending (.unregister ann.id)
    let pong : Notice := .pong x₁.supply.stamp ann.identity.name
    let x₄ := (Exchange.Interlude.reply 0 pong).apply x₃
    have hq : pong.IsReply := ⟨x₁.supply.stamp, ann.id, ann.identity, .ok ⟨"ping", none, none, none⟩, rfl⟩
    let run₂ : Run (.new "bye") (desk x₂ [⟨.unregister ann.id, none⟩] 1) :=
      .step (.step run₁ (.between (.lend 0) trivial)) (.submit ⟨.unregister ann.id, none⟩ rfl)
    let run₃ : Run (.new "bye") (desk x₃ [] 2) :=
      .step run₂ (.proceed .ascending true rfl fun c hc => Option.some.inj hc ▸ trivial)
    let run₄ : Run (.new "bye") (desk x₄ [] 2) := .step run₃ (.between (.reply 0 pong) hq)
    have hr : run₄.admitted = [ann] := rfl
    have hc : [x₃, x₄].Sublist run₄.course :=
      ((List.sublist_append_right _ [x₃]).trans (List.sublist_append_right _ _)).append (.refl [x₄])
    have hx₃ : x₃ = x₂.perform .ascending (.unregister ann.id) :=
      Exchange.handle_eq_perform (by simp only [x₂, hx₁]; decide +kernel)
    have hs : x₄.queue 0 <:+ x₃.queue 0 :=
      hall _ _ _ run₄ ann (hr ▸ List.pairwise_singleton ..) (hr ▸ List.mem_singleton_self ann) x₃ x₄ hc
        (by simp only [hx₃, x₂, hx₁]; decide +kernel)
    exact absurd hs.length_le (by simp only [x₄, hx₃, x₂, hx₁]; decide +kernel)
  case right =>
    intro hall
    let x₂ := (Exchange.Interlude.abandon 0).apply x₁
    let run₂ : Run (.new "bye") (desk x₂ [] 1) := .step run₁ (.between (.abandon 0) trivial)
    have hr : run₂.admitted = [ann] := rfl
    have hopen : (x₂.mailboxes[0]?).map (·.pipe.readable) = some true :=
      hall _ _ _ run₂ ann (hr ▸ List.pairwise_singleton ..) (hr ▸ List.mem_singleton_self ann)
        (by simp only [desk, x₂, hx₁]; decide +kernel)
    exact absurd hopen (by simp only [x₂, hx₁]; decide +kernel)

end Run
end Desk
end Parley
