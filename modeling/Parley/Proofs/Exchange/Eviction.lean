import Mathlib.Logic.Function.Iterate
import Parley.Proofs.Exchange.Journal
import Parley.Proofs.Exchange.Run

namespace Parley

open Std

namespace Exchange

-- One turn of the evictions.
def turn (l : Listing) (x : Exchange) : Exchange :=
  match x.doomed with
  | [] => x
  | id :: doomed => if x.roster.IsLive id then x.evict l id doomed else { x with doomed }

-- Everyone who could not be given a notice, as often as that was tried.
def refusals (x : Exchange) (as : List Act) : List ConnectionId :=
  (x.attempts as).filterMap (·.refused?)

-- What the exchange itself tells a connection of those who went away.
def departures (x : Exchange) (v : ConnectionId) (as : List Act) : List Notice :=
  ((x.attempts as).filter fun a =>
    a.recipient = v ∧ a.own ∧ a.notice.kind = .userDisconnected).map (·.notice)

-- A connection that is there, or comes with a command, and is gone after it.
def Removes (x : Exchange) (l : Listing) (c : Command) (v : ConnectionId) : Prop :=
  (x.identity? c v).isSome ∧ ¬ (x.handle l c).roster.IsLive v

variable {x : Exchange} {id v : ConnectionId} {ids : List ConnectionId} {e e' : Entry} {k : Nat}
  {l : Listing} {c : Command} {as bs : List Act} {n : Notice} {own : Bool}

theorem refusals_append : x.refusals (as ++ bs) = x.refusals as ++ (x.replay as).refusals bs := by
  simp only [refusals, attempts_append, List.filterMap_append]

theorem mem_refusals :
    v ∈ x.refusals as ↔ ∃ a ∈ x.attempts as, a.recipient = v ∧ a.outcome ≠ .accepted := by
  simp only [refusals, List.mem_filterMap, Attempt.refused?]
  grind

theorem isLive_replay_of_mem_refusals (h : .retire v ∉ as) (hm : v ∈ x.refusals as) :
    (x.replay as).roster.IsLive v := by
  have ⟨a, ha, hr, _⟩ := mem_refusals.mp hm
  subst hr
  exact isLive_replay_of_attempt h ha

theorem doomed_unregister_eq :
    (x.unregister l id).doomed = x.doomed ++ x.refusals (Acts.unregister x l id) := by
  rw [← replay_unregister]
  exact doomed_replay fun _ => strike_not_mem_unregister

namespace Cascade

theorem iterate_turn (c : Cascade l x) : Nat.iterate (turn l) c.turns x = c.last := by
  induction c
  case rest => rfl
  case pass h hl _ hi => simpa [turns, last, turn, h, hl] using hi
  case evict h he _ hi => simpa [turns, last, turn, h, Roster.IsLive.of_some he] using hi

theorem attempts_pass {doomed : List ConnectionId} (h : x.doomed = id :: doomed)
    (hl : ¬ x.roster.IsLive id) (c : Cascade l { x with doomed }) :
    x.attempts (Cascade.pass h hl c).acts = Exchange.attempts { x with doomed } c.acts := by
  simp [acts, attempts, Act.attempt?, apply_pass h]

theorem attempts_evict {doomed : List ConnectionId} (h : x.doomed = id :: doomed)
    (he : x.roster.entry? id = some e) (c : Cascade l (x.evict l id doomed)) :
    x.attempts (Cascade.evict h he c).acts =
      (x.struck doomed).attempts (Acts.unregister (x.struck doomed) l id) ++
        (x.evict l id doomed).attempts c.acts := by
  change Exchange.attempts (Act.apply x (.strike true)) _ = _
  rw [apply_evict h, attempts_append, replay_unregister]
  rfl

-- Each refusal costs one turn, and so does everyone who was doomed to begin with.
theorem turns_eq (c : Cascade l x) : c.turns = x.doomed.length + (x.refusals c.acts).length := by
  induction c
  case rest h => simp [turns, acts, refusals, attempts, h]
  case pass h hl c hi =>
    rw [refusals] at hi
    rw [turns, hi, refusals, attempts_pass, h, List.length_cons]
    exact Nat.add_right_comm ..
  case evict x id doomed e h he c hi =>
    have hd : (x.evict l id doomed).doomed =
        doomed ++ (x.struck doomed).refusals (Acts.unregister (x.struck doomed) l id) :=
      doomed_unregister_eq
    rw [turns, hi, hd, refusals, refusals, refusals, attempts_evict, h, List.filterMap_append]
    simp only [List.length_append, List.length_cons]
    omega

-- The evicted are those among the living who were doomed, or refused a notice on the way.
theorem mem_evicted_iff (c : Cascade l x) :
    v ∈ c.evicted ↔ x.roster.IsLive v ∧ (v ∈ x.doomed ∨ v ∈ x.refusals c.acts) := by
  induction c
  case rest h => simp [evicted, acts, refusals, attempts, h]
  case pass x id doomed h hl c hi =>
    rw [evicted, hi, refusals, refusals, attempts_pass, h, List.mem_cons]
    constructor
    case mp =>
      rintro ⟨hv, hm⟩
      exact ⟨hv, hm.imp_left .inr⟩
    case mpr =>
      rintro ⟨hv, (rfl | hm) | hm⟩
      · exact absurd hv hl
      · exact ⟨hv, .inl hm⟩
      · exact ⟨hv, .inr hm⟩
  case evict x id doomed e h he c hi =>
    have hid := Roster.IsLive.of_some he
    have hd : (x.evict l id doomed).doomed =
        doomed ++ (x.struck doomed).refusals (Acts.unregister (x.struck doomed) l id) :=
      doomed_unregister_eq
    rw [evicted, List.mem_cons, hi, isLive_evict, hd, refusals, refusals, refusals, attempts_evict,
      List.filterMap_append, List.mem_append, List.mem_append, h, List.mem_cons]
    by_cases hv : id = v
    case pos => simp [← hv, hid]
    case neg => simp [hv, Ne.symm hv, or_assoc]

end Cascade

theorem departures_append :
    x.departures v (as ++ bs) = x.departures v as ++ (x.replay as).departures v bs := by
  simp [departures, attempts_append]

theorem departures_of_tame (h : ∀ act ∈ as, Tame c act) : x.departures v as = [] := by
  rw [departures, List.map_eq_nil_iff, List.filter_eq_nil_iff]
  intro a ha
  have := h _ (offer_mem_of_mem_attempts ha)
  simp only [Tame] at this
  grind

theorem departures_offers (hk : n.kind = .userDisconnected) (hn : ids.Nodup)
    (hl : ∀ id ∈ ids, x.roster.IsLive id) :
    x.departures v (ids.map (.offer true n)) = if v ∈ ids then [n] else [] := by
  have h := filter_attempts_offers (v := v) (n := n) (b := true)
    (q := fun own n => own ∧ n.kind = .userDisconnected) hn hl
  simpa [departures, hk] using h

theorem departures_unregister (h : x.roster.Consistent) (he : x.roster.entry? id = some e)
    (hv : x.roster.IsLive v) (hn : id ≠ v) :
    x.departures v (Acts.unregister x l id) = [farewell x.supply.stamp e.identity] := by
  have hq : x.departures v [.retire id, .issue] = [] := rfl
  have hm : v ∈ x.mourners l id := mem_mourners.mpr ⟨hn, hv⟩
  rw [acts_unregister_eq h he, departures_append, replay_retire he, hq,
    departures_offers rfl nodup_mourners fun _ => isLive_of_mem_mourners, if_pos hm]
  rfl

namespace Cascade

-- Whoever stays is told of everyone who is evicted.
theorem departures_acts (c : Cascade l x) (h : x.roster.Consistent) (hv : x.roster.IsLive v)
    (hn : v ∉ c.evicted) : x.departures v c.acts = c.farewells := by
  induction c
  case rest => rfl
  case pass x id doomed hd hl c hi =>
    rw [departures, attempts_pass, farewells, ← hi h hv hn]
    rfl
  case evict x id doomed e hd he c hi =>
    simp only [evicted, List.mem_cons, not_or] at hn
    have hne := Ne.symm hn.1
    have hs : (x.struck doomed).roster.Consistent := h
    have hu := departures_unregister (l := l) hs he hv hne
    rw [departures, attempts_evict, List.filter_append, List.map_append, farewells,
      ← hi (consistent_evict h) (isLive_evict.mpr ⟨hne, hv⟩) hn.2]
    exact congrArg (· ++ _) hu

theorem identity?_farewells (c : Cascade l x) :
    c.farewells.map (·.identity?) = c.evicted.map fun v => (x.roster.entry? v).map (·.identity) := by
  induction c
  case rest => rfl
  case pass hi => exact hi
  case evict x id doomed e hd he c hi =>
    simp only [farewells, evicted, List.map_cons, hi, he]
    refine congrArg₂ List.cons rfl (List.map_congr_left fun v hm => ?_)
    have := isLive_evict.mp <| c.isLive_of_mem_evicted hm
    rw [entry?_evict, if_neg this.1]

end Cascade

-- Whoever is evicted for a command.
def evicted (x : Exchange) (l : Listing) (c : Command) : List ConnectionId :=
  (cascade l (x.perform l c)).evicted

theorem isLive_handle :
    (x.handle l c).roster.IsLive v ↔ v ∉ x.evicted l c ∧ (x.perform l c).roster.IsLive v := by
  rw [handle, ← Cascade.last_eq_settle (cascade ..), Cascade.isLive_last, evicted]

-- Nobody who refuses a notice of a command has been removed by the command itself.
theorem isLive_of_mem_refusals (h : v ∈ x.refusals (Acts.perform x l c)) :
    (x.perform l c).roster.IsLive v := by
  have ⟨as, hp, ht⟩ := exists_perform_eq x l c
  have hr : .retire v ∉ as := fun hm => ht _ hm
  rw [← replay_perform]
  rw [hp, refusals_append] at h
  rw [hp, replay_append]
  cases List.mem_append.mp h
  case inr hm => exact isLive_replay_of_mem_refusals hr hm
  case inl hm =>
    refine isLive_replay hr ?_
    simp only [Acts.dismiss] at hm ⊢
    split at hm
    case h_2 => cases hm
    case h_1 id _ =>
      obtain hu | ⟨bs, hu, hs⟩ := acts_unregister_cases x l id
      case inl => rw [hu] at hm; cases hm
      case inr =>
        rw [hu] at hm ⊢
        exact isLive_replay_of_mem_refusals (x := Act.apply x (.retire id)) hs.retire_not_mem hm

theorem doomed_perform (h : x.doomed = []) : (x.perform l c).doomed = x.refusals (Acts.perform x l c) := by
  rw [← replay_perform, doomed_replay fun _ => strike_not_mem_perform, h, List.nil_append, refusals]

-- The evicted are exactly those who refused a notice.
theorem mem_evicted (h : x.doomed = []) : v ∈ x.evicted l c ↔ v ∈ x.refusals (x.journal l c) := by
  rw [evicted, Cascade.mem_evicted_iff, doomed_perform h, journal, refusals_append, replay_perform,
    List.mem_append]
  refine and_iff_right_of_imp fun hm => ?_
  cases hm
  case inl hm => exact isLive_of_mem_refusals hm
  case inr hm =>
    obtain ⟨a, ha, hr, _⟩ := mem_refusals.mp hm
    exact hr ▸ isLive_of_mem_attempts (fun _ => Cascade.enter_not_mem_acts _) ha

theorem keeps_journal (h : x.roster.Consistent) (ha : x.Admits c) (hl : x.roster.IsLive v)
    (hv : (x.handle l c).roster.IsLive v) : Keeps v (x.journal l c) := by
  have ⟨hn, hp⟩ := isLive_handle.mp hv
  refine ⟨fun hm => ?retire, fun r hm => ?enter⟩
  case retire =>
    cases List.mem_append.mp hm
    case inl hm => exact ((isLive_perform h ha).mp hp).1 (retire_mem_perform hm)
    case inr hm => exact hn (Cascade.retire_mem_acts _ hm)
  case enter =>
    have hm := (List.mem_append.mp hm).resolve_right (Cascade.enter_not_mem_acts _)
    cases enter_mem_perform hm
    exact fun hi => ha (hi ▸ hl)

-- Whoever stays has refused nothing.
theorem accepted_of_isLive_handle {a : Attempt} (h : x.doomed = [])
    (hv : (x.handle l c).roster.IsLive a.recipient) (hm : a ∈ x.attempts (x.journal l c)) :
    a.outcome = .accepted := by
  refine Decidable.byContradiction fun hna => (isLive_handle.mp hv).1 ?_
  exact (mem_evicted h).mpr <| mem_refusals.mpr ⟨a, hm, rfl, hna⟩

-- Whoever stays keeps the mailbox, and finds all that it was offered there.
theorem Sound.queue_handle (h : x.Sound) (hd : x.doomed = []) (ha : x.Allows c)
    (he : x.roster.entry? v = some e) (hv : (x.handle l c).roster.IsLive v) :
    (x.handle l c).address v = some e.mailbox ∧
      (x.handle l c).queue e.mailbox = x.queue e.mailbox ++ x.offered v (x.journal l c) := by
  have ho := h.owns he
  have hk := keeps_journal h.roster ha.admits (.of_some he) hv
  have hs : Spares v e.mailbox (x.journal l c) := by
    refine ⟨hk.1, fun r hm => ⟨hk.2 r hm, fun hb => ?_⟩⟩
    have hm := (List.mem_append.mp hm).resolve_right (Cascade.enter_not_mem_acts _)
    cases enter_mem_perform hm
    exact ha.own v e he hb.symm
  have hq := ho.queue_replay hs fun a hm hr => accepted_of_isLive_handle hd (hr ▸ hv) hm
  have ho := ho.replay hs
  rw [replay_journal] at hq ho
  exact ⟨(ho v).mpr rfl, hq⟩

theorem isSome_identity? (hl : x.roster.IsLive v) : (x.identity? c v).isSome := by
  have ⟨e, he⟩ := Roster.isLive_iff.mp hl
  cases c <;> simp only [identity?, he, Option.map_some, Option.isSome_some]
  case register => split <;> rfl

theorem identity?_of_entry (ha : x.Admits c) (he : x.roster.entry? v = some e) :
    x.identity? c v = some e.identity := by
  cases c <;> simp only [identity?, he, Option.map_some]
  case register r =>
    have hr : r.id ≠ v := fun heq => ha (heq ▸ .of_some he)
    rw [if_neg hr]

theorem isLive_of_target? (h : x.roster.Consistent) (ht : x.target? c = some v) : x.roster.IsLive v := by
  cases c <;> simp only [target?, reduceCtorEq] at ht
  case register =>
    obtain ⟨e, he, _⟩ := h.lookup_eq_some_iff.mp ht
    exact .of_some he
  case unregister id =>
    split at ht
    case isTrue hl => exact Option.some.inj ht ▸ hl
    case isFalse => cases ht

theorem removes_iff (h : x.roster.Consistent) (ha : x.Admits c) :
    x.Removes l c v ↔ x.target? c = some v ∨ v ∈ x.evicted l c := by
  rw [Removes, isLive_handle, isLive_perform h ha]
  constructor
  case mp => grind
  case mpr =>
    rintro (ht | hm)
    case inl => exact ⟨isSome_identity? (isLive_of_target? h ht), fun hn => hn.2.1 ht⟩
    case inr =>
      have hp := (cascade l (x.perform l c)).isLive_of_mem_evicted hm
      exact ⟨((isLive_perform h ha).mp hp).2, fun hn => hn.1 hm⟩

-- Whoever stays is told of everyone who is removed, and of nobody else.
theorem departures_journal (h : x.roster.Consistent) (ha : x.Admits c) (hl : x.roster.IsLive v)
    (hv : (x.handle l c).roster.IsLive v) :
    (x.departures v (x.journal l c)).map (·.identity?) =
      ((x.target? c).toList ++ x.evicted l c).map (x.identity? c) := by
  obtain ⟨hn, hp⟩ := isLive_handle.mp hv
  obtain ⟨as, hj, ht⟩ := exists_perform_eq x l c
  have hd : (x.departures v (Acts.dismiss x l c)).map (·.identity?) =
      (x.target? c).toList.map (x.identity? c) := by
    simp only [Acts.dismiss]
    cases hc : x.target? c
    case none => rfl
    case some t =>
      have hne : t ≠ v := fun heq => ((isLive_perform h ha).mp hp).1 (heq ▸ hc)
      obtain ⟨e, he⟩ := Roster.isLive_iff.mp (isLive_of_target? h hc)
      rw [departures_unregister h he hl hne]
      simp [identity?_of_entry ha he, identity?_farewell]
  have he : (x.evicted l c).map (fun w => (Roster.entry? (x.perform l c).roster w).map (·.identity)) =
      (x.evicted l c).map (x.identity? c) := by
    refine List.map_congr_left fun w hw => ?_
    have hw := (cascade l (x.perform l c)).isLive_of_mem_evicted hw
    rw [identity_perform h ha, if_neg ((isLive_perform h ha).mp hw).1]
  rw [journal, departures_append, hj, departures_append, departures_of_tame ht, List.append_nil, ← hj,
    replay_perform, List.map_append, hd, Cascade.departures_acts _ (consistent_perform h ha) hp hn,
    Cascade.identity?_farewells, List.map_append, ← he, evicted]

-- The evictions end, after one turn for each refusal.  Gone are the target of the command, and everyone who
-- refused a notice; only the latter count.  Those who stay have refused nothing, and they have been given one
-- notice of the exchange's own for each of those who are gone.
theorem Run.handle_removes (run : Run Admits .empty x) (ha : x.Admits c) (l : Listing) :
    x.replay (x.journal l c) = x.handle l c ∧
    Nat.iterate (turn l) (x.refusals (x.journal l c)).length (x.perform l c) = x.handle l c ∧
    (x.handle l c).doomed = [] ∧
    (∀ k, (x.handle l c).queue k =
      x.queue k ++ (x.attempts (x.journal l c)).filterMap (·.enqueued? k)) ∧
    ∃ evicted : List ConnectionId, evicted.Nodup ∧
      (∀ v, v ∈ evicted ↔ ∃ a ∈ x.attempts (x.journal l c),
        a.recipient = v ∧ (a.outcome = .full ∨ a.outcome = .closed)) ∧
      (∀ v, x.target? c = some v → v ∉ evicted) ∧
      (∀ v, x.Removes l c v ↔ x.target? c = some v ∨ v ∈ evicted) ∧
      (x.handle l c).evictions = x.evictions + evicted.length ∧
      ∀ v e, x.roster.entry? v = some e → (x.handle l c).roster.IsLive v →
        (x.handle l c).address v = some e.mailbox ∧
        (∀ a ∈ x.attempts (x.journal l c), a.recipient = v →
          a.mailbox = e.mailbox ∧ a.outcome = .accepted) ∧
        (x.departures v (x.journal l c)).map (·.identity?) =
          ((x.target? c).toList ++ evicted).map (x.identity? c) := by
  have h := run.consistent Roster.consistent_empty
  have hd := run.undoomed rfl
  have hr {o : Pipe.Sent} : o = .full ∨ o = .closed ↔ o ≠ .accepted := by cases o <;> simp
  let cs := cascade l (x.perform l c)
  refine ⟨replay_journal, ?turns, doomed_handle, fun k => ?queue, x.evicted l c, cs.nodup_evicted, ?refused,
    ?target, fun v => removes_iff h ha, ?count, fun v e he hv => ?stay⟩
  case turns =>
    have ht := cs.iterate_turn
    rw [cs.turns_eq, cs.last_eq_settle, doomed_perform hd, ← List.length_append] at ht
    rw [journal, refusals_append, replay_perform, ht, handle]
  case queue => rw [← replay_journal, queue_replay]
  case refused =>
    intro v
    simp only [hr]
    rw [mem_evicted hd, mem_refusals]
  case target =>
    intro v ht hm
    exact ((isLive_perform h ha).mp <| cs.isLive_of_mem_evicted hm).1 ht
  case count =>
    have he : (x.perform l c).evictions = x.evictions := by
      rw [← replay_perform, evictions_replay fun _ => strike_not_mem_perform]
    rw [handle, ← cs.last_eq_settle, cs.evictions_last (consistent_perform h ha), he, evicted]
  case stay =>
    have hl := Roster.IsLive.of_some he
    have hk := keeps_journal h ha hl hv
    have hb : x.address v = some e.mailbox := by rw [address, he, Option.map_some]
    refine ⟨?address, fun a hm hav => ⟨?mailbox, accepted_of_isLive_handle hd (hav ▸ hv) hm⟩,
      departures_journal h ha hl hv⟩
    case address => rw [← replay_journal, hk.address_replay, hb]
    case mailbox =>
      subst hav
      exact Option.some.inj <| (hk.address_eq hm).symm.trans hb

-- A newcomer whose mailbox takes no more than the welcome does not stay.
theorem Run.handle_removes_newcomer :
    let x := (Interlude.prepare 0 1).apply .empty
    let r : Registration := ⟨⟨1⟩, ⟨7, "ann"⟩, 0⟩
    x.Admits (.register r) ∧ x.Removes .ascending (.register r) r.id := by
  intro x r
  have hp : empty.Permits (.prepare 0 1) := ExtTreeMap.not_mem_empty
  have run : Run Admits .empty x := .step .refl (.between (.prepare 0 1) hp)
  have ha : x.Admits (.register r) := ExtTreeMap.not_mem_empty
  have hm : r.id ∈ x.refusals (Acts.perform x .ascending (.register r)) := by decide
  have ⟨_, _, _, _, evicted, _, hr, _, hv, _⟩ := run.handle_removes ha .ascending
  refine ⟨ha, (hv r.id).mpr <| .inr <| (hr r.id).mpr ?_⟩
  have ⟨a, hm, hi, ho⟩ := mem_refusals.mp hm
  refine ⟨a, ?_, hi, ?_⟩
  · exact attempts_append ▸ List.mem_append_left _ hm
  · cases h : a.outcome <;> simp_all

end Exchange
end Parley
