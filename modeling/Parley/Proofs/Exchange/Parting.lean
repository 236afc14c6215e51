import Parley.Proofs.Exchange.Ending
import Parley.Proofs.Exchange.Run

namespace Parley

open Std

namespace Roster

-- A connection that has left no trace: it has no entry, no name, and is in no room.
structure Lacks (r : Roster) (id : ConnectionId) : Prop where
  entry : ¬ r.IsLive id
  name  : ∀ name, r.lookup name ≠ some id
  room  : ∀ room, ¬ r.HasMember room id

theorem Consistent.lacks {r : Roster} {id : ConnectionId} (h : r.Consistent) (hl : ¬ r.IsLive id) :
    r.Lacks id where
  entry := hl
  name name hn := by
    have ⟨e, he, _⟩ := h.lookup_eq_some_iff.mp hn
    exact hl (.of_some he)
  room room hm := hl ((h.member_iff room id).mp hm).isLive

end Roster

-- A mailbox that the exchange has let go of gets nothing more, but for the answer that a writing end was lent for
-- before.
structure Mailbox.Lapses (m m' : Mailbox) : Prop where
  shut : m'.pipe.writable = false
  loan : m.loan = .absent → m'.loan = .absent
  late : ∃ ns, m'.pipe.queue <:+ m.pipe.queue ++ ns ∧ ns.length + m'.loan.due ≤ m.loan.due ∧ ∀ n ∈ ns, n.IsReply

-- What the exchange has let go of stays so; whoever was told to stop stays told so.
structure Mailbox.Fades (m m' : Mailbox) : Prop where
  lapses    : m.pipe.writable = false → m.Lapses m'
  cancelled : m.cancelledAt.isSome → m'.cancelledAt.isSome

namespace Mailbox

variable {m m' m'' : Mailbox} {n : Notice} {now : Nat}

-- Nothing is put into the mailbox, and its writing end stays with whoever has it.
theorem Lapses.of_suffix (hw : m'.pipe.writable = false) (hl : m'.loan = m.loan)
    (hq : m'.pipe.queue <:+ m.pipe.queue) : Lapses m m' :=
  ⟨hw, fun h => hl.trans h, [], (List.append_nil _).symm ▸ hq, by simp [hl], List.forall_mem_nil _⟩

theorem Lapses.trans (h : Lapses m m') (h' : Lapses m' m'') : Lapses m m'' := by
  have ⟨ns, hq, hn, hr⟩ := h.late
  have ⟨ns', hq', hn', hr'⟩ := h'.late
  refine ⟨h'.shut, h'.loan ∘ h.loan, ns ++ ns', ?queue, ?due, List.forall_mem_append.mpr ⟨hr, hr'⟩⟩
  case queue =>
    obtain ⟨taken, ht⟩ := hq
    refine hq'.trans ⟨taken, ?_⟩
    rw [← List.append_assoc, ht, List.append_assoc]
  case due =>
    rw [List.length_append]
    omega

theorem Fades.refl : Fades m m :=
  ⟨fun h => .of_suffix h rfl List.suffix_rfl, id⟩

theorem Fades.trans (h : Fades m m') (h' : Fades m' m'') : Fades m m'' :=
  ⟨fun hw => (h.lapses hw).trans (h'.lapses (h.lapses hw).shut), h'.cancelled ∘ h.cancelled⟩

theorem fades_put : Fades m (m.put n) := by
  refine ⟨fun hw => ?_, fun hc => hc⟩
  have hv : m.vacancy = 0 := by simp [vacancy, hw]
  rw [put_of_vacancy_eq_zero hv]
  exact Fades.refl.lapses hw

theorem fades_lend : Fades m m.lend := by
  refine ⟨fun hw => ?_, fun hc => cancelledAt_lend.symm ▸ hc⟩
  rw [lend_of_not_writable hw]
  exact Fades.refl.lapses hw

theorem fades_reply (hn : n.IsReply) : Fades m (m.reply n) := by
  refine ⟨fun hw => ⟨writable_reply.trans hw, fun hl => ?loan, if m.Keeps then [n] else [], ?queue, ?due, ?answer⟩,
    fun hc => cancelledAt_reply.symm ▸ hc⟩
  case loan => simp [loan_reply, hl]
  case queue => exact queue_reply ▸ List.suffix_rfl
  case due =>
    rw [loan_reply]
    by_cases hl : m.loan = .fresh
    case pos => split <;> simp [hl, Loan.due]
    case neg => simp [hl, Keeps]
  case answer =>
    intro n' hn'
    split at hn'
    case isTrue => exact List.mem_singleton.mp hn' ▸ hn
    case isFalse => cases hn'

theorem fades_giveBack : Fades m m.giveBack :=
  ⟨fun hw => ⟨hw, fun _ => rfl, [], (List.append_nil _).symm ▸ List.suffix_rfl, Nat.zero_le _, List.forall_mem_nil _⟩,
    id⟩

theorem fades_cancel : Fades m (m.cancel now) := by
  refine ⟨fun hw => .of_suffix hw rfl List.suffix_rfl, fun hc => ?_⟩
  cases h : m.cancelledAt <;> simp_all [cancel]

theorem fades_release : Fades m m.release :=
  ⟨fun _ => .of_suffix rfl rfl List.suffix_rfl, id⟩

theorem fades_abandon : Fades m m.abandon :=
  ⟨fun hw => .of_suffix hw rfl List.nil_suffix, id⟩

theorem fades_takeNotice : Fades m (Service.takeNotice m) := by
  refine ⟨fun hw => .of_suffix ?_ rfl suffix_takeNotice, id⟩
  simp only [Service.takeNotice, Pipe.receive]
  split <;> exact hw

theorem isSome_cancel : (m.cancel now).cancelledAt.isSome := by
  cases h : m.cancelledAt <;> simp [cancel, h]

end Mailbox

namespace Exchange

variable {x y z : Exchange} {n : Notice} {id v : ConnectionId} {k j : Nat} {l : Listing} {p : Post}
  {c : Command} {r : Registration} {name room message : String} {as bs : List Act} {act : Act} {own : Bool}
  {make : Notice.Stamp → Notice} {who : Identity} {a : Audience} {except : Bool} {i : Interlude} {e : Entry}

-- What was said of one mailbox, for the mailbox of a number; none goes away.
def Fades (k : Nat) (x y : Exchange) : Prop :=
  ∀ m, x.mailboxes[k]? = some m → ∃ m', y.mailboxes[k]? = some m' ∧ m.Fades m'

-- Whether the connection with a mailbox was told to stop.
def IsCancelled (x : Exchange) (k : Nat) : Prop :=
  ∃ m, x.mailboxes[k]? = some m ∧ m.cancelledAt.isSome

theorem Fades.refl : Fades k x x :=
  fun m h => ⟨m, h, .refl⟩

theorem Fades.trans (h : Fades k x y) (h' : Fades k y z) : Fades k x z := by
  intro m hm
  have ⟨m', hm, hf⟩ := h m hm
  have ⟨m'', hm, hf'⟩ := h' m' hm
  exact ⟨m'', hm, hf.trans hf'⟩

theorem writable?_eq_some_iff {b : Bool} :
    x.writable? k = some b ↔ ∃ m, x.mailboxes[k]? = some m ∧ m.pipe.writable = b :=
  Option.map_eq_some_iff

-- The writing end that was lent from a mailbox.
def loan (x : Exchange) (k : Nat) : Mailbox.Loan :=
  (x.mailboxes[k]?.map (·.loan)).getD .absent

theorem Fades.shut (h : Fades k x y) (hw : x.writable? k = some false) : y.writable? k = some false := by
  have ⟨m, hm, hw⟩ := writable?_eq_some_iff.mp hw
  have ⟨m', hm', hf⟩ := h m hm
  exact writable?_eq_some_iff.mpr ⟨m', hm', (hf.lapses hw).shut⟩

theorem Fades.loan (h : Fades k x y) (hw : x.writable? k = some false) (hl : x.loan k = .absent) :
    y.loan k = .absent := by
  have ⟨m, hm, hw⟩ := writable?_eq_some_iff.mp hw
  have ⟨m', hm', hf⟩ := h m hm
  simp only [Exchange.loan, hm, hm', Option.map_some, Option.getD_some] at hl ⊢
  exact (hf.lapses hw).loan hl

-- What still comes into a mailbox that the exchange has let go of.
theorem Fades.late (h : Fades k x y) (hw : x.writable? k = some false) :
    ∃ ns, y.queue k <:+ x.queue k ++ ns ∧ ns.length ≤ (x.loan k).due ∧ ∀ n ∈ ns, n.IsReply := by
  have ⟨m, hm, hw⟩ := writable?_eq_some_iff.mp hw
  have ⟨m', hm', hf⟩ := h m hm
  have ⟨ns, hq, hn, hr⟩ := (hf.lapses hw).late
  refine ⟨ns, ?_, ?_, hr⟩
  case refine_1 => simpa [queue, hm, hm'] using hq
  case refine_2 =>
    simp only [Exchange.loan, hm, Option.map_some, Option.getD_some]
    omega

theorem Fades.cancelled (h : Fades k x y) (hc : x.IsCancelled k) : y.IsCancelled k := by
  have ⟨m, hm, hc⟩ := hc
  have ⟨m', hm, hf⟩ := h m hm
  exact ⟨m', hm, hf.cancelled hc⟩

theorem fades_of_mailboxes_eq (h : y.mailboxes = x.mailboxes) : Fades k x y :=
  fun m hm => ⟨m, h ▸ hm, .refl⟩

theorem fades_changeMailbox {f : Mailbox → Mailbox} (hf : ∀ m : Mailbox, m.Fades (f m)) :
    Fades k x (x.changeMailbox j f) := by
  intro m hm
  rw [getElem?_changeMailbox, hm]
  split
  case isTrue => exact ⟨f m, rfl, hf m⟩
  case isFalse => exact ⟨m, rfl, .refl⟩

theorem fades_apply : Fades k x (act.apply x) := by
  cases act
  case offer own n id =>
    cases he : x.roster.entry? id
    case none => exact fades_of_mailboxes_eq <| by rw [Act.apply, offer_of_not_isLive
      (Roster.not_isLive_iff.mpr he)]
    case some e =>
      rw [Act.apply, offer_eq he]
      exact fades_changeMailbox fun _ => Mailbox.fades_put
  case retire id =>
    simp only [Act.apply]
    split
    case h_1 => exact .refl
    case h_2 => exact fades_changeMailbox fun _ => Mailbox.fades_cancel.trans Mailbox.fades_release
  case enter r =>
    simp only [Act.apply, enter]
    split
    case h_1 => exact fades_changeMailbox fun _ => Mailbox.fades_release
    case h_2 => exact .refl
  case issue | join | leave | strike => exact .refl

theorem fades_replay : Fades k x (x.replay as) := by
  induction as generalizing x
  case nil => exact .refl
  case cons hi => exact fades_apply.trans hi

theorem fades_dismiss : Fades k x x.dismiss := by
  intro m hm
  rw [getElem?_dismiss, hm]
  split
  case isTrue => exact ⟨_, rfl, Mailbox.fades_cancel.trans Mailbox.fades_release⟩
  case isFalse => exact ⟨m, rfl, .refl⟩

theorem fades_forgoAll {cs : List Command} : Fades k x (x.forgoAll cs) := by
  induction cs generalizing x
  case nil => exact .refl
  case cons c cs hi =>
    have hc : Fades k x (x.forgo c) := by
      cases c
      case register => exact fades_changeMailbox fun _ => Mailbox.fades_release
      all_goals exact .refl
    exact hc.trans hi

theorem fades_interlude (h : x.Permits i) : Fades k x (i.apply x) := by
  cases i
  case prepare j capacity =>
    intro m hm
    have hj : j ≠ k := by
      rintro rfl
      simp [ExtTreeMap.getElem?_eq_none h] at hm
    exact ⟨m, by simp [Interlude.apply, openMailbox, ExtTreeMap.getElem?_insert, hj, hm], .refl⟩
  case take => exact fades_changeMailbox fun _ => Mailbox.fades_takeNotice
  case lend => exact fades_changeMailbox fun _ => Mailbox.fades_lend
  case reply => exact fades_changeMailbox fun _ => Mailbox.fades_reply h
  case giveBack => exact fades_changeMailbox fun _ => Mailbox.fades_giveBack
  case abandon => exact fades_changeMailbox fun _ => Mailbox.fades_abandon
  case cancel => exact fades_changeMailbox fun _ => Mailbox.fades_cancel
  case release => exact fades_changeMailbox fun _ => Mailbox.fades_release
  case issue | wait => exact .refl

-- The states that acts lead through, one after the other.
def stations (x : Exchange) : List Act → List Exchange
  | []        => []
  | act :: as => act.apply x :: (act.apply x).stations as

theorem stations_append : x.stations (as ++ bs) = x.stations as ++ (x.replay as).stations bs := by
  induction as generalizing x
  case nil => rfl
  case cons hi => simp only [List.cons_append, stations, hi]; rfl

-- What every act keeps up is never given up on the way.
theorem stations_invariant {P : Exchange → Prop} (h : ∀ y, ∀ act ∈ as, P y → P (act.apply y)) (hx : P x) :
    (∀ y ∈ x.stations as, P y) ∧ P (x.replay as) := by
  induction as generalizing x
  case nil => exact ⟨List.forall_mem_nil _, hx⟩
  case cons act as hi =>
    have ha := h x act List.mem_cons_self hx
    have ⟨hs, hr⟩ := hi (fun y act hm => h y act (List.mem_cons_of_mem _ hm)) ha
    exact ⟨List.forall_mem_cons.mpr ⟨ha, hs⟩, hr⟩

theorem pairwise_stations :
    (∀ y ∈ x.stations as, Fades k x y) ∧ (x.stations as).Pairwise (Fades k) ∧
      ∀ y ∈ x.stations as, Fades k y (x.replay as) := by
  induction as generalizing x
  case nil => exact ⟨List.forall_mem_nil _, .nil, List.forall_mem_nil _⟩
  case cons act as hi =>
    have ⟨hx, hp, hr⟩ := hi (x := act.apply x)
    refine ⟨List.forall_mem_cons.mpr ⟨fades_apply, fun y hm => fades_apply.trans (hx y hm)⟩,
      .cons hx hp, List.forall_mem_cons.mpr ⟨fades_replay, hr⟩⟩

-- Acts that say something, and do nothing else.
def Act.IsTalk : Act → Prop
  | issue | offer .. => True
  | _                => False

-- Acts that keep up a consistent roster in any state.
def Act.IsSafe : Act → Prop
  | enter _     => False
  | join _ room => RoomName.fault? room = none
  | _           => True

theorem Act.IsTalk.isSafe (h : act.IsTalk) : act.IsSafe := by
  cases act <;> first | exact h.elim | trivial

theorem Act.IsSafe.consistent (ha : act.IsSafe) (h : x.roster.Consistent) :
    (act.apply x).roster.Consistent := by
  cases act
  case offer => exact (offer_roster ..).symm ▸ h
  case join => exact h.join ha
  case leave => exact h.leave
  case issue | strike => exact h
  case enter => exact ha.elim
  case retire =>
    simp only [Act.apply]
    split
    case h_1 => exact h
    case h_2 => exact h.remove

theorem talk_tell : ∀ act ∈ Acts.tell x id make, act.IsTalk := by
  simp [Acts.tell, Act.IsTalk]

theorem talk_post : ∀ act ∈ Acts.post x own l p, act.IsTalk := by
  simp only [Acts.post]
  split
  case h_1 => exact List.forall_mem_map.mpr fun _ _ => trivial
  case h_2 =>
    split
    case h_1 => exact talk_tell
    case h_2 => exact List.forall_mem_nil _
  case h_3 => exact List.forall_mem_nil _

theorem talk_announce : ∀ act ∈ Acts.announce x l who a except make, act.IsTalk :=
  List.forall_mem_cons.mpr ⟨trivial, talk_post⟩

theorem talk_welcome : ∀ act ∈ Acts.welcome x l r, act.IsTalk :=
  List.forall_mem_append.mpr ⟨List.forall_mem_append.mpr ⟨talk_tell, talk_tell⟩, talk_announce⟩

theorem talk_closeAll : ∀ act ∈ Acts.closeAll x l message, act.IsTalk := by
  simp only [Acts.closeAll]
  split
  case isTrue => exact List.forall_mem_nil _
  case isFalse => exact List.forall_mem_cons.mpr ⟨trivial, talk_post⟩

theorem safe_of_talk (h : ∀ act ∈ as, act.IsTalk) : ∀ act ∈ as, act.IsSafe :=
  fun act hm => (h act hm).isSafe

theorem safe_unregister : ∀ act ∈ Acts.unregister x l id, act.IsSafe := by
  simp only [Acts.unregister]
  split
  case h_1 => exact List.forall_mem_nil _
  case h_2 => exact List.forall_mem_cons.mpr ⟨trivial, safe_of_talk talk_announce⟩

theorem safe_displace : ∀ act ∈ Acts.displace x l name, act.IsSafe := by
  simp only [Acts.displace]
  split
  case h_1 => exact safe_unregister
  case h_2 => exact List.forall_mem_nil _

theorem safe_join : ∀ act ∈ Acts.join x l id room, act.IsSafe := by
  simp only [Acts.join]
  split
  case h_1 => exact List.forall_mem_nil _
  case h_2 =>
    split
    case h_1 => exact safe_of_talk talk_tell
    case h_2 hf =>
      refine List.forall_mem_cons.mpr ⟨hf, List.forall_mem_append.mpr ⟨safe_of_talk talk_tell, ?_⟩⟩
      split
      case h_1 => exact safe_of_talk talk_announce
      case h_2 => exact List.forall_mem_nil _

theorem safe_leave : ∀ act ∈ Acts.leave x l id room, act.IsSafe := by
  simp only [Acts.leave]
  split
  case h_1 => exact List.forall_mem_nil _
  case h_2 =>
    split
    case h_1 =>
      refine List.forall_mem_cons.mpr ⟨trivial, List.forall_mem_append.mpr ⟨safe_of_talk talk_tell, ?_⟩⟩
      split
      case isTrue => exact safe_of_talk talk_announce
      case isFalse => exact List.forall_mem_nil _
    case h_2 => exact safe_of_talk talk_tell
    case h_3 => exact List.forall_mem_nil _

theorem Cascade.safe_acts (c : Cascade l x) : ∀ act ∈ c.acts, act.IsSafe := by
  induction c
  case rest => exact List.forall_mem_nil _
  case pass hi => exact List.forall_mem_cons.mpr ⟨trivial, hi⟩
  case evict hi =>
    exact List.forall_mem_cons.mpr ⟨trivial, List.forall_mem_append.mpr ⟨safe_unregister, hi⟩⟩

theorem consistent_stations (hs : ∀ act ∈ as, act.IsSafe) (h : x.roster.Consistent) :
    (∀ y ∈ x.stations as, y.roster.Consistent) ∧ (x.replay as).roster.Consistent :=
  stations_invariant (fun _ act hm hy => (hs act hm).consistent hy) h

-- A newcomer is entered once its name is free.
theorem consistent_enter_displace (h : x.roster.Consistent) (hr : ¬ x.roster.IsLive r.id) :
    ((x.displace l r.identity.name).enter r).roster.Consistent := by
  have hf : ¬ (x.displace l r.identity.name).roster.IsLive r.id := by
    rw [displace_roster, Roster.not_isLive_iff, Roster.entry?_vacate, Roster.not_isLive_iff.mp hr, ite_self]
  rw [enter_roster]
  refine Roster.Consistent.insert ?_ hf ?_ <;> rw [displace_roster]
  case refine_1 => exact h.vacate
  case refine_2 => exact h.lookup_vacate

-- The roster is consistent all the way through a command.
theorem consistent_stations_journal (h : x.roster.Consistent) (ha : x.Admits c) :
    ∀ y ∈ x.stations (x.journal l c), y.roster.Consistent := by
  have hp : ∀ y ∈ x.stations (Acts.perform x l c), y.roster.Consistent := by
    cases c
    case unregister => exact (consistent_stations safe_unregister h).1
    case post => exact (consistent_stations (safe_of_talk talk_post) h).1
    case join => exact (consistent_stations safe_join h).1
    case leave => exact (consistent_stations safe_leave h).1
    case query => exact List.forall_mem_nil _
    case register r =>
      have hd : ∀ act ∈ Acts.displace x l r.identity.name, act.IsSafe := safe_displace
      have he := consistent_enter_displace (l := l) h ha
      simp only [Acts.perform, Acts.register, replay_append, replay_displace, stations_append,
        List.forall_mem_append]
      exact ⟨⟨(consistent_stations hd h).1, List.forall_mem_singleton.mpr he⟩,
        (consistent_stations (safe_of_talk talk_welcome) he).1⟩
  rw [journal, stations_append, List.forall_mem_append]
  refine ⟨hp, ?_⟩
  rw [replay_perform]
  exact (consistent_stations (Cascade.safe_acts _) (consistent_perform h ha)).1

-- Either a connection is there and has the mailbox that it was registered with to itself, which is open, or it
-- is gone and has been told to stop, and the mailbox is closed.
inductive Tied (x : Exchange) (r : Registration) : Prop
  | held (own : x.Owns r.id r.mailbox) (writable : x.writable? r.mailbox = some true)
  | parted (gone : ¬ x.roster.IsLive r.id) (shut : x.writable? r.mailbox = some false)
      (cancelled : x.IsCancelled r.mailbox)

-- Acts that enter nobody else in place of a connection, and nobody else with its mailbox.
def Act.Respects (r : Registration) (act : Act) : Prop :=
  ∀ r', act = .enter r' → r'.id ≠ r.id ∧ r'.mailbox ≠ r.mailbox

theorem Act.IsTalk.respects (h : act.IsTalk) : act.Respects r := by
  rintro r' rfl
  exact h.elim

theorem writable?_apply_of_owns (h : x.Owns v k) (hr : act ≠ .retire v) (he : ∀ r, act = .enter r → r.id ≠ v) :
    (act.apply x).writable? k = x.writable? k := by
  have hk {id e} (hid : x.roster.entry? id = some e) (hn : id ≠ v) : e.mailbox ≠ k := fun hk =>
    hn <| (h id).mp <| by rw [address, hid, Option.map_some, hk]
  cases act
  case offer => exact writable?_offer
  case issue | join | leave | strike => rfl
  case retire id =>
    simp only [Act.apply]
    split
    case h_1 => rfl
    case h_2 e hid =>
      have hw : (x.retired id e).writable? k = x.writable? k :=
        writable?_retired (hk hid fun hn => hr (hn ▸ rfl))
      exact hw
  case enter r =>
    simp only [Act.apply, enter]
    split
    case h_1 e hid => exact writable?_changeMailbox fun hj => absurd hj (hk hid (he r rfl))
    case h_2 => rfl

namespace Tied

-- Whoever is retired parts with its mailbox.
theorem of_retire (h : x.Owns r.id r.mailbox) (hw : x.writable? r.mailbox = some true) :
    (Act.apply x (.retire r.id)).Tied r := by
  have ⟨e, he, hk⟩ := Option.map_eq_some_iff.mp <| (h r.id).mpr rfl
  have ⟨m, hm, _⟩ := writable?_eq_some_iff.mp hw
  have hr : Act.apply x (.retire r.id) = x.retire r.id e := by simp only [Act.apply, he]
  have hb : (x.retire r.id e).mailboxes[r.mailbox]? = some (m.cancel x.supply.now).release := by
    rw [retire, getElem?_changeMailbox, if_pos hk, hm]
    rfl
  rw [hr]
  refine .parted ?gone (writable?_eq_some_iff.mpr ⟨_, hb, rfl⟩) ⟨_, hb, Mailbox.isSome_cancel⟩
  case gone => exact fun hl => (Roster.isLive_remove.mp hl).1 rfl

theorem apply (h : x.Tied r) (ha : act.Respects r) : (act.apply x).Tied r := by
  cases h
  case parted hg hs hc =>
    refine .parted (fun hl => ?_) (fades_apply.shut hs) (fades_apply.cancelled hc)
    rw [isLive_iff_address, address_apply] at hl
    rw [isLive_iff_address] at hg
    cases act
    case retire => grind
    case enter r' =>
      simp only [(ha r' rfl).1, if_false] at hl
      exact hg hl
    all_goals exact hg hl
  case held ho hw =>
    by_cases hr : act = .retire r.id
    case pos => exact hr ▸ of_retire ho hw
    case neg =>
      have hs : Spares r.id r.mailbox [act] :=
        ⟨fun hm => hr (List.mem_singleton.mp hm).symm,
          fun r' hm => ha r' (List.mem_singleton.mp hm).symm⟩
      refine .held (ho.apply hs) ?_
      rw [writable?_apply_of_owns ho hr fun r' he => (ha r' he).1, hw]

theorem stations (h : x.Tied r) (ha : ∀ act ∈ as, act.Respects r) :
    (∀ y ∈ x.stations as, y.Tied r) ∧ (x.replay as).Tied r :=
  stations_invariant (fun _ act hm hy => hy.apply (ha act hm)) h

theorem interlude (h : x.Tied r) (hp : x.Permits i) : (i.apply x).Tied r := by
  cases h
  case parted hg hs hc =>
    have hf := fades_interlude (k := r.mailbox) hp
    exact .parted ((apply_roster i).symm ▸ hg) (hf.shut hs) (hf.cancelled hc)
  case held ho hw =>
    have ⟨e, he, hk⟩ := Option.map_eq_some_iff.mp <| (ho r.id).mpr rfl
    refine .held (fun w => ?_) ?_
    case refine_1 =>
      rw [address, apply_roster]
      exact ho w
    case refine_2 =>
      rw [← hk] at hw ⊢
      exact (writable?_apply hp he hw).trans hw

theorem dismiss (h : x.Tied r) : x.dismiss.Tied r := by
  have hg : ¬ x.dismiss.roster.IsLive r.id := ExtTreeMap.not_mem_empty
  cases h
  case parted hs hc => exact .parted hg (fades_dismiss.shut hs) (fades_dismiss.cancelled hc)
  case held ho hw =>
    have ⟨m, hm, _⟩ := writable?_eq_some_iff.mp hw
    have hb : x.dismiss.mailboxes[r.mailbox]? = some (m.cancel x.supply.now).release := by
      rw [getElem?_dismiss, if_pos (exists_entry_iff.mpr ⟨r.id, (ho r.id).mpr rfl⟩), hm]
      rfl
    exact .parted hg (writable?_eq_some_iff.mpr ⟨_, hb, rfl⟩) ⟨_, hb, Mailbox.isSome_cancel⟩

-- Whoever is gone has no more to do with the mailbox.
theorem forgoAll {cs : List Command} (h : x.Tied r) (hg : ¬ x.roster.IsLive r.id) : (x.forgoAll cs).Tied r := by
  cases h
  case held ho _ => exact absurd (isLive_iff_address.mpr ⟨_, (ho r.id).mpr rfl⟩) hg
  case parted hs hc =>
    exact .parted (roster_forgoAll (x := x) ▸ hg) (fades_forgoAll.shut hs) (fades_forgoAll.cancelled hc)

-- A newcomer comes with a mailbox that nobody else has had.
theorem mailbox_ne {r' : Registration} (h : x.Tied r) (hr : x.Newcomer r') : r'.mailbox ≠ r.mailbox := by
  intro hm
  cases h
  case held ho _ =>
    have ⟨e, he, hk⟩ := Option.map_eq_some_iff.mp <| (ho r.id).mpr rfl
    exact hr.own r.id e he (hk.trans hm.symm)
  case parted hs _ =>
    have := hm ▸ hr.held
    simp [hs] at this

theorem journal (h : x.Tied r) (ha : x.Allows c) (hn : ∀ r', c = .register r' → r'.id ≠ r.id) :
    (∀ y ∈ x.stations (x.journal l c), y.Tied r) ∧ (x.handle l c).Tied r := by
  have hr : ∀ act ∈ x.journal l c, act.Respects r := by
    rintro _ hm r' rfl
    have hm := (List.mem_append.mp hm).resolve_right (Cascade.enter_not_mem_acts _)
    cases enter_mem_perform hm
    exact ⟨hn r' rfl, h.mailbox_ne ha⟩
  exact replay_journal ▸ h.stations hr

theorem closeAll (h : x.Tied r) :
    (∀ y ∈ x.stations (Acts.closeAll x l message), y.Tied r) ∧ (x.closeAll l message).Tied r := by
  have ha : ∀ act ∈ Acts.closeAll x l message, act.Respects r := fun act hm => (talk_closeAll act hm).respects
  have ⟨hs, hr⟩ := h.stations ha
  exact ⟨hs, closeAll_eq ▸ hr.dismiss⟩

end Tied

-- Once a newcomer is entered nobody else is.
theorem journal_register :
    ∃ as, x.journal l (.register r) = Acts.displace x l r.identity.name ++ .enter r :: as ∧ ∀ r', .enter r' ∉ as := by
  let z := x.displace l r.identity.name
  refine ⟨Acts.welcome (z.enter r) l r ++ (cascade l (x.perform l (.register r))).acts, ?_, fun r' hm => ?_⟩
  case refine_1 =>
    simp only [journal, Acts.perform, Acts.register, replay_append, replay_displace, List.append_assoc]
    rfl
  case refine_2 =>
    cases List.mem_append.mp hm
    case inl hm => exact (talk_welcome _ hm).elim
    case inr hm => exact absurd hm (Cascade.enter_not_mem_acts _)

-- From the time when a newcomer is entered, it is tied to its mailbox, which was open until then.
theorem Sound.tied_register (h : x.Sound) (hr : x.Newcomer r) :
    (∀ y ∈ x.stations (x.journal l (.register r)), y.writable? r.mailbox ≠ some false ∨ y.Tied r) ∧
      (x.handle l (.register r)).Tied r := by
  let z := x.displace l r.identity.name
  have ⟨as, hj, ha⟩ : ∃ as, x.journal l (.register r) = Acts.displace x l r.identity.name ++ .enter r :: as ∧ _ :=
    journal_register
  have hz : z.Newcomer r := h.newcomer_displace hr
  have hs : (z.enter r).Sound := h.displace.enter hz h.lookup_displace
  have he : (z.enter r).roster.entry? r.id = some ⟨r.identity, r.mailbox, ∅⟩ := by
    rw [enter_roster, Roster.entry?_insert, if_pos rfl]
  have ht : (z.enter r).Tied r := .held (hs.owns he) (hs.held _ _ he)
  obtain ⟨hw, hl⟩ : (∀ y ∈ (z.enter r).stations as, y.Tied r) ∧ ((z.enter r).replay as).Tied r :=
    ht.stations fun _ hm r' he => absurd (he ▸ hm) (ha r')
  have hr : (z.enter r).replay as = x.handle l (.register r) := by
    rw [← replay_journal, hj]
    exact (replay_append.trans (replay_displace ▸ rfl)).symm
  rw [hj, stations_append, List.forall_mem_append, replay_displace]
  refine ⟨⟨fun y hy => .inl fun hc => ?before,
    List.forall_mem_cons.mpr ⟨.inr ht, fun y hy => .inr (hw y hy)⟩⟩, hr ▸ hl⟩
  case before =>
    have hf := (pairwise_stations (k := r.mailbox)).2.2 y hy
    rw [replay_displace] at hf
    have := (hf.shut hc).symm.trans hz.held
    cases this

end Exchange
end Parley
