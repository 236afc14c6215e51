import Parley.Proofs.Service.Waiting

namespace Parley

open Std

-- A mailbox whose owner was told to stop if it takes nothing more.
def Mailbox.Warns (m : Mailbox) : Prop := m.pipe.writable = false → m.cancelledAt.isSome

namespace Mailbox

variable {m m' : Mailbox} {n : Notice} {now capacity : Nat}

theorem warns_new : (new capacity).Warns := nofun

theorem warns_of_cancelled (h : m.cancelledAt.isSome) : m.Warns := fun _ => h

theorem Warns.of_writable_eq (h : m.Warns) (hw : m'.pipe.writable = m.pipe.writable) (hf : m.Fades m') : m'.Warns :=
  fun hs => hf.cancelled (h (hw ▸ hs))

theorem Warns.put (h : m.Warns) : (m.put n).Warns :=
  h.of_writable_eq writable_put fades_put

theorem Warns.lent {r : Session.Reaction} (h : m.Warns) : (r.lent m).Warns := fun hw =>
  (congrArg Option.isSome cancelledAt_lent).trans (h (pipe_lent ▸ hw))

theorem Warns.tend {k : Session.Courier} (h : m.Warns) : (k.tend m).Warns := fun hw =>
  (congrArg Option.isSome cancelledAt_tend).trans (h (writable_tend ▸ hw))

theorem Warns.takeNotice (h : m.Warns) : (Service.takeNotice m).Warns :=
  h.of_writable_eq (by unfold Service.takeNotice Pipe.receive; split <;> rfl) fades_takeNotice

theorem Warns.abandon (h : m.Warns) : m.abandon.Warns :=
  h.of_writable_eq rfl fades_abandon

theorem warns_cancel : (m.cancel now).Warns :=
  warns_of_cancelled isSome_cancel

theorem warns_cancel_release : (m.cancel now).release.Warns :=
  warns_of_cancelled isSome_cancel

end Mailbox

namespace Session

variable {d : Desk} {m m' : Mailbox} {c c' : Session}

-- Sessions do not close mailboxes.
theorem Stride.warns (h : c.Stride d m c' m') (hm : m.Warns) : m'.Warns := by
  cases h
  case hear => exact hm.lent
  case bring | send => exact hm.tend
  case take f _ _ =>
    cases f
    case text => exact hm.takeNotice
    all_goals exact hm
  case close => exact Mailbox.warns_cancel
  case cease | leave => exact hm.abandon
  all_goals exact hm

end Session

namespace Exchange

-- What was said of one mailbox, for the mailbox of a number, if there is one.
def Warns (x : Exchange) (k : Nat) : Prop :=
  ∀ m, x.mailboxes[k]? = some m → m.Warns

variable {x y : Exchange} {k j capacity : Nat} {f : Mailbox → Mailbox} {act : Act} {as : List Act} {l : Listing}
  {c : Command} {message : String}

theorem Warns.of_mailboxes_eq (h : x.Warns k) (hm : y.mailboxes = x.mailboxes) : y.Warns k :=
  fun m hk => h m (hm ▸ hk)

theorem Warns.changeMailbox (h : x.Warns k) (hf : ∀ m : Mailbox, j = k → m.Warns → (f m).Warns) :
    (x.changeMailbox j f).Warns k := by
  intro m hm
  rw [getElem?_changeMailbox] at hm
  split at hm
  case isFalse => exact h m hm
  case isTrue hj =>
    obtain ⟨m₀, hm₀, rfl⟩ := Option.map_eq_some_iff.mp hm
    exact hf m₀ hj (h m₀ hm₀)

theorem Warns.openMailbox (h : x.Warns k) : (x.openMailbox j capacity).Warns k := by
  intro m hm
  rw [Exchange.openMailbox, ExtTreeMap.getElem?_insert] at hm
  split at hm
  case isTrue => exact Option.some.inj hm ▸ Mailbox.warns_new
  case isFalse => exact h m hm

-- Whoever is let go is told to stop.
theorem Warns.apply (h : x.Warns k) (ha : ∀ r, act = .enter r → ¬ x.roster.IsLive r.id) : (act.apply x).Warns k := by
  cases act
  case offer own n id =>
    cases he : x.roster.entry? id
    case none => rwa [Act.apply, offer_of_not_isLive (Roster.not_isLive_iff.mpr he)]
    case some e =>
      rw [Act.apply, offer_eq he]
      exact h.changeMailbox fun _ _ hm => hm.put
  case retire id =>
    simp only [Act.apply]
    split
    case h_1 => exact h
    case h_2 => exact h.changeMailbox fun _ _ _ => Mailbox.warns_cancel_release
  case enter r =>
    simp only [Act.apply, enter, Roster.not_isLive_iff.mp (ha r rfl)]
    exact h
  case issue | join | leave | strike => exact h

theorem Warns.replay (h : x.Warns k) (hs : ∀ act ∈ as, act.IsSafe) : (x.replay as).Warns k := by
  induction as generalizing x
  case nil => exact h
  case cons act as hi =>
    obtain ⟨ha, hs⟩ := List.forall_mem_cons.mp hs
    refine hi (h.apply ?_) hs
    rintro r rfl
    exact ha.elim

theorem Warns.perform (h : x.Warns k) (ha : x.Admits c) : (x.perform l c).Warns k := by
  rw [← replay_perform]
  cases c
  case unregister => exact h.replay safe_unregister
  case post => exact h.replay (safe_of_talk talk_post)
  case join => exact h.replay safe_join
  case leave => exact h.replay safe_leave
  case query => exact h
  case register r =>
    -- A newcomer takes nobody's place but that of whoever had the name, who is let go before.
    have hn : ¬ (x.displace l r.identity.name).roster.IsLive r.id := by
      rw [displace_roster, Roster.not_isLive_iff, Roster.entry?_vacate, Roster.not_isLive_iff.mp ha, ite_self]
    have hd : (x.displace l r.identity.name).Warns k := replay_displace (x := x) ▸ h.replay safe_displace
    have he : (Act.apply (x.displace l r.identity.name) (.enter r)).Warns k :=
      hd.apply fun r' hr => Act.enter.inj hr ▸ hn
    simp only [Acts.perform, Acts.register, replay_append, replay_displace]
    exact he.replay (safe_of_talk talk_welcome)

theorem Warns.handle (h : x.Warns k) (ha : x.Admits c) : (x.handle l c).Warns k := by
  rw [← replay_journal, journal, replay_append, replay_perform]
  exact (h.perform ha).replay (Cascade.safe_acts _)

-- A connection is there with a mailbox, or whoever has that was told to stop.
def Guards (x : Exchange) (v : ConnectionId) (k : Nat) : Prop :=
  x.address v = some k ∨ x.Has k fun m => m.cancelledAt.isSome

variable {v : ConnectionId} {r : Registration}

theorem Guards.apply (h : x.Guards v k) (hb : x.Has k fun _ => True) (ha : ∀ r, act = .enter r → r.id ≠ v) :
    (act.apply x).Guards v k := by
  obtain h | h := h
  case inr => exact .inr (h.apply Mailbox.stands_isCancelled)
  case inl =>
    by_cases hr : act = .retire v
    case pos =>
      subst hr
      obtain ⟨e, he, rfl⟩ := Option.map_eq_some_iff.mp h
      obtain ⟨m, hm, _⟩ := hb
      refine .inr ⟨(m.cancel x.supply.now).release, ?_, Mailbox.isSome_cancel⟩
      simp only [Act.apply, he]
      exact getElem?_changeMailbox.trans ((if_pos rfl).trans (congrArg _ hm))
    case neg =>
      refine .inl ?_
      rw [address_apply]
      cases act
      case retire id => exact (if_neg fun hv : id = v => hr (hv ▸ rfl)).trans h
      case enter r => exact (if_neg (ha r rfl)).trans h
      all_goals exact h

theorem Guards.replay (h : x.Guards v k) (hb : x.Has k fun _ => True) (ha : ∀ r, .enter r ∈ as → r.id ≠ v) :
    (x.replay as).Guards v k := by
  induction as generalizing x
  case nil => exact h
  case cons act as hi =>
    refine hi (h.apply hb fun r hr => ha r (hr ▸ List.mem_cons_self)) (hb.apply Mailbox.stands_true) fun r hm => ?_
    exact ha r (List.mem_cons_of_mem _ hm)

-- Only someone else may be registered.
theorem Guards.handle (h : x.Guards v k) (hb : x.Has k fun _ => True) (hn : ∀ r, c = .register r → r.id ≠ v) :
    (x.handle l c).Guards v k := by
  rw [← replay_journal]
  refine h.replay hb fun r hm => ?_
  have hm := (List.mem_append.mp hm).resolve_right (Cascade.enter_not_mem_acts _)
  exact hn r (enter_mem_perform hm)

-- A newcomer is there with its mailbox, or has come and gone.
theorem guards_register (hb : x.Has r.mailbox fun _ => True) :
    (x.handle l (.register r)).Guards r.id r.mailbox := by
  obtain ⟨as, hj, ha⟩ : ∃ as, x.journal l (.register r) = Acts.displace x l r.identity.name ++ .enter r :: as ∧ _ :=
    journal_register
  have hd : (x.displace l r.identity.name).Has r.mailbox fun _ => True :=
    replay_displace (x := x) ▸ hb.replay Mailbox.stands_true _
  have he : (Act.apply (x.displace l r.identity.name) (.enter r)).Guards r.id r.mailbox :=
    .inl (address_apply.trans (if_pos rfl))
  rw [← replay_journal, hj, replay_append, replay_displace]
  exact he.replay (hd.apply Mailbox.stands_true) fun r' hm => absurd hm (ha r')

-- In the end everyone is told to stop.
theorem Guards.closeAll (h : x.Guards v k) (hb : x.Has k fun _ => True) :
    (x.closeAll l message).Has k fun m => m.cancelledAt.isSome := by
  have htalk (r : Registration) (hm : .enter r ∈ Acts.closeAll x l message) : r.id ≠ v :=
    have ht : (Act.enter r).IsTalk := talk_closeAll _ hm
    ht.elim
  obtain ⟨m, hm, _⟩ := hb.replay Mailbox.stands_true (Acts.closeAll x l message)
  rw [closeAll_eq, Has, getElem?_dismiss, hm]
  obtain h | ⟨m', hm', hc⟩ := h.replay hb htalk
  case inl => exact ⟨_, if_pos (exists_entry_iff.mpr ⟨v, h⟩), Mailbox.isSome_cancel⟩
  case inr =>
    cases Option.some.inj (hm.symm.trans hm')
    split
    case isTrue => exact ⟨_, rfl, Mailbox.isSome_cancel⟩
    case isFalse => exact ⟨_, rfl, hc⟩

end Exchange

namespace Service

-- Nobody else has changed a mailbox in a run.
def Run.IsUntampered {s t : Service} (k : Nat) : Run s t → Prop
  | refl        => True
  | step run st => run.IsUntampered k ∧ ¬ st.Tampers k

-- Every session has a mailbox of its own, and waits at the desk if it waits, besides what is so in general.
structure Settled (s : Service) (left : List Errand) : Prop where
  proper : s.Proper left
  housed : s.IsHoused
  boxed  : ∀ c ∈ s.sessions, s.desk.exchange.Has c.mailbox fun _ => True
  apart  : (s.sessions.map (·.mailbox)).Nodup
  waits  : s.Waits

-- A session whose mailbox is open until the session is told to stop.  Once the session is admitted, the exchange does
-- not let go of the mailbox without telling it.
structure Holds (x : Exchange) (c : Session) : Prop where
  warns  : x.Warns c.mailbox
  guards : c.stage = .registering ∨ x.Guards c.id c.mailbox

-- What is so of a mailbox at every moment of a run, besides what is so in general.
structure Orderly (s : Service) (k : Nat) (left : List Errand) : Prop extends s.Settled left where
  holds : ∀ c ∈ s.sessions, c.mailbox = k → ¬ c.stage.IsBarred → Holds s.desk.exchange c

variable {s t : Service} {i k : Nat} {c c' : Session} {left : List Errand} {l : Listing}

-- Whoever is not turned away keeps the mailbox as it is.
theorem exchange_foldl_handOver {rs : Desk.Replies} (hr : ∀ r ∈ rs, ∀ e, r.2 ≠ .refused e) :
    (rs.foldl handOver s).desk.exchange = s.desk.exchange := by
  induction rs generalizing s
  case nil => rfl
  case cons r rs hi =>
    obtain ⟨hn, hr⟩ := List.forall_mem_cons.mp hr
    refine (hi hr).trans ?_
    simp only [handOver]
    split
    case h_1 => rfl
    case h_2 =>
      split
      case h_1 => rfl
      case h_2 =>
        split
        case h_1 e => exact absurd rfl (hn e)
        case h_2 => rfl

theorem warns_shutdown (h : s.desk.exchange.Warns k) : s.shutdown.desk.exchange.Warns k := by
  have hfold (cs : List Session) (u : Service) (hu : u.desk.exchange.Warns k) :
      (cs.foldl (fun u c => u.changeMailbox c.mailbox (·.cancel s.now)) u).desk.exchange.Warns k := by
    induction cs generalizing u
    case nil => exact hu
    case cons hi => exact hi _ (hu.changeMailbox fun _ _ _ => Mailbox.warns_cancel)
  exact hfold _ _ h

-- Whoever was turned away stays so.
theorem Step.isBarred (st : Step s t) (hp : s.Proper left) (hi : s.sessions[i]? = some c)
    (hi' : t.sessions[i]? = some c') (hb : c.stage.IsBarred) : c'.stage.IsBarred := by
  by_cases hby : st.IsBy i
  case neg =>
    obtain ⟨c₁, hi₁, hc⟩ := st.suffers hby hp hi
    cases Option.some.inj (hi'.symm.trans hi₁)
    obtain ⟨link, rfl⟩ := hc.exists_link fun hr => by rw [hr] at hb; exact hb
    exact hb
  case pos =>
    cases st
    case session j m hm =>
      obtain rfl : j = i := hby
      obtain ⟨_, c₁, _, ht⟩ := Turns.of_move hm
      cases Option.some.inj (hi.symm.trans ht.before)
      cases Option.some.inj (hi'.symm.trans ht.self)
      exact (ht.turn.isBarred (hp.keeps _ (List.mem_of_getElem? hi)) hb).1
    all_goals exact hby.elim

-- As long as the desk does nothing, mailboxes are closed by nobody.
theorem Step.warns (st : Step s t) (hst : ¬ st.Tampers k) (hk : k < s.mailboxes) (hd : ∀ l, s.stepDesk l ≠ some t)
    (h : s.desk.exchange.Warns k) : t.desk.exchange.Warns k := by
  cases st
  case connect id identity limits link _ =>
    obtain ⟨c, ho⟩ := s.exists_opens id identity limits link
    exact fun m hm => h m (ho.others k (Nat.ne_of_lt (ho.mailbox.symm ▸ hk)) ▸ hm)
  case session i m hm =>
    obtain ⟨c, c', m', hs⟩ := Strides.of_move hm
    intro m₁ hm₁
    rw [hs.mailboxes] at hm₁
    split at hm₁
    case isFalse => exact h m₁ hm₁
    case isTrue hk =>
      obtain ⟨m₀, hm₀, rfl⟩ := Option.map_eq_some_iff.mp hm₁
      subst hk
      exact hs.stride.warns (mailbox_eq hm₀ ▸ h m₀ hm₀)
  case desk hd' => exact absurd hd' (hd _)
  case visit ht => exact h.of_mailboxes_eq (congrArg _ (exchange_submit ht))
  case shutdown => exact warns_shutdown h
  case openMailbox => exact h.openMailbox
  case mailbox j f => exact h.changeMailbox fun _ hj => absurd hj hst
  case link j f =>
    simp only [changeLink]
    split <;> exact h
  case pass | collect | desert => exact h

theorem Step.apart (st : Step s t) (hp : s.Proper left) (hh : s.IsHoused) (h : (s.sessions.map (·.mailbox)).Nodup) :
    (t.sessions.map (·.mailbox)).Nodup := by
  by_cases ha : st.IsArrival
  case neg =>
    have hm : t.sessions.map (·.mailbox) = s.sessions.map (·.mailbox) := by
      refine List.ext_getElem? fun i => ?_
      rw [List.getElem?_map, List.getElem?_map]
      cases hi : s.sessions[i]?
      case none => rw [List.getElem?_eq_none (st.length_eq ha ▸ List.getElem?_eq_none_iff.mp hi)]
      case some c =>
        obtain ⟨c', hi', hb⟩ := st.befalls hp hi
        rw [hi', Option.map_some, Option.map_some, hb.isSame.mailbox]
    exact hm ▸ h
  case pos =>
    obtain ⟨c, ho⟩ := st.exists_opens ha
    rw [ho.sessions, List.map_append, List.nodup_append]
    refine ⟨h, List.pairwise_singleton .., fun a hm b hb => ?_⟩
    obtain ⟨c₀, hc, rfl⟩ := List.mem_map.mp hm
    obtain rfl : b = s.mailboxes := (List.mem_singleton.mp hb).trans ho.mailbox
    exact Nat.ne_of_lt (hh c₀ hc)

-- No mailbox is ever taken away.
theorem Step.has (st : Step s t) (hk : k < s.mailboxes) (h : s.desk.exchange.Has k fun _ => True) :
    t.desk.exchange.Has k fun _ => True := by
  by_cases hst : st.Tampers k
  case neg =>
    exact (st.outlasts hst Mailbox.stands_true fun _ _ _ _ _ _ _ => id).has hk h
  case pos =>
    cases st
    case mailbox => exact h.changeMailbox fun _ _ => id
    all_goals exact hst.elim

theorem Step.boxed (st : Step s t) (hp : s.Proper left) (hh : s.IsHoused)
    (h : ∀ c ∈ s.sessions, s.desk.exchange.Has c.mailbox fun _ => True) :
    ∀ c ∈ t.sessions, t.desk.exchange.Has c.mailbox fun _ => True := by
  intro c' hm
  obtain ⟨i, hi⟩ := List.mem_iff_getElem?.mp hm
  obtain ⟨c, hc, hb⟩ | ⟨_, ho⟩ := st.origin hp hi
  case inl =>
    have hm := List.mem_of_getElem? hc
    exact hb.isSame.mailbox ▸ st.has (hh c hm) (h c hm)
  case inr =>
    obtain ⟨m, hm, _⟩ := ho.own
    exact ⟨m, hm, trivial⟩

namespace Settled

theorem step (h : s.Settled left) (st : Step s t) : t.Settled (left ++ s.left t) where
  proper := (st.proper h.proper).1
  housed := st.isHoused h.proper h.housed
  boxed := st.boxed h.proper h.housed h.boxed
  apart := st.apart h.proper h.housed h.apart
  waits := h.waits.step h.proper st

-- Nobody else has the mailbox of a session.
theorem eq_of_mailbox {j : Nat} (h : s.Settled left) (hi : s.sessions[i]? = some c) (hj : s.sessions[j]? = some c')
    (hk : c.mailbox = c'.mailbox) : i = j := by
  have ⟨hlt, _⟩ := List.getElem?_eq_some_iff.mp hi
  refine (List.getElem?_inj (by simpa using hlt) h.apart).mp ?_
  rw [List.getElem?_map, List.getElem?_map, hi, hj, Option.map_some, Option.map_some, hk]

end Settled

theorem settled_new {farewell : String} {capacity : Nat} : (Service.new farewell capacity).Settled [] :=
  ⟨proper_new, isHoused_new, List.forall_mem_nil _, .nil, waits_new⟩

theorem Run.settled (run : Run s t) (h : s.Settled left) : ∃ more, t.Settled (left ++ more) := by
  induction run
  case refl => exact ⟨[], (List.append_nil left).symm ▸ h⟩
  case step st hi =>
    obtain ⟨_, h⟩ := hi
    exact ⟨_, List.append_assoc .. ▸ h.step st⟩

theorem Opens.holds (ho : s.Opens t c) (hb : ¬ c.stage.IsBarred) : Holds t.desk.exchange c where
  warns m hm hw := by
    obtain ⟨m', hm', _, hopen⟩ := ho.own
    cases Option.some.inj (hm.symm.trans hm')
    exact absurd (hopen hw).isBarred hb
  guards := .inl (Session.Stage.eq_registering ho.fresh hb)

-- Whoever waits no more after a command had that command at the desk.
theorem eq_registration_of_handle {e : Errand} {backlog : List Errand} (hs : s.Settled left) (ht : t.Proper left)
    (hb : s.desk.backlog = e :: backlog) (hb' : t.desk.backlog = backlog) (hi : s.sessions[i]? = some c)
    (hi' : t.sessions[i]? = some c') (hsame : c.IsSame c') (hc : c.stage = .registering)
    (hc' : c'.stage ≠ .registering) : e = c.registration i := by
  refine ((List.mem_cons.mp (hb ▸ hs.waits i c hi hc)).resolve_right fun hm => hc' ?_).symm
  exact ht.waits c' (List.mem_of_getElem? hi') (c.registration i) (hb' ▸ hm) (congrArg some hsame.id.symm)

theorem Holds.handle {e : Errand} {backlog : List Errand} (h : Holds s.desk.exchange c) (hs : s.Settled left)
    (ht : t.Proper left) (hb : s.desk.backlog = e :: backlog) (hb' : t.desk.backlog = backlog)
    (hx : t.desk.exchange = s.desk.exchange.handle l e.command) (hi : s.sessions[i]? = some c)
    (hi' : t.sessions[i]? = some c') (hsame : c.IsSame c') : Holds t.desk.exchange c' := by
  have hm := List.mem_of_getElem? hi
  refine ⟨?warns, or_iff_not_imp_left.mpr fun hc' => ?guards⟩ <;> rw [hx, hsame.mailbox]
  case warns => exact h.warns.handle (hs.proper.books.admits hb)
  case guards =>
    rw [hsame.id]
    by_cases hc : c.stage = .registering
    case pos =>
      rw [eq_registration_of_handle hs ht hb hb' hi hi' hsame hc hc']
      exact Exchange.guards_register (hs.boxed c hm)
    case neg =>
      refine (h.guards.resolve_left hc).handle (hs.boxed c hm) fun r hr hid => hc ?_
      exact hs.proper.waits c hm e (hb ▸ List.mem_cons_self) (Desk.newcomer?_eq_some_iff.mpr ⟨r, hr, hid⟩)

-- When the exchange ends, whoever waits is turned away, and everyone else is told to stop.
theorem Holds.stop (h : Holds s.desk.exchange c) (hs : s.Settled left)
    (ht : t = (s.desk.stop l).1.foldl handOver { s with desk := (s.desk.stop l).2 }) (hi : s.sessions[i]? = some c)
    (hi' : t.sessions[i]? = some c') (hsame : c.IsSame c') (hb : ¬ c'.stage.IsBarred) : Holds t.desk.exchange c' := by
  have hm := List.mem_of_getElem? hi
  have hc : c.stage ≠ .registering := by
    intro hc
    have hreply : (Caller.session i, Reply.refused .closed) ∈ (s.desk.stop l).1 :=
      Desk.mem_replies_stop (hs.waits i c hi hc)
    obtain ⟨r', hm', hstage⟩ := exists_stage_eq hreply rfl (ht ▸ hi')
    obtain ⟨r, hr⟩ := Desk.refused_of_mem_stop hm'
    rw [hstage, hr] at hb
    exact hb trivial
  have hstop : (s.desk.stop l).2.exchange.Has c.mailbox fun m => m.cancelledAt.isSome :=
    ((h.guards.resolve_left hc).closeAll (hs.boxed c hm)).forgoAll Mailbox.stands_isCancelled
  have hover : t.desk.exchange.Has c'.mailbox fun m => m.cancelledAt.isSome := by
    have hfold : Outlasts (fun m => m.cancelledAt.isSome) c.mailbox { s with desk := (s.desk.stop l).2 } t :=
      ht ▸ Outlasts.foldl (fun _ _ => .handOver Mailbox.stands_isCancelled) (s.desk.stop l).1
    exact hsame.mailbox ▸ hfold.has (hs.housed c hm) hstop
  refine ⟨fun m hm hw => ?_, .inr (.inr hover)⟩
  obtain ⟨m', hm', hc⟩ := hover
  exact Option.some.inj (hm.symm.trans hm') ▸ hc

theorem Holds.desk (h : Holds s.desk.exchange c) (hs : s.Settled left) (hd : s.stepDesk l = some t)
    (hi : s.sessions[i]? = some c) (hi' : t.sessions[i]? = some c') (hsame : c.IsSame c') (hb : ¬ c'.stage.IsBarred) :
    Holds t.desk.exchange c' := by
  have hproper := hs.proper.desk hd
  obtain ⟨⟨rs, d⟩, hstep, ht⟩ := Option.map_eq_some_iff.mp hd
  obtain ⟨_, ⟨e, backlog, _, hbacklog, rfl, rfl⟩ | ⟨_, hstop⟩⟩ := Desk.step_eq_some hstep
  case inr =>
    cases hstop
    exact h.stop hs ht.symm hi hi' hsame hb
  case inl =>
    refine h.handle (l := l) hs hproper hbacklog ?backlog ?exchange hi hi' hsame <;> subst ht
    case backlog => exact (foldl_handOver _).1.backlog.trans (List.append_nil _)
    case exchange => exact exchange_foldl_handOver fun _ hr e' => Desk.not_refused_of_mem hr e'

-- As long as the desk does nothing, nobody is removed, and nobody learns anything.
theorem Holds.takes (h : Holds s.desk.exchange c) (hs : s.Settled left) {new : List Errand}
    (hd : s.desk.Takes t.desk new) (hp : t.Proper (left ++ new)) (hw : t.desk.exchange.Warns c.mailbox)
    (hlasts : Outlasts (fun m => m.cancelledAt.isSome) c.mailbox s t) (hi : s.sessions[i]? = some c)
    (hi' : t.sessions[i]? = some c') (hsame : c.IsSame c') : Holds t.desk.exchange c' := by
  have hm := List.mem_of_getElem? hi
  refine ⟨hsame.mailbox ▸ hw, or_iff_not_imp_left.mpr fun hc' => ?_⟩
  rw [hsame.id, hsame.mailbox]
  have hc : c.stage ≠ .registering := by
    intro hc
    have hreg : c.registration i ∈ t.desk.backlog := hd.backlog ▸ List.mem_append_left _ (hs.waits i c hi hc)
    exact hc' (hp.waits c' (List.mem_of_getElem? hi') _ hreg (congrArg some hsame.id.symm))
  obtain h | h := h.guards.resolve_left hc
  case inl =>
    rw [Exchange.Guards, Exchange.address, hd.roster]
    exact .inl h
  case inr => exact .inr (hlasts.has (hs.housed c hm) h)

namespace Orderly

theorem step (h : s.Orderly k left) (st : Step s t) (hst : ¬ st.Tampers k) : t.Orderly k (left ++ s.left t) where
  toSettled := h.toSettled.step st
  holds := by
    rintro c' hm rfl hb
    obtain ⟨i, hi'⟩ := List.mem_iff_getElem?.mp hm
    obtain ⟨c, hi, hbefalls⟩ | ⟨_, ho⟩ := st.origin h.proper hi'
    case inr => exact ho.holds hb
    case inl =>
      have hc := List.mem_of_getElem? hi
      have hsame := hbefalls.isSame
      have hholds := h.holds c hc hsame.mailbox.symm fun hb' => hb (st.isBarred h.proper hi hi' hb')
      by_cases hdesk : ∃ l, s.stepDesk l = some t
      case pos =>
        obtain ⟨l, hd⟩ := hdesk
        exact hholds.desk h.toSettled hd hi hi' hsame hb
      case neg =>
        rw [hsame.mailbox] at hst
        obtain ⟨new, hd⟩ := st.takes_or_desk.resolve_right hdesk
        have hp := (st.proper h.proper).1
        have hwarns := st.warns hst (h.housed c hc) (not_exists.mp hdesk) hholds.warns
        have hlasts : Outlasts (fun m => m.cancelledAt.isSome) c.mailbox s t :=
          st.outlasts hst Mailbox.stands_isCancelled fun _ _ _ _ _ hs hk h => hs.stride.isCancelled (hk ▸ h)
        exact hholds.takes h.toSettled hd (left_of_takes hd ▸ hp) hwarns hlasts hi hi' hsame

theorem exchange_warns (h : s.Orderly k left) (hi : s.sessions[i]? = some c) (hk : c.mailbox = k)
    (hb : ¬ c.stage.IsBarred) : s.desk.exchange.Warns k :=
  hk ▸ (h.holds c (List.mem_of_getElem? hi) hk hb).warns

end Orderly

theorem orderly_new {farewell : String} {capacity : Nat} : (Service.new farewell capacity).Orderly k [] :=
  ⟨settled_new, List.forall_mem_nil _⟩

theorem Run.orderly (run : Run s t) (hrun : run.IsUntampered k) (h : s.Orderly k left) :
    ∃ more, t.Orderly k (left ++ more) := by
  induction run
  case refl => exact ⟨[], (List.append_nil left).symm ▸ h⟩
  case step st hi =>
    obtain ⟨_, h⟩ := hi hrun.1
    exact ⟨_, List.append_assoc .. ▸ h.step st hrun.2⟩

-- Wherever a run leads, if nobody else has changed the mailbox of a session, it is open unless the session was told to
-- stop, or was turned away.
theorem Run.warns {farewell : String} {capacity : Nat} (run : Run (.new farewell capacity) s)
    (hrun : run.IsUntampered c.mailbox) (hi : s.sessions[i]? = some c) (hb : ¬ c.stage.IsBarred) :
    s.desk.exchange.Warns c.mailbox := by
  obtain ⟨_, h⟩ := run.orderly hrun orderly_new
  exact h.exchange_warns hi rfl hb

end Service
end Parley
