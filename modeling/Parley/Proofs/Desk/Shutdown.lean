import Parley.Proofs.Desk.Order
import Parley.Proofs.Exchange.Audience
import Parley.Proofs.Exchange.Parting

namespace Parley

open Std

namespace Exchange

variable {x y : Exchange} {n : Notice} {id : ConnectionId} {e : Entry} {ids : List ConnectionId} {forgone : List Nat}
  {cs : List Command}

-- A last notice went to whoever had room for it.  Everyone was told to stop, and all their mailboxes are closed;
-- nobody is left, and nobody was evicted.  Whoever was to come lets go of the mailbox, in which there is nothing new.
structure Parts (n : Notice) (forgone : List Nat) (x y : Exchange) : Prop where
  roster    : y.roster = .empty
  doomed    : y.doomed = []
  evictions : y.evictions = x.evictions
  queue     : ∀ id e, x.roster.entry? id = some e →
    y.queue e.mailbox = x.queue e.mailbox ++ if 0 < x.vacancy id then [n] else []
  shut      : ∀ id e, x.roster.entry? id = some e →
    y.writable? e.mailbox = some false ∧ y.IsCancelled e.mailbox
  closed    : ∀ k ∈ forgone, y.writable? k ≠ some true
  others    : ∀ k, (∀ id, x.address id ≠ some k) →
    y.mailboxes[k]? = x.mailboxes[k]?.map fun m => if k ∈ forgone then m.release else m

-- Before everyone is let go of, the last notice is offered to everyone.
theorem Sound.offers_closeAll (h : x.Sound) (l : Listing) (message : String) :
    ∃ stamp ids y, (∀ v, v ∈ ids ↔ x.roster.IsLive v) ∧ Offers (.system stamp message) ids x y ∧
      x.closeAll l message = y.dismiss := by
  by_cases hc : x.roster.count = 0
  case pos =>
    refine ⟨x.supply.stamp, [], x, fun v => iff_of_false List.not_mem_nil fun hl => ?_, .refl, if_pos hc⟩
    have := Roster.count_remove_lt hl
    omega
  case neg =>
    let make (stamp : Notice.Stamp) : Notice := .system stamp message
    have ⟨ids, _, hm, _, ho⟩ :=
      (h.issue make).offers_post (l := l) (p := .toEveryone (make x.supply.stamp)) fun _ hn => nomatch hn.1
    have hm v : v ∈ ids ↔ x.roster.IsLive v := (hm v).trans (and_iff_left nofun)
    refine ⟨x.supply.stamp, ids, _, hm, ?_, if_neg hc⟩
    exact ⟨ho.roster, ho.evictions, ho.deliveries, ho.doomed, ho.given, ho.others⟩

-- The mailbox of someone who is offered a notice has it at the end if there was room for it, and is as before
-- otherwise.
theorem Offers.mailbox (ho : Offers n ids x y) (h : x.Sound) (hm : id ∈ ids) (he : x.roster.entry? id = some e) :
    ∃ m, x.mailboxes[e.mailbox]? = some m ∧ y.mailboxes[e.mailbox]? =
      some { m with pipe := { m.pipe with queue := m.pipe.queue ++ if 0 < x.vacancy id then [n] else [] } } := by
  have ⟨m, hb, _⟩ := writable?_eq_some_iff.mp (h.held id e he)
  refine ⟨m, hb, ?_⟩
  split
  case isTrue hv => rw [ho.given id hm e he hv, hb, Option.map_some]
  case isFalse hv =>
    -- Nobody else has the mailbox, so nobody else was given anything there.
    have hk : ∀ v ∈ ids, 0 < x.vacancy v → x.address v ≠ some e.mailbox := by
      intro v _ hv' ha
      have ⟨e', he', hk⟩ := Option.map_eq_some_iff.mp ha
      exact hv (h.apart v id e' e he' he hk ▸ hv')
    rw [ho.others _ hk, hb, List.append_nil]

theorem Offers.exists_entry_iff {k : Nat} (ho : Offers n ids x y) :
    (∃ e ∈ y.roster.entries.toList, e.2.mailbox = k) ↔ ∃ id, x.address id = some k := by
  simp only [Exchange.exists_entry_iff, address, ho.roster]

theorem Sound.parts_closeAll (h : x.Sound) (l : Listing) (message : String) :
    ∃ stamp, Parts (.system stamp message) [] x (x.closeAll l message) := by
  obtain ⟨stamp, ids, y, hm, ho, hy⟩ := h.offers_closeAll l message
  have hbox id e (he : x.roster.entry? id = some e) := ho.mailbox h ((hm id).mpr (.of_some he)) he
  have hshut id e (he : x.roster.entry? id = some e) : y.dismiss.mailboxes[e.mailbox]? =
      y.mailboxes[e.mailbox]?.map fun m => (m.cancel y.supply.now).release := by
    rw [getElem?_dismiss, if_pos (ho.exists_entry_iff.mpr ⟨id, congrArg (Option.map _) he⟩)]
  refine ⟨stamp, hy ▸ ⟨rfl, rfl, ho.evictions, fun id e he => ?queue, fun id e he => ?shut, List.forall_mem_nil _,
    fun k hk => ?others⟩⟩
  case queue =>
    obtain ⟨m, hx, hy⟩ := hbox id e he
    rw [queue_dismiss, queue, queue, hx, hy]
    rfl
  case shut =>
    obtain ⟨m, _, hy⟩ := hbox id e he
    have hz := (hshut id e he).trans (congrArg (Option.map _) hy)
    exact ⟨writable?_eq_some_iff.mpr ⟨_, hz, rfl⟩, _, hz, Mailbox.isSome_cancel⟩
  case others =>
    have hd : ¬ ∃ e ∈ y.roster.entries.toList, e.2.mailbox = k := fun hd => (ho.exists_entry_iff.mp hd).elim hk
    rw [getElem?_dismiss, if_neg hd, ho.others k fun v _ _ => hk v]
    simp

theorem Parts.forgoAll (h : Parts n [] x y) : Parts n (cs.filterMap Command.mailbox?) x (y.forgoAll cs) where
  roster := roster_forgoAll.trans h.roster
  doomed := doomed_forgoAll.trans h.doomed
  evictions := evictions_forgoAll.trans h.evictions
  queue id e he := queue_forgoAll.trans (h.queue id e he)
  shut id e he :=
    have ⟨hw, hc⟩ := h.shut id e he
    ⟨fades_forgoAll.shut hw, fades_forgoAll.cancelled hc⟩
  closed k hk := by
    rw [writable?, getElem?_forgoAll, if_pos hk]
    cases y.mailboxes[k]? <;> simp [Mailbox.release, Pipe.closeWriter]
  others k hk := by
    rw [getElem?_forgoAll, h.others k hk]
    split <;> simp

end Exchange

-- Who waits for the outcome of an errand.  Of most commands nobody is told.
def Errand.waiting? (e : Errand) : Option Caller :=
  match e.command with
  | .register _ | .query _ => e.caller
  | _ => none

namespace Desk

variable {d d' : Desk} {k : Nat} {l : Listing} {attended : Bool} {rs : Replies} {e : Errand}

-- What an exchange does last.  Whoever waits for a reply is turned away, and nobody else gets one; whoever waits to be
-- registered lets go of the mailbox.
structure Ends (n : Notice) (d : Desk) (rs : Replies) (d' : Desk) : Prop where
  exchange : d.exchange.Parts n (d.pending.filterMap Command.mailbox?) d'.exchange
  replies  : rs = (d.backlog.filterMap (·.waiting?)).map (·, .refused .closed)
  backlog  : d'.backlog = []
  handled  : d'.handled = d.handled
  stopped  : d'.stopped

theorem ends_stop (h : d.exchange.Sound) :
    ∃ stamp, d.Ends (.system stamp d.farewell) (d.stop l).1 (d.stop l).2 := by
  have ⟨stamp, hp⟩ := h.parts_closeAll l d.farewell
  refine ⟨stamp, hp.forgoAll, ?_, rfl, rfl, rfl⟩
  rw [List.map_filterMap]
  refine List.filterMap_congr fun e _ => ?_
  rcases e with ⟨c, caller⟩
  cases c <;> cases caller <;> rfl

theorem step_of_shutdown (hd : d.shutdownAt.isSome) (hs : d.stopped = false) :
    d.step l attended = some (d.stop l) := by
  simp [step, hd, hs]

theorem submit_of_shutdown {r : Registration} {caller : Option Caller} (hd : d.shutdownAt.isSome) :
    d.submit ⟨.register r, caller⟩ = .error .shuttingDown := by
  simp [submit, refusal?, hd]

theorem submit_of_stopped (hs : d.stopped) (hn : ∀ r, e.command ≠ .register r) : d.submit e = .error .closed := by
  have hr : d.refusal? e.command = some .closed := by
    cases hc : e.command
    case register r => exact absurd hc (hn r)
    all_goals simp [refusal?, hs]
  simp [submit, hr]

namespace Step

theorem farewell_eq (s : Step d d') : d'.farewell = d.farewell := by
  cases s
  case submit hs => rw [submit_eq_ok hs]
  case shutdown | between => rfl
  case proceed hs => obtain ⟨_, ⟨_, _, _, _, _, rfl⟩ | ⟨_, ⟨⟩⟩⟩ := step_eq_some hs <;> rfl

-- An exchange that was told to shut down remains told so.
theorem shutdownAt (s : Step d d') (h : d.shutdownAt.isSome) : d'.shutdownAt.isSome := by
  cases s
  case submit hs => rwa [submit_eq_ok hs]
  case shutdown => cases hd : d.shutdownAt <;> simp [Desk.shutdown, hd]
  case between => exact h
  case proceed hs => obtain ⟨_, ⟨_, _, _, _, _, rfl⟩ | ⟨_, ⟨⟩⟩⟩ := step_eq_some hs <;> exact h

-- The exchange ends by a step, and gives out a last notice.
structure IsLast (s : Step d d') (l : Listing) : Prop where
  before : d.stopped = false
  after  : d' = (d.stop l).2
  queue  : ∀ k, d'.exchange.queue k = d.exchange.queue k ++ s.delivered k

-- Of an exchange that was told to shut down there is only one thing more to be had.
theorem quiet_or_last (s : Step d d') (h : d.shutdownAt.isSome) :
    s.command? = none ∧
      ((d'.stopped = d.stopped ∧ ∀ k, s.delivered k = []) ∨ ∃ l, s.IsLast l) := by
  cases s
  case submit hs => exact ⟨rfl, .inl ⟨(exchange_submit hs).2, fun _ => rfl⟩⟩
  case shutdown | between => exact ⟨rfl, .inl ⟨rfl, fun _ => rfl⟩⟩
  case proceed l attended ha hs =>
    have hn : d.next? = none := if_pos h
    refine ⟨hn, .inr ⟨l, ?_⟩⟩
    obtain ⟨hd, ⟨_, _, hc, _⟩ | ⟨_, he⟩⟩ := step_eq_some hs
    case inl => exact nomatch hn.symm.trans hc
    case inr =>
      refine ⟨hd, congrArg Prod.snd he, fun k => ?_⟩
      rw [delivered, queue_step hs, List.drop_left]

end Step

namespace Run

-- What was handled.
def commands {d d' : Desk} : Run d d' → List Command
  | refl       => []
  | step run s => run.commands ++ s.command?.toList

theorem farewell_eq (run : Run d d') : d'.farewell = d.farewell := by
  induction run
  case refl => rfl
  case step s hi => exact s.farewell_eq.trans hi

theorem shutdownAt (run : Run d d') (h : d.shutdownAt.isSome) : d'.shutdownAt.isSome := by
  induction run
  case refl => exact h
  case step s hi => exact s.shutdownAt hi

theorem commands_of_shutdown (run : Run d d') (h : d.shutdownAt.isSome) : run.commands = [] := by
  induction run
  case refl => rfl
  case step run s hi => rw [commands, hi, (s.quiet_or_last (run.shutdownAt h)).1]; rfl

-- The exchange ends in the midst of a run, which gives out nothing but the last notice.
structure EndsAt (run : Run d d') (e : Desk) (l : Listing) where
  before  : Run d e
  goesOn  : e.stopped = false
  after   : Run (e.stop l).2 d'
  queue   : ∀ k, (e.stop l).2.exchange.queue k = e.exchange.queue k ++ run.delivered k
  stopped : d'.stopped

theorem quiet_or_ends (run : Run d d') (h : d.shutdownAt.isSome) :
    (d'.stopped = d.stopped ∧ ∀ k, run.delivered k = []) ∨ ∃ e l, Nonempty (run.EndsAt e l) := by
  induction run
  case refl => exact .inl ⟨rfl, fun _ => rfl⟩
  case step e f run s hi =>
    have ⟨_, hs⟩ := s.quiet_or_last (run.shutdownAt h)
    obtain ⟨he, hq⟩ | ⟨e', l, ⟨hr⟩⟩ := hi <;> obtain ⟨hf, hq'⟩ | ⟨l', hl⟩ := hs
    case inl.inl =>
      exact .inl ⟨hf.trans he, fun k => by rw [delivered, hq, hq']; rfl⟩
    case inl.inr =>
      obtain ⟨hg, rfl, hk⟩ := hl
      exact .inr ⟨e, l', ⟨run, hg, .refl, fun k => by rw [hk, delivered, hq]; rfl, rfl⟩⟩
    case inr.inl =>
      refine .inr ⟨e', l, ⟨hr.before, hr.goesOn, .step hr.after s, fun k => ?_, hf.trans hr.stopped⟩⟩
      rw [hr.queue, delivered, hq', List.append_nil]
    case inr.inr =>
      -- What has ended does not end again.
      exact nomatch hr.stopped.symm.trans hl.before

-- Once it was told to shut down the exchange ends with its next step, whatever is left at its desk.  Whatever happens
-- later, no command is handled, and no mailbox is given anything but the last notice, when the exchange ends.  Whoever
-- wants to be registered learns that the exchange shuts down; whoever comes with anything else finds it closed as soon
-- as it has ended.
theorem shuts_down {farewell : String} {capacity : Nat} (run : Run (.new farewell capacity) d)
    (h : d.shutdownAt.isSome) :
    (d.stopped = false → ∀ l attended, d.step l attended = some (d.stop l) ∧
      ∃ stamp, d.Ends (.system stamp farewell) (d.stop l).1 (d.stop l).2) ∧
    ∀ d' (later : Run d d'),
      later.commands = [] ∧
      ((d'.stopped = d.stopped ∧ ∀ k, later.delivered k = []) ∨
        ∃ e l stamp, Nonempty (later.EndsAt e l) ∧
          e.Ends (.system stamp farewell) (e.stop l).1 (e.stop l).2) ∧
      (∀ r caller, d'.submit ⟨.register r, caller⟩ = .error .shuttingDown) ∧
      (d'.stopped → ∀ e, (∀ r, e.command ≠ .register r) → d'.submit e = .error .closed) := by
  have hs : d.exchange.Sound := run.sound Exchange.sound_empty
  have hf : d.farewell = farewell := run.farewell_eq
  refine ⟨fun hd l attended => ⟨step_of_shutdown h hd, hf ▸ ends_stop hs⟩, fun d' later => ?_⟩
  refine ⟨later.commands_of_shutdown h, (later.quiet_or_ends h).imp_right ?ends,
    fun r caller => submit_of_shutdown (later.shutdownAt h), fun hd e he => submit_of_stopped hd he⟩
  rintro ⟨e, l, ⟨hr⟩⟩
  have he : e.farewell = farewell := hr.before.farewell_eq.trans hf
  have ⟨stamp, hm⟩ := ends_stop (l := l) (hr.before.sound hs)
  exact ⟨e, l, stamp, ⟨hr⟩, he ▸ hm⟩

-- Ann is there when the exchange is told to shut down, Bob would like to come, and someone asks who is there.
theorem shuts_down_with_backlog :
    let ann : Registration := ⟨⟨1⟩, ⟨7, "ann"⟩, 0⟩
    let bob : Registration := ⟨⟨2⟩, ⟨8, "bob"⟩, 1⟩
    ∃ (d : Desk) (run : Run (.new "bye") d), run.admitted = [ann] ∧
      d.backlog = [⟨.register bob, some (.visitor 1)⟩, ⟨.query .onlineUsers, some (.visitor 2)⟩] ∧
      d.exchange.writable? bob.mailbox = some true ∧
      ∃ d' stamp, d.step .ascending true =
          some ([(.visitor 1, .refused .closed), (.visitor 2, .refused .closed)], d') ∧
        d.exchange.Parts (.system stamp "bye") [bob.mailbox] d'.exchange ∧
        d'.exchange.writable? bob.mailbox ≠ some true := by
  intro ann bob
  let w := (Exchange.Interlude.prepare 0 8).apply .empty
  let x := (Exchange.Interlude.prepare 1 8).apply w
  have hw : w.Permits (.prepare 1 8) := by
    simp [w, Exchange.Permits, Exchange.Interlude.apply, Exchange.openMailbox, Exchange.empty]
  have ha : x.Allows (.register ann) := Exchange.newcomer_first (fun _ => ExtTreeMap.not_mem_empty) (by decide)
  let y := x.handle .ascending (.register ann)
  let desk (x : Exchange) (backlog : List Errand) (handled : Nat) : Desk :=
    ⟨x, Desk.defaultCapacity, backlog, handled, none, false, "bye"⟩
  let run₁ : Run (.new "bye") (desk x [⟨.register ann, none⟩] 0) :=
    .step (.step (.step .refl (.between (.prepare 0 8) ExtTreeMap.not_mem_empty)) (.between (.prepare 1 8) hw))
      (.submit ⟨.register ann, none⟩ rfl)
  let run₂ : Run (.new "bye") (desk y [] 1) :=
    .step run₁ (.proceed .ascending true rfl fun c hc => Option.some.inj hc ▸ ha)
  let backlog : List Errand :=
    [⟨.register bob, some (.visitor 1)⟩, ⟨.query .onlineUsers, some (.visitor 2)⟩]
  have hb : (desk y [] 1).submit ⟨.register bob, some (.visitor 1)⟩ = .ok (desk y (backlog.take 1) 1) := rfl
  have hq : (desk y (backlog.take 1) 1).submit ⟨.query .onlineUsers, some (.visitor 2)⟩ =
    .ok (desk y backlog 1) := rfl
  let run₃ : Run (.new "bye") (desk y backlog 1).shutdown :=
    .step (.step (.step run₂ (.submit _ hb)) (.submit _ hq)) .shutdown
  have hy : y = x.perform .ascending (.register ann) := Exchange.handle_eq_perform (by decide +kernel)
  have hopen : y.writable? bob.mailbox = some true := by rw [hy]; decide +kernel
  obtain ⟨hs, stamp, he⟩ := (run₃.shuts_down rfl).1 rfl .ascending true
  exact ⟨_, run₃, rfl, rfl, hopen, _, stamp, hs, he.exchange, he.exchange.closed _ (List.mem_singleton_self _)⟩

end Run

end Desk
end Parley
