import Parley.Proofs.Exchange.Parting
import Parley.Proofs.Session.Turn
import Parley.Service

namespace Parley

-- The text that a frame carries, if it carries one.
def Frame.text? : Frame → Option String
  | text s                             => some s
  | binary _ | ping _ | pong _ | close => none

-- What is left in a mailbox when a frame was chosen.
def Mailbox.without (m : Mailbox) : Frame → Mailbox
  | .text _                             => Service.takeNotice m
  | .binary _ | .ping _ | .pong _ | .close => m

namespace Mailbox

variable {m : Mailbox} {k : Session.Courier} {r : Session.Reaction}

theorem cancelledAt_lent : (r.lent m).cancelledAt = m.cancelledAt := by
  unfold Session.Reaction.lent
  split
  · exact cancelledAt_lend
  · rfl

theorem pipe_lent : (r.lent m).pipe = m.pipe := by
  unfold Session.Reaction.lent
  split
  · exact pipe_lend
  · rfl

theorem cancelledAt_tend : (k.tend m).cancelledAt = m.cancelledAt := by
  unfold Session.Courier.tend
  split
  · exact cancelledAt_reply
  all_goals rfl

theorem writable_tend : (k.tend m).pipe.writable = m.pipe.writable := by
  unfold Session.Courier.tend
  split
  · exact writable_reply
  all_goals rfl

theorem loan_tend (h : m.loan = .absent) : (k.tend m).loan = .absent := by
  unfold Session.Courier.tend
  split
  · simp [loan_reply, h]
  · rfl
  all_goals exact h

end Mailbox

namespace Session

-- What may be chosen, given whether the client may be probed.
inductive Writer.Chooses (m : Mailbox) (probing : Bool) : Writer.Choice → Prop
  | giveUp : Chooses m probing .giveUp
  | text {n queue} (hq : m.pipe.queue = n :: queue) : Chooses m probing (.frame (.text n.text))
  | close (hq : m.pipe.queue = []) (hw : m.pipe.writable = false) (hl : m.loan = .absent) :
      Chooses m probing (.frame .close)
  | ping (hp : probing = true) : Chooses m probing (.frame (.ping []))
  | wait : Chooses m probing .wait

theorem Writer.chooses_await {w : Writer} {l : Limits} {now : Nat} {m : Mailbox} {probing : Bool} :
    Chooses m probing (w.await l now m probing) := by
  simp only [await, Mailbox.receive]
  split
  case isTrue => exact .giveUp
  case isFalse =>
    split
    case h_1 n hn =>
      split at hn
      case h_1 hq => cases hn; exact .text hq
      case h_2 => split at hn <;> cases hn
    case h_2 hn =>
      split at hn
      case h_1 => cases hn
      case h_2 hq =>
        split at hn
        case isTrue => cases hn
        case isFalse h =>
          obtain ⟨hw, hl⟩ := not_or.mp h
          exact .close hq (Bool.eq_false_iff.mpr hw) (Decidable.not_not.mp hl)
    case h_3 =>
      split
      case isTrue hp => exact .ping hp.1
      case isFalse => exact .wait

-- Whether a writer that has nothing in hand may probe the client next; none if it has something in hand, or has
-- stopped.
def Writer.Phase.probing? (m : Mailbox) : Writer.Phase → Option Bool
  | choosing                                   => some (decide (m.cancelledAt = none))
  | waiting probing                            => some probing
  | sending .. | closing _ | leaving _ | done => none

-- The frame that a writer has just taken in hand.
def Writer.Phase.fresh? : Writer.Phase → Option Frame
  | sending f false                                                           => some f
  | choosing | waiting _ | sending _ true | closing _ | leaving _ | done => none

-- How often the transport is being closed.
def Writer.Phase.closings : Writer.Phase → Nat
  | closing _                                            => 1
  | choosing | waiting _ | sending .. | leaving _ | done => 0

-- How far a writer has come, with what waits in its mailbox, and whether someone sees to the removal of the
-- connection.
structure Station where
  phase        : Writer.Phase
  mailbox      : Mailbox
  unregistered : Bool

namespace Station

-- What a writer may do next, with the frames that it hands to the transport and the number of times that it goes
-- about closing it.
inductive Does (a : Station) : Station → List Frame → Nat → Prop
  | take {probing f} (hp : a.phase.probing? a.mailbox = some probing)
      (hc : Writer.Chooses a.mailbox probing (.frame f)) :
      Does a { a with phase := .sending f false, mailbox := a.mailbox.without f } [f] 0
  | giveUp {probing} (hp : a.phase.probing? a.mailbox = some probing) (now : Nat) :
      Does a { a with phase := .closing now } [] 1
  | wait {probing} (hp : a.phase.probing? a.mailbox = some probing) :
      Does a { a with phase := .waiting probing } [] 0
  | ask {f asked} (hp : a.phase = .sending f asked) : Does a { a with phase := .sending f true } [] 0
  | sent {f asked} (hp : a.phase = .sending f asked) (hf : f ≠ .close) : Does a { a with phase := .choosing } [] 0
  | stop {f asked} (hp : a.phase = .sending f asked) (now : Nat) : Does a { a with phase := .closing now } [] 1
  | leave {since} (hp : a.phase = .closing since) (k : Courier) (now : Nat) :
      Does a ⟨.leaving k, a.mailbox.cancel now, true⟩ [] 0
  | send {k} (hp : a.phase = .leaving k) (k' : Courier) :
      Does a { a with phase := .leaving k', mailbox := k.tend a.mailbox } [] 0
  | cease {k} (hp : a.phase = .leaving k) : Does a { a with phase := .done, mailbox := a.mailbox.abandon } [] 0

-- What may happen meanwhile, with the notices that come into the mailbox from the exchange and from the session.
inductive Meets (a : Station) : Station → List Notice → Prop
  | arrive (n : Notice) : Meets a { a with mailbox := a.mailbox.put n } (if 0 < a.mailbox.vacancy then [n] else [])
  | lend : Meets a { a with mailbox := a.mailbox.lend } []
  | reply (n : Notice) : Meets a { a with mailbox := a.mailbox.reply n } (if a.mailbox.Keeps then [n] else [])
  | giveBack : Meets a { a with mailbox := a.mailbox.giveBack } []
  | shut : Meets a { a with mailbox := a.mailbox.release } []
  | cancel (now : Nat) : Meets a { a with mailbox := a.mailbox.cancel now } []
  | rest {unregistered} (hu : a.unregistered = true → unregistered = true) : Meets a { a with unregistered } []

-- A close frame came last, when the mailbox had ended and all there ever was in it had been handed over.
structure Parted (a : Station) (enqueued : List Notice) (handed : List Frame) : Prop where
  shut     : a.mailbox.pipe.writable = false
  returned : a.mailbox.loan = .absent
  all      : handed.filterMap (·.text?) = enqueued.map (·.text)
  last     : ∃ before, handed = before ++ [.close] ∧ .close ∉ before

-- How what a writer has handed over goes with what came into its mailbox, and with how far it has come.
inductive Accounts (a : Station) (enqueued : List Notice) (handed : List Frame) : Nat → Prop
  | working (taken : List Notice) (hp : (∃ probing, a.phase.probing? a.mailbox = some probing) ∨
        ∃ f asked, a.phase = .sending f asked ∧ f ≠ .close)
      (hq : enqueued = taken ++ a.mailbox.pipe.queue) (ht : handed.filterMap (·.text?) = taken.map (·.text))
      (hc : .close ∉ handed) : Accounts a enqueued handed 0
  | parting {asked} (hp : a.phase = .sending .close asked) (h : a.Parted enqueued handed) :
      Accounts a enqueued handed 0
  | closed (hp : (∃ since, a.phase = .closing since) ∨
        ((∃ k, a.phase = .leaving k) ∨ a.phase = .done) ∧ a.mailbox.cancelledAt.isSome ∧ a.unregistered)
      (ht : handed.filterMap (·.text?) <+: enqueued.map (·.text))
      (hc : .close ∈ handed → a.Parted enqueued handed) : Accounts a enqueued handed 1

variable {a b : Station} {enqueued ns : List Notice} {handed fs : List Frame} {n m : Nat} {f : Frame} {asked : Bool}

-- Nobody takes back that a session was told to stop.
theorem Meets.isSome_cancelledAt (h : a.Meets b ns) (ha : a.mailbox.cancelledAt.isSome) :
    b.mailbox.cancelledAt.isSome := by
  cases h
  case cancel => exact Mailbox.fades_cancel.cancelled ha
  case lend => exact (congrArg Option.isSome Mailbox.cancelledAt_lend).trans ha
  case reply => exact (congrArg Option.isSome Mailbox.cancelledAt_reply).trans ha
  all_goals exact ha

-- What is handed over can be told from where a step leads.
theorem Does.eq_fresh (h : a.Does b fs m) : fs = b.phase.fresh?.toList ∧ m = b.phase.closings := by
  cases h <;> exact ⟨rfl, rfl⟩

theorem exists_probing (box : Mailbox) (hp : ∃ probing, a.phase.probing? a.mailbox = some probing) :
    ∃ probing, a.phase.probing? box = some probing := by
  have ⟨_, hp⟩ := hp
  cases hq : a.phase <;> simp_all [Writer.Phase.probing?]

-- What has ended gets nothing more.
theorem Parted.meets (h : a.Parted enqueued handed) (hm : a.Meets b ns) : b.Parted (enqueued ++ ns) handed := by
  have hv : a.mailbox.vacancy = 0 := by simp [Mailbox.vacancy, h.shut]
  have hk : ¬ a.mailbox.Keeps := fun hk => absurd (h.returned.symm.trans hk.1) (by decide)
  have hnone : handed.filterMap (·.text?) = (enqueued ++ []).map Notice.text := by rw [List.append_nil, h.all]
  cases hm
  case arrive k =>
    rw [if_neg (by omega)]
    exact ⟨Mailbox.writable_put.trans h.shut, Mailbox.loan_put.trans h.returned, hnone, h.last⟩
  case lend =>
    rw [Mailbox.lend_of_not_writable h.shut]
    exact ⟨h.shut, h.returned, hnone, h.last⟩
  case reply k =>
    rw [if_neg hk]
    have hr : (a.mailbox.reply k).loan = .absent := by rw [Mailbox.loan_reply, h.returned]; rfl
    exact ⟨Mailbox.writable_reply.trans h.shut, hr, hnone, h.last⟩
  case shut => exact ⟨rfl, h.returned, hnone, h.last⟩
  case giveBack => exact ⟨h.shut, rfl, hnone, h.last⟩
  case cancel | rest => exact ⟨h.shut, h.returned, hnone, h.last⟩

namespace Accounts

theorem isPrefix (h : a.Accounts enqueued handed n) :
    handed.filterMap (·.text?) <+: enqueued.map (·.text) := by
  cases h
  case working taken _ hq ht _ => exact ht ▸ hq ▸ (List.prefix_append ..).map _
  case parting h => exact h.all ▸ List.prefix_rfl
  case closed ht _ => exact ht

theorem parted (h : a.Accounts enqueued handed n) (hc : .close ∈ handed) : a.Parted enqueued handed := by
  cases h
  case working hn => exact absurd hc hn
  case parting h => exact h
  case closed h => exact h hc

theorem le_one (h : a.Accounts enqueued handed n) : n ≤ 1 := by
  cases h
  case working | parting => exact Nat.zero_le _
  case closed => exact Nat.le_refl _

theorem of_probing {probing : Bool} (h : a.Accounts enqueued handed n)
    (hp : a.phase.probing? a.mailbox = some probing) :
    n = 0 ∧ ∃ taken, enqueued = taken ++ a.mailbox.pipe.queue ∧
      handed.filterMap (·.text?) = taken.map (·.text) ∧ .close ∉ handed := by
  cases h
  case working hq ht hc => exact ⟨rfl, _, hq, ht, hc⟩
  case parting hq _ => rw [hq] at hp; cases hp
  case closed hq _ _ =>
    obtain ⟨_, hq⟩ | ⟨⟨_, hq⟩ | hq, _⟩ := hq <;> rw [hq] at hp <;> cases hp

theorem of_sending (h : a.Accounts enqueued handed n) (hp : a.phase = .sending f asked) :
    n = 0 ∧ ((f ≠ .close ∧ ∃ taken, enqueued = taken ++ a.mailbox.pipe.queue ∧
      handed.filterMap (·.text?) = taken.map (·.text) ∧ .close ∉ handed) ∨
        f = .close ∧ a.Parted enqueued handed) := by
  cases h
  case working taken hq hs ht hc =>
    obtain ⟨_, hq⟩ | ⟨_, _, hq, hf⟩ := hq <;> rw [hp] at hq <;> cases hq
    exact ⟨rfl, .inl ⟨hf, taken, hs, ht, hc⟩⟩
  case parting hq h => rw [hp] at hq; cases hq; exact ⟨rfl, .inr ⟨rfl, h⟩⟩
  case closed hq _ _ => obtain ⟨_, hq⟩ | ⟨⟨_, hq⟩ | hq, _⟩ := hq <;> rw [hp] at hq <;> cases hq

theorem of_closing {since : Nat} (h : a.Accounts enqueued handed n) (hp : a.phase = .closing since) : n = 1 := by
  cases h
  case working hq _ _ _ => obtain ⟨_, hq⟩ | ⟨_, _, hq, _⟩ := hq <;> rw [hp] at hq <;> cases hq
  case parting hq _ => rw [hp] at hq; cases hq
  case closed => rfl

theorem of_stopped (h : a.Accounts enqueued handed n) (hp : (∃ k, a.phase = .leaving k) ∨ a.phase = .done) :
    n = 1 ∧ a.mailbox.cancelledAt.isSome ∧ a.unregistered := by
  cases h
  case working hq _ _ _ =>
    obtain ⟨_, hq⟩ | ⟨_, _, hq, _⟩ := hq <;> obtain ⟨_, hp⟩ | hp := hp <;> rw [hp] at hq <;> cases hq
  case parting hq _ => obtain ⟨_, hp⟩ | hp := hp <;> rw [hp] at hq <;> cases hq
  case closed hq _ _ =>
    obtain ⟨_, hq⟩ | ⟨_, hq⟩ := hq
    · obtain ⟨_, hp⟩ | hp := hp <;> rw [hp] at hq <;> cases hq
    · exact ⟨rfl, hq⟩

-- Whoever goes about closing the transport has not done so before.
theorem closing (h : a.Accounts enqueued handed 0) (now : Nat) :
    Accounts { a with phase := .closing now } enqueued handed 1 :=
  .closed (.inl ⟨now, rfl⟩) h.isPrefix fun hc => have ⟨hw, hr, ha, hl⟩ := h.parted hc; ⟨hw, hr, ha, hl⟩

theorem take {probing : Bool} (h : a.Accounts enqueued handed n)
    (hp : a.phase.probing? a.mailbox = some probing) (hc : Writer.Chooses a.mailbox probing (.frame f)) :
    Accounts { a with phase := .sending f false, mailbox := a.mailbox.without f } enqueued (handed ++ [f]) n := by
  obtain ⟨rfl, taken, hq, ht, hn⟩ := h.of_probing hp
  have hadd : (handed ++ [f]).filterMap (·.text?) = taken.map (·.text) ++ f.text?.toList := by
    rw [List.filterMap_append, ht]
    cases f <;> rfl
  cases hc
  case text k queue hk =>
    have hr : (a.mailbox.without (.text k.text)).pipe.queue = queue := by
      simp [Mailbox.without, Service.takeNotice, Pipe.receive, hk]
    refine .working (taken ++ [k]) (.inr ⟨_, _, rfl, by simp⟩) ?_ ?_ ?_
    case refine_1 => rw [hr, hq, hk, List.append_assoc, List.singleton_append]
    case refine_2 => rw [hadd, List.map_append]; rfl
    case refine_3 => simpa using hn
  case ping =>
    refine .working taken (.inr ⟨_, _, rfl, by simp⟩) hq (hadd.trans (List.append_nil _)) ?_
    simpa using hn
  case close he hw hl =>
    refine .parting rfl ⟨hw, hl, ?_, handed, rfl, hn⟩
    rw [hadd, hq, he, List.append_nil]
    exact List.append_nil _

theorem does (h : a.Accounts enqueued handed n) (hd : a.Does b fs m) :
    b.Accounts enqueued (handed ++ fs) (n + m) := by
  have hparted {c : Station} (hw : c.mailbox.pipe.writable = a.mailbox.pipe.writable)
      (hr : a.mailbox.loan = .absent → c.mailbox.loan = .absent) (hc : .close ∈ handed) : c.Parted enqueued handed :=
    have ⟨hs, hret, ha, hl⟩ := h.parted hc
    ⟨hw.trans hs, hr hret, ha, hl⟩
  cases hd
  case take hp hc => exact h.take hp hc
  all_goals rw [List.append_nil]
  case giveUp hp now =>
    obtain ⟨rfl, _⟩ := h.of_probing hp
    exact h.closing now
  case stop hp now =>
    obtain ⟨rfl, _⟩ := h.of_sending hp
    exact h.closing now
  case wait hp =>
    obtain ⟨rfl, taken, hq, ht, hn⟩ := h.of_probing hp
    exact .working taken (.inl ⟨_, rfl⟩) hq ht hn
  case sent hp hf =>
    obtain ⟨rfl, ⟨_, taken, hq, ht, hn⟩ | ⟨hc, _⟩⟩ := h.of_sending hp
    · exact .working taken (.inl ⟨_, rfl⟩) hq ht hn
    · exact absurd hc hf
  case ask hp =>
    obtain ⟨rfl, ⟨hf, taken, hq, ht, hn⟩ | ⟨rfl, hw, hr, ha, hl⟩⟩ := h.of_sending hp
    · exact .working taken (.inr ⟨_, _, rfl, hf⟩) hq ht hn
    · exact .parting rfl ⟨hw, hr, ha, hl⟩
  case leave hp k now =>
    cases h.of_closing hp
    exact .closed (.inr ⟨.inl ⟨k, rfl⟩, Mailbox.isSome_cancel, rfl⟩) h.isPrefix (hparted rfl fun hr => hr)
  case send hp k =>
    obtain ⟨rfl, hs, hu⟩ := h.of_stopped (.inl ⟨_, hp⟩)
    refine .closed (.inr ⟨.inl ⟨k, rfl⟩, ?_, hu⟩) h.isPrefix (hparted Mailbox.writable_tend Mailbox.loan_tend)
    exact (congrArg Option.isSome Mailbox.cancelledAt_tend).trans hs
  case cease hp =>
    obtain ⟨rfl, hs⟩ := h.of_stopped (.inl ⟨_, hp⟩)
    exact .closed (.inr ⟨.inr rfl, hs⟩) h.isPrefix (hparted rfl fun hr => hr)

theorem meets (h : a.Accounts enqueued handed n) (hm : a.Meets b ns) : b.Accounts (enqueued ++ ns) handed n := by
  have hphase : b.phase = a.phase := by cases hm <;> rfl
  cases h
  case working taken hp hq ht hc =>
    have hp := hp.imp_left (exists_probing b.mailbox)
    have hqueue : b.mailbox.pipe.queue = a.mailbox.pipe.queue ++ ns := by
      cases hm
      case arrive => exact Mailbox.queue_put
      case reply => exact Mailbox.queue_reply
      case lend => exact (congrArg Pipe.queue Mailbox.pipe_lend).trans (List.append_nil _).symm
      all_goals exact (List.append_nil _).symm
    exact .working taken (hphase ▸ hp) (by rw [hq, hqueue, List.append_assoc]) ht hc
  case parting hp h => exact .parting (hphase.trans hp) (h.meets hm)
  case closed hp ht hc =>
    refine .closed ?_ (ht.trans ?_) fun hn => (hc hn).meets hm
    case refine_1 =>
      rw [hphase]
      refine hp.imp_right fun ⟨hp, hk, hu⟩ => ⟨hp, ?_, ?_⟩
      case refine_1 =>
        exact hm.isSome_cancelledAt hk
      case refine_2 =>
        cases hm
        case rest h => exact h hu
        all_goals exact hu
    case refine_2 => exact List.map_append ▸ List.prefix_append ..

end Accounts

-- A writer that was told to stop, and knows so: it will not probe the client.
structure Silent (a : Station) : Prop where
  cancelled : a.mailbox.cancelledAt.isSome
  unprobing : a.phase ≠ .waiting true

theorem Silent.does (h : a.Silent) (hd : a.Does b fs m) : b.Silent ∧ ∀ bs, .ping bs ∉ fs := by
  have hprobing {probing} (hp : a.phase.probing? a.mailbox = some probing) : probing = false := by
    cases hq : a.phase <;> simp only [hq, Writer.Phase.probing?] at hp <;> cases hp
    case choosing => simpa using Option.isSome_iff_ne_none.mp h.cancelled
    case waiting => exact Bool.eq_false_iff.mpr fun hp => h.unprobing (hp ▸ hq)
  cases hd
  case take f hp hc =>
    cases hc
    case ping ht => rw [hprobing hp] at ht; cases ht
    case text | close => exact ⟨⟨h.cancelled, nofun⟩, fun bs hm => nomatch List.mem_singleton.mp hm⟩
  case wait hp => exact ⟨⟨h.cancelled, by simp [hprobing hp]⟩, fun _ => List.not_mem_nil⟩
  case leave => exact ⟨⟨Mailbox.isSome_cancel, nofun⟩, fun _ => List.not_mem_nil⟩
  case send k _ _ =>
    have hm : (k.tend a.mailbox).cancelledAt.isSome := by rw [Mailbox.cancelledAt_tend]; exact h.cancelled
    exact ⟨⟨hm, nofun⟩, fun _ => List.not_mem_nil⟩
  all_goals exact ⟨⟨h.cancelled, nofun⟩, fun _ => List.not_mem_nil⟩

theorem Silent.meets (h : a.Silent) (hm : a.Meets b ns) : b.Silent := by
  refine ⟨hm.isSome_cancelledAt h.cancelled, ?_⟩
  cases hm <;> exact h.unprobing

end Station
end Session
end Parley
