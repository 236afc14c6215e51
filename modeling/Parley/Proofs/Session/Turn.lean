import Parley.Proofs.Session.Reaction
import Parley.Session

namespace Parley

-- What a client may ask of the exchange.
def Command.IsRequest : Command → Prop
  | post _ | join .. | leave ..          => True
  | register _ | unregister _ | query _ => False

-- Whatever a client says, nothing else comes of it.
theorem Session.Reaction.IsTo.isRequest {r : Reaction} {id : ConnectionId} {who : Identity} {c : Command}
    (hr : r.IsTo id who) (h : r.command = some c) : c.IsRequest := by
  have hc := hr.isRequestOf h
  cases c
  case post | join | leave => trivial
  case register | unregister | query => exact hc.elim

namespace Desk

-- A desk before and after something has happened.
structure Precedes (d d' : Desk) : Prop where
  handled  : d.handled ≤ d'.handled
  capacity : d'.capacity = d.capacity
  stopped  : d.stopped → d'.stopped

theorem Precedes.refl {d : Desk} : d.Precedes d :=
  ⟨Nat.le_refl _, rfl, id⟩

theorem Precedes.trans {d d' d'' : Desk} (h : d.Precedes d') (h' : d'.Precedes d'') : d.Precedes d'' :=
  ⟨Nat.le_trans h.handled h'.handled, h'.capacity.trans h.capacity, h'.stopped ∘ h.stopped⟩

theorem Precedes.goesOn {d d' : Desk} (h : d.Precedes d') (hs : d'.stopped = false) : d.stopped = false :=
  Bool.eq_false_iff.mpr fun hd => nomatch hs.symm.trans (h.stopped hd)

end Desk

namespace Session

-- How a courier gets on, with what it leaves at the desk.
inductive Courier.Forwards (d : Desk) : Courier → Courier → List Errand → Prop
  | left {c} (h : d.refusal? c = none) : Forwards d (.carrying c) (.waiting d.number) [⟨c, none⟩]
  | arrived {n} (h : d.HasRoom n) : Forwards d (.waiting n) .idle []
  | offered {n next} : Forwards d (.answering (some n) next) (.answering none next) []
  | returned {next} : Forwards d (.answering none next) (.bearing next) []

-- What a courier does to the mailbox of its session as it gets on.
def Courier.tend : Courier → Mailbox → Mailbox
  | answering (some n) _, m                => m.reply n
  | answering none _, m                    => m.giveBack
  | idle, m | carrying _, m | waiting _, m => m

-- Whether a courier is turned away.
inductive Courier.Refused (d : Desk) : Courier → Prop
  | carrying {c r} (h : d.refusal? c = some r) : Refused d (.carrying c)
  | waiting {n} (h : d.stopped) : Refused d (.waiting n)

-- The command that a courier still has to leave at the desk.
def Courier.command? : Courier → Option Command
  | carrying c       => some c
  | answering _ next => next
  | idle | waiting _ => none

@[simp] theorem Courier.command?_bearing {next : Option Command} : (bearing next).command? = next := by
  cases next <;> rfl

@[simp] theorem Reaction.command?_courier {r : Reaction} {loan : Mailbox.Loan} :
    (r.courier loan).command? = r.command := by
  unfold courier
  split
  case h_1 =>
    split
    case isTrue => rfl
    case isFalse => exact Courier.command?_bearing
  case h_2 => exact Courier.command?_bearing

-- A courier that was sent with nothing but what a client has asked for.
def Courier.IsPlain (k : Courier) : Prop := ∀ c, k.command? = some c → c.IsRequest

theorem Courier.isPlain_idle : idle.IsPlain := by
  intro c hc
  cases hc

theorem Reaction.IsTo.isPlain {r : Reaction} {id : ConnectionId} {who : Identity} (h : r.IsTo id who)
    (loan : Mailbox.Loan) : (r.courier loan).IsPlain :=
  fun _ hc => h.isRequest (command?_courier ▸ hc)

-- Where an errand is that a courier was sent with, given all that was left at the desk so far.  Once the courier
-- is back there was room for the errand, or the exchange has stopped.
inductive Courier.Bears (d : Desk) (left : List Errand) (e : Errand) : Courier → Prop
  | carrying (unsent : e ∉ left) : Bears d left e (.carrying e.command)
  | waiting {n} (sent : left[n]? = some e) (once : left.count e = 1) : Bears d left e (.waiting n)
  | arrived {n} (sent : left[n]? = some e) (once : left.count e = 1) (room : d.HasRoom n) : Bears d left e .idle
  | lost (once : left.count e ≤ 1) (stopped : d.stopped) : Bears d left e .idle

variable {d d' : Desk} {left new : List Errand} {e : Errand} {k k' : Courier} {id : ConnectionId}

theorem hasRoom_of_precedes {n : Nat} (h : d.Precedes d') (hr : d.HasRoom n) : d'.HasRoom n := by
  have := h.handled
  have := h.capacity
  simp only [Desk.HasRoom] at hr ⊢
  omega

theorem refusal?_unregister_eq_none_iff : d.refusal? (.unregister id) = none ↔ d.stopped = false := by
  simp [Desk.refusal?]

namespace Courier.Bears

theorem mono (h : Bears d left e k) (hd : d.Precedes d') (hn : e ∉ new) : Bears d' (left ++ new) e k := by
  have hc : (left ++ new).count e = left.count e := by
    rw [List.count_append, List.count_eq_zero_of_not_mem hn, Nat.add_zero]
  have hs {n : Nat} (hs : left[n]? = some e) : (left ++ new)[n]? = some e := by
    have ⟨hn, _⟩ := List.getElem?_eq_some_iff.mp hs
    rw [List.getElem?_append_left hn, hs]
  cases h
  case carrying hu => exact .carrying fun hm => (List.mem_append.mp hm).elim hu hn
  case waiting hs' ho => exact .waiting (hs hs') (hc.trans ho)
  case arrived hs' ho hr => exact .arrived (hs hs') (hc.trans ho) (hasRoom_of_precedes hd hr)
  case lost ho hs => exact .lost (hc ▸ ho) (hd.stopped hs)

theorem count_le_one (h : Bears d left e k) : left.count e ≤ 1 := by
  cases h
  case carrying hu => exact List.count_eq_zero_of_not_mem hu ▸ Nat.zero_le _
  case waiting ho | arrived ho _ => exact Nat.le_of_eq ho
  case lost ho _ => exact ho

-- As long as the exchange goes on, an errand comes to the desk at the number that is due.
theorem forwards (h : Bears d left ⟨.unregister id, none⟩ k) (hf : k.Forwards d k' new)
    (hd : d.Precedes d') (hl : d.stopped = false → left.length = d.number) :
    Bears d' (left ++ new) ⟨.unregister id, none⟩ k' := by
  cases hf
  case arrived hr =>
    cases h
    case waiting ho hs =>
      rw [List.append_nil]
      exact .arrived hs ho (hasRoom_of_precedes hd hr)
  case left c hr =>
    cases h
    case carrying hu =>
      rw [← hl (refusal?_unregister_eq_none_iff.mp hr)]
      refine .waiting ?sent ?once
      case sent => simp
      case once => simp [List.count_append, List.count_eq_zero_of_not_mem hu]
  case offered | returned => cases h

theorem refused (h : Bears d left ⟨.unregister id, none⟩ k) (hr : k.Refused d) :
    Bears d left ⟨.unregister id, none⟩ .idle := by
  cases hr
  case waiting hs => exact .lost h.count_le_one hs
  case carrying c r hr =>
    cases h
    case carrying hu =>
      refine .lost (List.count_eq_zero_of_not_mem hu ▸ Nat.zero_le _) ?_
      refine Bool.ne_false_iff.mp fun hs => ?_
      rw [refusal?_unregister_eq_none_iff.mpr hs] at hr
      cases hr

end Courier.Bears

def Writer.Phase.IsAtWork : Writer.Phase → Prop
  | choosing | waiting _ | sending .. | closing _ => True
  | leaving _ | done                              => False

-- The courier of a writer that has stopped.
def Writer.Phase.courier? : Writer.Phase → Option Courier
  | leaving k                                     => some k
  | done                                          => some .idle
  | choosing | waiting _ | sending .. | closing _ => none

-- A session that was turned away.
def Stage.IsRefusal : Stage → Prop
  | refusing .. | leaving _ | finished (some _)                               => True
  | registering | admitted | serving | draining | finished none | broken => False

-- A session that was not served.
def Stage.IsOutside : Stage → Prop
  | registering | admitted | refusing .. | leaving _ | finished (some _) | broken => True
  | serving | draining | finished none                                                 => False

theorem Stage.IsRefusal.isOutside {stage : Stage} (h : stage.IsRefusal) : stage.IsOutside := by
  cases stage
  case finished r => cases r <;> first | exact h.elim | trivial
  all_goals first | exact h.elim | trivial

-- A session whose connection was registered.
def Stage.IsRegistered : Stage → Prop
  | admitted | serving | draining | finished none                      => True
  | registering | refusing .. | leaving _ | finished (some _) | broken => False

-- The errand by which a session asks to be admitted.
def registration (c : Session) (i : Nat) : Errand := ⟨.register ⟨c.id, c.identity, c.mailbox⟩, some (.session i)⟩

-- The errand by which a session has its connection removed.
def removal (c : Session) : Errand := ⟨.unregister c.id, none⟩

-- The same session, as far as its end is concerned.
structure Alike (c c' : Session) : Prop where
  id           : c'.id = c.id
  identity     : c'.identity = c.identity
  stage        : c'.stage = c.stage
  running      : c'.reader.running = c.reader.running
  courier      : c'.reader.courier = c.reader.courier
  unregistered : c'.unregistered = c.unregistered
  phase        : c'.writer.phase = c.writer.phase ∨ (c.writer.phase.IsAtWork ∧ c'.writer.phase.IsAtWork)

-- What happens on the transport has no bearing on it.
theorem alike_of_link {c : Session} (link : Link) : Alike c { c with link } :=
  ⟨rfl, rfl, rfl, rfl, rfl, rfl, .inl rfl⟩

theorem Alike.refl {c : Session} : Alike c c :=
  alike_of_link c.link

-- The writer goes on.
theorem alike_of_atWork {c : Session} {w : Writer} {link : Link} (h : c.writer.phase.IsAtWork)
    (hw : w.phase.IsAtWork) : Alike c { c with writer := w, link } :=
  ⟨rfl, rfl, rfl, rfl, rfl, rfl, .inr ⟨h, hw⟩⟩

theorem Writer.atWork_of_sent? {w w' : Writer} {l : Limits} {now : Nat} {m : Mailbox} {f : Frame} {asked : Bool}
    {o : Outcome} (h : w.sent? l now m f asked o = some w') : w'.phase.IsAtWork := by
  simp only [sent?] at h
  split at h
  case h_1 => cases h; dsimp only; split <;> trivial
  case h_2 => cases h; trivial
  case h_3 =>
    split at h
    case isTrue => cases h; trivial
    case isFalse => split at h <;> cases h; trivial

-- Another courier for the reader, or for the writer that has stopped.
def sendFromReader (c : Session) (k : Courier) : Session := { c with reader := { c.reader with courier := k } }

def sendFromWriter (c : Session) (k : Courier) : Session := { c with writer := { c.writer with phase := .leaving k } }

-- What a session that has been entered at the desk may do next, with what it leaves at the desk.
inductive Turn (d : Desk) : Session → Session → List Errand → Prop
  | stay {c c'} (h : Alike c c') : Turn d c c' []
  | serve {c} (now : Nat) (h : c.stage = .admitted) : Turn d c (c.serve now) []
  | request {c c' r} (h : Alike c c') (hl : c.reader.IsListening) (hr : Reaction.IsTo c.id c.identity r)
      (loan : Mailbox.Loan) : Turn d c (c'.sendFromReader (r.courier loan)) []
  | readerStops {c c'} (h : Alike c c') (hl : c.reader.IsListening) : Turn d c c'.readerDone []
  | readerForwards {c k new} (h : c.reader.courier.Forwards d k new) : Turn d c (c.sendFromReader k) new
  | readerRefused {c} (h : c.reader.courier.Refused d) (hr : c.reader.running = false) :
      Turn d c (c.sendFromReader .idle) []
  | readerGivesUp {c} (h : c.reader.courier.Refused d) (hr : c.reader.running = true) :
      Turn d c (c.sendFromReader .idle).readerDone []
  | writerStops {c} (h : c.writer.phase.IsAtWork) : Turn d c c.writerDone []
  | writerForwards {c k k' new} (hp : c.writer.phase = .leaving k) (h : k.Forwards d k' new) :
      Turn d c (c.sendFromWriter k') new
  | writerRefused {c k} (hp : c.writer.phase = .leaving k) (h : k.Refused d) :
      Turn d c (c.sendFromWriter .idle) []
  | writerEnds {c} (hp : c.writer.phase = .leaving .idle) :
      Turn d c { c with writer := { c.writer with phase := .done } } []
  | refuse {c c'} (hs : c.stage.IsRefusal) (hs' : c'.stage.IsRefusal) (hc : c.stage.lifecycle ≠ .closed)
      (h : Alike { c with stage := c'.stage } c') : Turn d c c' []
  | finish {c} (hs : c.stage = .draining) (hr : c.reader.courier = .idle) (hp : c.writer.phase = .done) :
      Turn d c (c.finish none) []

-- What a session learns of its registration.
inductive Told (c : Session) : Session → Prop
  | welcome : Told c c.welcome
  | refuse (r : Refusal) : Told c (c.refuse r)

-- How far a session has got with the removal of its connection.  As long as reader and writer are at work nobody
-- has been sent for it; then it is the one that stopped first whose courier is on the way.
inductive Keeps (d : Desk) (left : List Errand) (c : Session) : Prop
  | outside (stage : c.stage.IsOutside) (unregistered : c.unregistered = false) (running : c.reader.running = false)
      (courier : c.reader.courier = .idle) (phase : c.writer.phase = .done) (unsent : c.removal ∉ left)
  | serving (stage : c.stage = .serving) (unregistered : c.unregistered = false)
      (running : c.reader.running = true) (courier : c.reader.courier.IsPlain) (phase : c.writer.phase.IsAtWork)
      (unsent : c.removal ∉ left)
  | writerGone {k : Courier} (stage : c.stage = .serving) (unregistered : c.unregistered = true)
      (running : c.reader.running = true) (courier : c.reader.courier.IsPlain)
      (phase : c.writer.phase.courier? = some k) (bears : k.Bears d left c.removal)
  | readerGone (stage : c.stage = .draining) (unregistered : c.unregistered = true)
      (running : c.reader.running = false) (bears : c.reader.courier.Bears d left c.removal)
      (phase : c.writer.phase.IsAtWork ∨ c.writer.phase.courier? = some .idle)
  | bothGone {k : Courier} (stage : c.stage = .draining) (unregistered : c.unregistered = true)
      (running : c.reader.running = false) (courier : c.reader.courier = .idle)
      (phase : c.writer.phase.courier? = some k) (bears : k.Bears d left c.removal)
  | finished (stage : c.stage = .finished none) (unregistered : c.unregistered = true)
      (running : c.reader.running = false) (courier : c.reader.courier = .idle) (phase : c.writer.phase = .done)
      (bears : Courier.idle.Bears d left c.removal)

-- A session that has just begun: neither reader nor writer is at work yet.
structure Begins (c : Session) (id : ConnectionId) (who : Identity) : Prop where
  id           : c.id = id
  identity     : c.identity = who
  stage        : c.stage.IsOutside
  unregistered : c.unregistered = false
  reader       : c.reader = .idle
  writer       : c.writer = .idle

variable {c c' : Session}

theorem Begins.keeps {who : Identity} (h : c.Begins id who) (hm : c.removal ∉ left) : Keeps d left c :=
  .outside h.stage h.unregistered (h.reader ▸ rfl) (h.reader ▸ rfl) (h.writer ▸ rfl) hm

namespace Keeps

theorem mono (h : Keeps d left c) (hd : d.Precedes d') (hn : c.removal ∉ new) : Keeps d' (left ++ new) c := by
  have hu (hu : c.removal ∉ left) : c.removal ∉ left ++ new :=
    fun hm => (List.mem_append.mp hm).elim hu hn
  cases h
  case outside h₁ h₂ h₃ h₄ h₅ h => exact .outside h₁ h₂ h₃ h₄ h₅ (hu h)
  case serving h₁ h₂ h₃ h₄ h₅ h => exact .serving h₁ h₂ h₃ h₄ h₅ (hu h)
  case writerGone h₁ h₂ h₃ h₄ h₅ h => exact .writerGone h₁ h₂ h₃ h₄ h₅ (h.mono hd hn)
  case readerGone h₁ h₂ h₃ h h₄ => exact .readerGone h₁ h₂ h₃ (h.mono hd hn) h₄
  case bothGone h₁ h₂ h₃ h₄ h₅ h => exact .bothGone h₁ h₂ h₃ h₄ h₅ (h.mono hd hn)
  case finished h₁ h₂ h₃ h₄ h₅ h => exact .finished h₁ h₂ h₃ h₄ h₅ (h.mono hd hn)

theorem alike (h : Keeps d left c) (ha : Alike c c') : Keeps d left c' := by
  obtain ⟨hi, _, hs, hr, hc, hu, hp⟩ := ha
  have hm : c'.removal = c.removal := by rw [removal, removal, hi]
  have hwork (h : c.writer.phase.IsAtWork) : c'.writer.phase.IsAtWork := by
    obtain hp | ⟨_, hp⟩ := hp
    · exact hp ▸ h
    · exact hp
  have hrest {k} (h : c.writer.phase.courier? = some k) : c'.writer.phase = c.writer.phase := by
    refine hp.resolve_right fun ⟨hp, _⟩ => ?_
    cases hq : c.writer.phase <;> simp [hq, Writer.Phase.courier?, Writer.Phase.IsAtWork] at h hp
  have hdone (h : c.writer.phase = .done) : c'.writer.phase = .done :=
    (hrest (k := .idle) (h ▸ rfl)).trans h
  cases h
  case outside h₁ h₂ h₃ h₄ h₅ h =>
    exact .outside (hs ▸ h₁) (hu ▸ h₂) (hr ▸ h₃) (hc ▸ h₄) (hdone h₅) (hm ▸ h)
  case serving h₁ h₂ h₃ h₄ h₅ h =>
    exact .serving (hs ▸ h₁) (hu ▸ h₂) (hr ▸ h₃) (hc ▸ h₄) (hwork h₅) (hm ▸ h)
  case writerGone h₁ h₂ h₃ h₄ h₅ h =>
    exact .writerGone (hs ▸ h₁) (hu ▸ h₂) (hr ▸ h₃) (hc ▸ h₄) (hrest h₅ ▸ h₅) (hm ▸ h)
  case readerGone h₁ h₂ h₃ h h₄ =>
    refine .readerGone (hs ▸ h₁) (hu ▸ h₂) (hr ▸ h₃) (hc ▸ hm ▸ h) ?_
    exact h₄.imp hwork fun h₄ => hrest h₄ ▸ h₄
  case bothGone h₁ h₂ h₃ h₄ h₅ h =>
    exact .bothGone (hs ▸ h₁) (hu ▸ h₂) (hr ▸ h₃) (hc ▸ h₄) (hrest h₅ ▸ h₅) (hm ▸ h)
  case finished h₁ h₂ h₃ h₄ h₅ h =>
    exact .finished (hs ▸ h₁) (hu ▸ h₂) (hr ▸ h₃) (hc ▸ h₄) (hdone h₅) (hm ▸ h)

theorem of_isOutside (h : Keeps d left c) (hs : c.stage.IsOutside) :
    c.unregistered = false ∧ c.reader.running = false ∧ c.reader.courier = .idle ∧ c.writer.phase = .done ∧
      c.removal ∉ left := by
  cases h
  case outside _ hu hr hk hp hm => exact ⟨hu, hr, hk, hp, hm⟩
  all_goals rename c.stage = _ => hq; exact (hq ▸ hs).elim

-- A writer that has stopped has sent its courier for the removal, unless the reader was first.
theorem of_leaving (h : Keeps d left c) (hp : c.writer.phase = .leaving k) :
    (k = .idle ∧ ∀ p : Writer.Phase, p.courier? = some .idle →
      Keeps d left { c with writer := { c.writer with phase := p } }) ∨
    k.Bears d left c.removal ∧ ∀ d' left' (p : Writer.Phase) k', p.courier? = some k' →
      k'.Bears d' left' c.removal → Keeps d' left' { c with writer := { c.writer with phase := p } } := by
  cases h
  case outside hq _ | finished hq _ => rw [hp] at hq; cases hq
  case serving hq _ => exact (hp ▸ hq : Writer.Phase.IsAtWork (.leaving _)).elim
  case writerGone hs hu hr hk hq hb =>
    cases hp ▸ hq
    exact .inr ⟨hb, fun _ _ _ _ hp hb => .writerGone hs hu hr hk hp hb⟩
  case bothGone hs hu hr hk hq hb =>
    cases hp ▸ hq
    exact .inr ⟨hb, fun _ _ _ _ hp hb => .bothGone hs hu hr hk hp hb⟩
  case readerGone hs hu hr hb hq =>
    rw [hp] at hq
    cases hq.resolve_left fun hw => hw
    exact .inl ⟨rfl, fun _ hp => .readerGone hs hu hr hb (.inr hp)⟩

-- A reader that is at work belongs to a session that is served.
theorem serving_of_running (h : Keeps d left c) (hr : c.reader.running = true) : c.stage = .serving := by
  cases h
  case serving h _ _ _ _ _ | writerGone h _ _ _ _ _ => exact h
  case outside hn _ _ _ | readerGone hn _ _ | bothGone hn _ _ _ | finished hn _ _ _ =>
    rw [hr] at hn
    cases hn

end Keeps

theorem Told.trans (h : Told c c') {c'' : Session} (h' : Told c' c'') : Told c c'' := by
  cases h <;> cases h'
  case welcome.welcome | refuse.welcome => exact .welcome
  case welcome.refuse | refuse.refuse => exact .refuse _

theorem Told.id_eq (h : Told c c') : c'.id = c.id := by
  cases h <;> rfl

-- The number of the state in the order in which they come.
def Lifecycle.rank : Lifecycle → Nat
  | opened   => 0
  | active   => 1
  | draining => 2
  | closed   => 3

theorem not_forwards_idle : ¬ Courier.idle.Forwards d k' new :=
  nofun

-- A courier leaves the command that it has with it, or keeps it.
theorem Courier.Forwards.command? (hf : k.Forwards d k' new) :
    (k'.command? = k.command? ∧ new = []) ∨
      ∃ a, k.command? = some a ∧ k'.command? = none ∧ new = [⟨a, none⟩] := by
  cases hf
  case left c _ => exact .inr ⟨c, rfl, rfl, rfl⟩
  case arrived | offered => exact .inl ⟨rfl, rfl⟩
  case returned => exact .inl ⟨command?_bearing, rfl⟩

-- A request is forwarded as such.
theorem Courier.IsPlain.forwards (h : k.IsPlain) (hf : k.Forwards d k' new) :
    k'.IsPlain ∧ ∀ e ∈ new, e.caller = none ∧ e.command.IsRequest := by
  obtain ⟨hk, rfl⟩ | ⟨a, ha, hk, rfl⟩ := hf.command?
  case inl => exact ⟨fun c hc => h c (hk ▸ hc), List.forall_mem_nil _⟩
  case inr =>
    refine ⟨fun c hc => ?_, List.forall_mem_singleton.mpr ⟨rfl, h a ha⟩⟩
    rw [hk] at hc
    cases hc

theorem Courier.Bears.errands (h : k.Bears d left e) (he : e.caller = none) (hf : k.Forwards d k' new) :
    ∀ e' ∈ new, e' = e := by
  cases hf
  case arrived | offered | returned => exact List.forall_mem_nil _
  case left =>
    cases h
    exact List.forall_mem_singleton.mpr (by rw [← he])

theorem removal_not_mem (h : ∀ e ∈ new, e.caller = none ∧ e.command.IsRequest) : c.removal ∉ new :=
  fun hm => (h _ hm).2

namespace Turn

theorem id_eq (t : Turn d c c' new) : c'.id = c.id := by
  cases t
  case stay h | request h _ _ _ | readerStops h _ | refuse h => exact h.id
  all_goals rfl

-- Whatever a session leaves at the desk is what its client asks for, or the removal of its connection.
theorem errands (t : Turn d c c' new) (h : Keeps d left c) :
    ∀ e ∈ new, e = c.removal ∨ e.caller = none ∧ e.command.IsRequest := by
  cases t
  case readerForwards hf =>
    cases h
    case serving hk _ _ | writerGone hk _ _ => exact fun e hm => .inr ((hk.forwards hf).2 e hm)
    case readerGone hb _ => exact fun e hm => .inl (hb.errands rfl hf e hm)
    case outside hc _ _ | bothGone hc _ _ | finished hc _ _ => exact absurd (hc ▸ hf) not_forwards_idle
  case writerForwards hp hf =>
    obtain ⟨rfl, _⟩ | ⟨hb, _⟩ := h.of_leaving hp
    · exact absurd hf not_forwards_idle
    · exact fun e hm => .inl (hb.errands rfl hf e hm)
  all_goals exact List.forall_mem_nil _

-- Only the desk has a say in whether a session is admitted.
theorem registering_iff (t : Turn d c c' new) (h : Keeps d left c) :
    c'.stage = .registering ↔ c.stage = .registering := by
  cases t
  case stay h | request h _ _ _ => exact h.stage ▸ Iff.rfl
  case serve hs => exact iff_of_false nofun (hs ▸ nofun)
  case readerStops hc hl => exact iff_of_false nofun (h.serving_of_running hl.1 ▸ nofun)
  case readerGivesUp hr => exact iff_of_false nofun (h.serving_of_running hr ▸ nofun)
  case finish hs _ _ => exact iff_of_false nofun (hs ▸ nofun)
  case refuse hs _ hs' _ =>
    refine iff_of_false (fun he => ?_) fun he => ?_
    · rw [he] at hs'
      exact hs'
    · rw [he] at hs
      exact hs
  all_goals exact Iff.rfl

theorem rank_le (t : Turn d c c' new) (h : Keeps d left c) :
    c.stage.lifecycle.rank ≤ c'.stage.lifecycle.rank := by
  cases t
  case stay h | request h _ _ _ => exact Nat.le_of_eq (congrArg (·.lifecycle.rank) h.stage.symm)
  case serve hs => rw [hs]; exact Nat.zero_le _
  case readerStops hc hl => rw [h.serving_of_running hl.1]; exact Nat.le_succ _
  case readerGivesUp hr => rw [h.serving_of_running hr]; exact Nat.le_succ _
  case finish hs _ _ => rw [hs]; exact Nat.le_succ _
  case refuse hs hs' hc _ =>
    have h0 : c.stage.lifecycle.rank = 0 := by
      cases hc' : c.stage <;> simp_all [Stage.IsRefusal, Stage.lifecycle, Lifecycle.rank]
    exact h0 ▸ Nat.zero_le _
  all_goals exact Nat.le_refl _

end Turn

namespace Keeps

variable (h : Keeps d left c)

include h

theorem serve (hs : c.stage = .admitted) (now : Nat) : Keeps d left (c.serve now) := by
  have ⟨hu, _, _, _, hm⟩ := h.of_isOutside (hs ▸ trivial)
  exact .serving rfl hu rfl Courier.isPlain_idle trivial hm

theorem request (hl : c.reader.IsListening) (hr : k.IsPlain) : Keeps d left (c.sendFromReader k) := by
  cases h
  case serving hs hu hr' _ hp hm => exact .serving hs hu hr' hr hp hm
  case writerGone hs hu hr' _ hp hb => exact .writerGone hs hu hr' hr hp hb
  case outside hn _ _ _ | readerGone hn _ _ | bothGone hn _ _ _ | finished hn _ _ _ =>
    exact absurd hl.1 (by simp [hn])

-- The first one to stop sends for the removal.
theorem readerDone (hr : c.reader.running = true) : Keeps d left c.readerDone := by
  cases h
  case serving hu _ _ hp hm =>
    refine .readerGone rfl rfl rfl ?_ (.inl hp)
    simp only [Session.readerDone, withdraw, hu]
    exact .carrying hm
  case writerGone k hu _ _ hp hb =>
    refine .bothGone rfl rfl rfl ?_ hp hb
    simp only [Session.readerDone, withdraw, hu, if_true]
  case outside hn _ _ _ | readerGone hn _ _ | bothGone hn _ _ _ | finished hn _ _ _ =>
    exact absurd hr (by simp [hn])

theorem writerDone (hp : c.writer.phase.IsAtWork) : Keeps d left c.writerDone := by
  have hk {k : Courier} (hk : c.writer.phase.courier? = some k) : False := by
    cases hq : c.writer.phase <;> simp [hq, Writer.Phase.courier?, Writer.Phase.IsAtWork] at hk hp
  cases h
  case serving hs hu hr hk _ hm =>
    refine .writerGone (k := .carrying (.unregister c.id)) hs rfl hr hk ?_ (.carrying hm)
    simp [Session.writerDone, withdraw, hu, Writer.Phase.courier?]
  case readerGone hs hu hr hb _ =>
    refine .readerGone hs rfl hr hb (.inr ?_)
    simp [Session.writerDone, withdraw, hu, Writer.Phase.courier?]
  case writerGone hp _ | bothGone hp _ => exact (hk hp).elim
  case outside hp _ | finished hp _ => exact (hk (k := .idle) (by rw [hp]; rfl)).elim

theorem readerRefused (hr : c.reader.courier.Refused d) : Keeps d left (c.sendFromReader .idle) := by
  have hi : c.reader.courier ≠ .idle := fun hi => nomatch (hi ▸ hr)
  cases h
  case serving hs hu hr' _ hp hm => exact .serving hs hu hr' Courier.isPlain_idle hp hm
  case writerGone hs hu hr' _ hp hb => exact .writerGone hs hu hr' Courier.isPlain_idle hp hb
  case readerGone hs hu hr' hb hp => exact .readerGone hs hu hr' (hb.refused hr) hp
  case outside hc _ _ | bothGone hc _ _ | finished hc _ _ => exact absurd hc hi

theorem writerRefused (hp : c.writer.phase = .leaving k) (hr : k.Refused d) :
    Keeps d left (c.sendFromWriter .idle) := by
  obtain ⟨rfl, _⟩ | ⟨hb, hk⟩ := h.of_leaving hp
  · cases hr
  · exact hk _ _ _ _ rfl (hb.refused hr)

theorem writerEnds (hp : c.writer.phase = .leaving .idle) :
    Keeps d left { c with writer := { c.writer with phase := .done } } := by
  obtain ⟨_, hk⟩ | ⟨hb, hk⟩ := h.of_leaving hp
  · exact hk _ rfl
  · exact hk _ _ _ _ rfl hb

theorem refuse (hs : c.stage.IsRefusal) (hs' : c'.stage.IsRefusal)
    (ha : Alike { c with stage := c'.stage } c') : Keeps d left c' := by
  have ⟨hu, hr, hk, hp, hm⟩ := h.of_isOutside hs.isOutside
  have hc : Keeps d left { c with stage := c'.stage } := .outside hs'.isOutside hu hr hk hp hm
  exact hc.alike ha

-- Whoever waits for the courier of the other one has waited for the right one.
theorem finish (hs : c.stage = .draining) (hr : c.reader.courier = .idle) (hp : c.writer.phase = .done) :
    Keeps d left (c.finish none) := by
  cases h
  case readerGone hu hr' hb _ => exact .finished rfl hu hr' hr hp (hr ▸ hb)
  case bothGone hu hr' _ hq hb =>
    cases hp ▸ hq
    exact .finished rfl hu hr' hr hp hb
  case outside ho _ _ _ _ _ => exact (hs ▸ ho : Stage.IsOutside .draining).elim
  all_goals rename c.stage = _ => hq; rw [hs] at hq; cases hq

-- Whoever was not admitted so far has nobody to be removed.
theorem unsent (hs : c.stage = .registering) : c.removal ∉ left :=
  (h.of_isOutside (hs ▸ trivial)).2.2.2.2

theorem told (hs : c.stage = .registering) (ht : Told c c') : Keeps d left c' := by
  have ⟨hu, hr, hk, hp, hm⟩ := h.of_isOutside (hs ▸ trivial)
  cases ht <;> exact .outside trivial hu hr hk hp hm

variable (hd : d.Precedes d') (hl : d.stopped = false → left.length = d.number)

include hd hl

theorem readerForwards (hf : c.reader.courier.Forwards d k new) :
    Keeps d' (left ++ new) (c.sendFromReader k) := by
  cases h
  case serving hs hu hr hk hp hm =>
    have ⟨hk, hn⟩ := hk.forwards hf
    have hc : Keeps d left (c.sendFromReader k) := .serving hs hu hr hk hp hm
    exact hc.mono hd (removal_not_mem hn)
  case writerGone hs hu hr hk hp hb =>
    have ⟨hk, hn⟩ := hk.forwards hf
    have hc : Keeps d left (c.sendFromReader k) := .writerGone hs hu hr hk hp hb
    exact hc.mono hd (removal_not_mem hn)
  case readerGone hs hu hr hb hp => exact .readerGone hs hu hr (hb.forwards hf hd hl) hp
  case outside hc _ _ | bothGone hc _ _ | finished hc _ _ => exact absurd (hc ▸ hf) not_forwards_idle

theorem writerForwards (hp : c.writer.phase = .leaving k) (hf : k.Forwards d k' new) :
    Keeps d' (left ++ new) (c.sendFromWriter k') := by
  obtain ⟨rfl, _⟩ | ⟨hb, hk⟩ := h.of_leaving hp
  · exact absurd hf not_forwards_idle
  · exact hk _ _ _ _ rfl (hb.forwards hf hd hl)

-- One of reader and writer sends for the removal of the connection, once, and the session is over only when the
-- errand has arrived.
theorem turn (t : Turn d c c' new) : Keeps d' (left ++ new) c' := by
  cases t
  case readerForwards hf => exact h.readerForwards hd hl hf
  case writerForwards hp hf => exact h.writerForwards hd hl hp hf
  case stay ha => exact (h.alike ha).mono hd List.not_mem_nil
  case serve now hs => exact (h.serve hs now).mono hd List.not_mem_nil
  case request ha hr' hr loan =>
    refine ((h.alike ha).request ?_ (hr.isPlain loan)).mono hd List.not_mem_nil
    exact ⟨ha.running ▸ hr'.1, ha.courier ▸ hr'.2⟩
  case readerStops ha hr => exact ((h.alike ha).readerDone (ha.running ▸ hr.1)).mono hd List.not_mem_nil
  case readerRefused hr _ => exact (h.readerRefused hr).mono hd List.not_mem_nil
  case readerGivesUp hf hr => exact ((h.readerRefused hf).readerDone hr).mono hd List.not_mem_nil
  case writerStops hp => exact (h.writerDone hp).mono hd List.not_mem_nil
  case writerRefused hp hr => exact (h.writerRefused hp hr).mono hd List.not_mem_nil
  case writerEnds hp => exact (h.writerEnds hp).mono hd List.not_mem_nil
  case refuse hs _ hs' ha => exact (h.refuse hs hs' ha).mono hd List.not_mem_nil
  case finish hs hr hp => exact (h.finish hs hr hp).mono hd List.not_mem_nil

end Keeps

end Session
end Parley
