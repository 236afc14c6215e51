import Parley.Transport.Duplex

namespace Parley

namespace Pipe

variable {α : Type} {p : Pipe α} {x : α}

-- What goes through a pipe leaves its ends as they are.
@[simp] theorem capacity_send : (p.send x).capacity = p.capacity := by
  unfold send; split <;> rfl

@[simp] theorem writable_send : (p.send x).writable = p.writable := by
  unfold send; split <;> rfl

@[simp] theorem readable_send : (p.send x).readable = p.readable := by
  unfold send; split <;> rfl

@[simp] theorem capacity_receive : p.receive.2.capacity = p.capacity := by
  unfold receive; split <;> rfl

@[simp] theorem writable_receive : p.receive.2.writable = p.writable := by
  unfold receive; split <;> rfl

@[simp] theorem readable_receive : p.receive.2.readable = p.readable := by
  unfold receive; split <;> rfl

end Pipe

namespace Duplex

-- The two directions: to the server, and from it.
inductive Way where
  | inbound
  | outbound
deriving DecidableEq

-- What can be done in one direction.
inductive Deed where
  | send (f : Frame)
  | close
  | receive
  | dropWriter
  | dropReader
deriving DecidableEq

-- One direction, and whether its two halves are there.
structure Lane where
  pipe : Pipe Frame
  writer : Bool
  reader : Bool

-- What was done, and how each of it ended.
abbrev Trace (α : Type) := List (α × Result)

namespace Trace

-- The frames whose sending was brought to its end.
def sent (tr : Trace Deed) : List Frame :=
  tr.filterMap fun
    | (.send f, .done) => some f
    | _                => none

def received (tr : Trace Deed) : List Frame :=
  tr.filterMap fun
    | (.receive, .received f) => f
    | _                       => none

end Trace

-- Nobody writes any more after these deeds.
def IsClosed (as : List Deed) : Prop := .close ∈ as ∨ .dropWriter ∈ as

instance (as : List Deed) : Decidable (IsClosed as) := by unfold IsClosed; infer_instance

variable {l : Lane} {capacity : Nat} {as bs : List Deed} {tr : Trace Deed} {a : Deed} {r : Result} {f : Frame}

theorem Trace.sent_concat : sent (tr ++ [(a, r)]) = sent tr ++ sent [(a, r)] :=
  List.filterMap_append

theorem Trace.received_concat : received (tr ++ [(a, r)]) = received tr ++ received [(a, r)] :=
  List.filterMap_append

theorem not_mem_concat {b : Deed} : b ∉ as ++ [a] ↔ b ∉ as ∧ a ≠ b := by
  simp [eq_comm]

theorem isClosed_concat : IsClosed (as ++ [a]) ↔ IsClosed as ∨ a = .close ∨ a = .dropWriter := by
  simp only [IsClosed, List.mem_append, List.mem_singleton, eq_comm (b := a)]
  grind

namespace Lane

def step (l : Lane) : Deed → Result × Lane
  | .send f =>
    if l.writer then (sendResult l.pipe, { l with pipe := l.pipe.send f }) else (.dropped, l)
  | .close => if l.writer then (.done, { l with pipe := l.pipe.closeWriter }) else (.dropped, l)
  | .receive =>
    if l.reader then (receiveResult l.pipe.receive.1, { l with pipe := l.pipe.receive.2 }) else (.dropped, l)
  | .dropWriter => (.wasThere l.writer, { l with writer := false, pipe := l.pipe.closeWriter })
  | .dropReader => (.wasThere l.reader, { l with reader := false, pipe := l.pipe.closeReader })

def after (l : Lane) (as : List Deed) : Lane :=
  as.foldl (fun l a => (l.step a).2) l

def trace (l : Lane) : List Deed → Trace Deed
  | []      => []
  | a :: as => (a, (l.step a).1) :: (l.step a).2.trace as

-- What becomes of the two ends of a lane.
theorem writer_step : (l.step a).2.writer = true ↔ l.writer = true ∧ a ≠ .dropWriter := by
  cases a <;> simp only [step] <;> repeat' split
  all_goals simp_all

theorem reader_step : (l.step a).2.reader = true ↔ l.reader = true ∧ a ≠ .dropReader := by
  cases a <;> simp only [step] <;> repeat' split
  all_goals simp_all

theorem writable_step :
    (l.step a).2.pipe.writable = true ↔
      l.pipe.writable = true ∧ ¬ (a = .dropWriter ∨ a = .close ∧ l.writer = true) := by
  cases a <;> simp only [step] <;> repeat' split
  all_goals simp_all [Pipe.closeWriter, Pipe.closeReader]

theorem readable_step : (l.step a).2.pipe.readable = true ↔ l.pipe.readable = true ∧ a ≠ .dropReader := by
  cases a <;> simp only [step] <;> repeat' split
  all_goals simp_all [Pipe.closeWriter, Pipe.closeReader]

theorem capacity_step : (l.step a).2.pipe.capacity = l.pipe.capacity := by
  cases a <;> simp only [step] <;> repeat' split
  all_goals simp [Pipe.closeWriter, Pipe.closeReader]

theorem trace_append : l.trace (as ++ bs) = l.trace as ++ (l.after as).trace bs := by
  induction as generalizing l
  case nil => rfl
  case cons a as hi => exact congrArg (_ :: ·) hi

-- What a lane has come to by some deeds, which ended as the trace has it.  The frames that were sent and not received
-- are under way, as long as someone may still receive them.
structure Carries (capacity : Nat) (as : List Deed) (tr : Trace Deed) (l : Lane) : Prop where
  writer   : l.writer = true ↔ .dropWriter ∉ as
  reader   : l.reader = true ↔ .dropReader ∉ as
  writable : l.pipe.writable = true ↔ ¬ IsClosed as
  readable : l.pipe.readable = true ↔ .dropReader ∉ as
  room     : l.pipe.capacity = capacity
  carried  : ∃ rest, tr.sent = tr.received ++ rest ∧ rest.length ≤ capacity ∧
    l.pipe.queue = if .dropReader ∈ as then [] else rest

theorem carries_new : Carries capacity [] [] ⟨.new capacity, true, true⟩ where
  writer   := by simp
  reader   := by simp
  writable := by simp [Pipe.new, IsClosed]
  readable := by simp [Pipe.new]
  room     := rfl
  carried  := ⟨[], rfl, Nat.zero_le _, rfl⟩

namespace Carries

variable (h : Carries capacity as tr l)

include h

-- Whether a lane takes another frame can be told from what was done before.
theorem outcome_eq :
    l.pipe.outcome =
      if IsClosed as ∨ .dropReader ∈ as then .closed
      else if tr.sent.length = tr.received.length + capacity then .full
      else .accepted := by
  obtain ⟨rest, hs, hle, hq⟩ := h.carried
  have hopen : (l.pipe.writable = true ∧ l.pipe.readable = true) ↔ ¬ (IsClosed as ∨ .dropReader ∈ as) := by
    rw [h.writable, h.readable, not_or]
  simp only [Pipe.outcome, hopen, Pipe.IsFull, h.room, hq, hs, List.length_append, Nat.add_left_cancel_iff]
  by_cases hc : IsClosed as ∨ .dropReader ∈ as
  case pos => simp [hc]
  case neg =>
    have hr : .dropReader ∉ as := fun hr => hc (.inr hr)
    have hfull : capacity ≤ rest.length ↔ rest.length = capacity := by omega
    simp [hr, hfull]

theorem send_eq :
    (l.step (.send f)).1 =
      if .dropWriter ∈ as then .dropped
      else if IsClosed as ∨ .dropReader ∈ as then .failed .closed
      else if tr.sent.length = tr.received.length + capacity then .waits
      else .done := by
  have hw : l.writer = true ↔ .dropWriter ∉ as := h.writer
  simp only [step, sendResult, h.outcome_eq]
  grind

-- What there is to receive is the first frame that was sent and not received.
theorem receive_eq :
    (l.step .receive).1 =
      if .dropReader ∈ as then .dropped
      else
        match tr.sent[tr.received.length]? with
        | some f => .received (some f)
        | none   => if IsClosed as then .received none else .waits := by
  obtain ⟨rest, hs, hle, hq⟩ := h.carried
  by_cases hr : .dropReader ∈ as
  case pos =>
    have hn : ¬ l.reader = true := fun hl => h.reader.mp hl hr
    simp [step, hn, hr]
  rw [if_neg hr] at hq
  simp only [step, h.reader.mpr hr, if_true, if_neg hr]
  have hw : l.pipe.writable = decide (¬ IsClosed as) := by
    rw [Bool.eq_iff_iff, decide_eq_true_eq, h.writable]
  rw [hs, List.getElem?_append_right (Nat.le_refl _), Nat.sub_self]
  cases rest
  case cons => simp [Pipe.receive, hq, receiveResult]
  case nil =>
    by_cases hc : IsClosed as <;> simp [Pipe.receive, hq, hw, hc, receiveResult]

-- A deed brings a lane further by what it carries, and takes away the half that it drops.
theorem step (a : Deed) : Carries capacity (as ++ [a]) (tr ++ [(a, (l.step a).1)]) (l.step a).2 where
  writer   := by rw [writer_step, h.writer, not_mem_concat]
  reader   := by rw [reader_step, h.reader, not_mem_concat]
  readable := by rw [readable_step, h.readable, not_mem_concat]
  room     := capacity_step.trans h.room
  writable := by
    have hw : ¬ IsClosed as → l.writer = true := fun hn => h.writer.mpr fun hm => hn (.inr hm)
    rw [writable_step, h.writable, isClosed_concat]
    grind
  carried  := by
    obtain ⟨rest, hs, hle, hq⟩ := h.carried
    rw [Trace.sent_concat, Trace.received_concat, hs]
    cases a
    case close | dropWriter =>
      refine ⟨rest, ?_, hle, ?_⟩
      · simp [Trace.sent, Trace.received]
      · simpa [Lane.step, Pipe.closeWriter, apply_ite] using hq
    case dropReader =>
      refine ⟨rest, ?_, hle, ?_⟩
      · simp [Trace.sent, Trace.received]
      · simp [Lane.step, Pipe.closeReader]
    case send f =>
      -- A frame that is not accepted leaves everything as it is.
      by_cases ho : l.writer = true ∧ l.pipe.outcome = .accepted
      case neg =>
        have hp : (l.step (.send f)).2.pipe = l.pipe := by
          simp only [Lane.step, Pipe.send]
          grind
        have hr : (l.step (.send f)).1 ≠ .done := by
          simp only [Lane.step, sendResult]
          grind
        refine ⟨rest, ?_, hle, ?_⟩
        · simp [Trace.sent, Trace.received, hr]
        · simpa [hp] using hq
      case pos =>
        obtain ⟨hw, ho⟩ := ho
        obtain ⟨hr, hlt⟩ : .dropReader ∉ as ∧ rest.length < capacity := by
          have := h.outcome_eq.symm.trans ho
          rw [hs, List.length_append] at this
          grind
        refine ⟨rest ++ [f], ?_, ?_, ?_⟩
        · simp [Trace.sent, Trace.received, Lane.step, sendResult, hw, ho]
        · rwa [List.length_append, List.length_singleton]
        · simp [Lane.step, Pipe.send, hw, ho, hq, hr]
    case receive =>
      have hnot : .dropReader ∈ as ++ [.receive] ↔ .dropReader ∈ as := by simp
      by_cases hr : l.reader = true
      case neg =>
        refine ⟨rest, ?_, hle, ?_⟩
        · simp [Trace.sent, Trace.received, Lane.step, hr]
        · simpa [Lane.step, hr] using hq
      case pos =>
        have hn := h.reader.mp hr
        rw [if_neg hn] at hq
        simp only [hnot, if_neg hn, Lane.step, hr, if_true]
        cases rest
        case nil =>
          refine ⟨[], ?_, hle, ?_⟩
          · cases hw : l.pipe.writable <;> simp [Trace.sent, Trace.received, Pipe.receive, receiveResult, hq, hw]
          · simp [Pipe.receive, hq]
        case cons f rest =>
          refine ⟨rest, ?_, Nat.le_of_succ_le hle, ?_⟩
          · simp [Trace.sent, Trace.received, Pipe.receive, receiveResult, hq]
          · simp [Pipe.receive, hq]

theorem run (bs : List Deed) : Carries capacity (as ++ bs) (tr ++ l.trace bs) (l.after bs) := by
  induction bs generalizing as tr l
  case nil => simpa [trace, after] using h
  case cons b bs hi =>
    have hb := hi (h.step b)
    rwa [List.append_assoc, List.append_assoc] at hb

-- Whoever cannot send any more never can again.
theorem sent_run (hc : IsClosed as) (bs : List Deed) : (tr ++ l.trace bs).sent = tr.sent := by
  induction bs generalizing as tr l
  case nil => rw [trace, List.append_nil]
  case cons b bs hi =>
    have hn : Trace.sent [(b, (l.step b).1)] = [] := by
      cases b
      case send f =>
        have hd : (l.step (.send f)).1 ≠ .done := by
          rw [h.send_eq]
          grind
        simp [Trace.sent, hd]
      all_goals rfl
    rw [trace, List.append_cons, hi (h.step b) (isClosed_concat.mpr (.inl hc)), Trace.sent_concat, hn,
      List.append_nil]

end Carries

end Lane

variable {w : Way} {op : Operation} {ops : List Operation} {d : Duplex}

def after (d : Duplex) (ops : List Operation) : Duplex :=
  ops.foldl (fun d op => (d.step op).2) d

def trace (d : Duplex) : List Operation → Trace Operation
  | []        => []
  | op :: ops => (op, (d.step op).1) :: (d.step op).2.trace ops

-- The lane of a direction.
def lane (d : Duplex) : Way → Lane
  | .inbound  => ⟨d.inbound, d.peer, d.stream⟩
  | .outbound => ⟨d.outbound, d.sink, d.peer⟩

namespace Way

-- What an operation does in a direction, if it has to do with it: the peer has a half of either.
def deed? : Way → Operation → Option Deed
  | inbound, .peerSend f     => some (.send f)
  | inbound, .peerDisconnect => some .close
  | inbound, .streamReceive  => some .receive
  | inbound, .drop .peer     => some .dropWriter
  | inbound, .drop .stream   => some .dropReader
  | outbound, .sinkSend f    => some (.send f)
  | outbound, .sinkClose     => some .close
  | outbound, .peerReceive   => some .receive
  | outbound, .drop .sink    => some .dropWriter
  | outbound, .drop .peer    => some .dropReader
  | _, _                     => none

def deeds (w : Way) (ops : List Operation) : List Deed :=
  ops.filterMap w.deed?

-- What is done in a direction.
def watch (w : Way) (tr : Trace Operation) : Trace Deed :=
  tr.filterMap fun (op, r) => (w.deed? op).map (·, r)

-- The operation of a direction that does a deed there.
def operation : Way → Deed → Operation
  | inbound, .send f      => .peerSend f
  | inbound, .close       => .peerDisconnect
  | inbound, .receive     => .streamReceive
  | inbound, .dropWriter  => .drop .peer
  | inbound, .dropReader  => .drop .stream
  | outbound, .send f     => .sinkSend f
  | outbound, .close      => .sinkClose
  | outbound, .receive    => .peerReceive
  | outbound, .dropWriter => .drop .sink
  | outbound, .dropReader => .drop .peer

variable {w : Way} {op : Operation} {ops : List Operation} {d : Duplex} {tr : Trace Operation}

theorem deed?_operation (w : Way) (a : Deed) : w.deed? (w.operation a) = some a := by
  cases w <;> cases a <;> rfl

theorem deeds_cons (h : w.deed? op = some a) : w.deeds (op :: ops) = a :: w.deeds ops :=
  List.filterMap_cons_some h

theorem deeds_cons_of_none (h : w.deed? op = none) : w.deeds (op :: ops) = w.deeds ops :=
  List.filterMap_cons_none h

theorem watch_cons (h : w.deed? op = some a) : w.watch ((op, r) :: tr) = (a, r) :: w.watch tr :=
  List.filterMap_cons_some (congrArg (Option.map (·, r)) h)

theorem watch_cons_of_none (h : w.deed? op = none) : w.watch ((op, r) :: tr) = w.watch tr :=
  List.filterMap_cons_none (congrArg (Option.map (·, r)) h)

-- Whoever looks in one direction misses nothing if whatever has to do with the other one alone is left out.
theorem deeds_filter : w.deeds (ops.filter fun op => (w.deed? op).isSome) = w.deeds ops := by
  rw [deeds, deeds, List.filterMap_filter]
  congr
  funext op
  cases w.deed? op <;> rfl

end Way

-- Of an operation, a lane notices nothing but what is done in its direction.
theorem lane_step (h : w.deed? op = some a) :
    (d.step op).1 = ((d.lane w).step a).1 ∧ (d.step op).2.lane w = ((d.lane w).step a).2 := by
  cases w <;> cases op <;> try (rename Half => half; cases half)
  all_goals cases h
  all_goals simp only [step, Lane.step, lane, and_self]
  all_goals split <;> simp only [*, Bool.false_eq_true, if_true, if_false, and_self]

theorem lane_step_of_none (h : w.deed? op = none) : (d.step op).2.lane w = d.lane w := by
  cases w <;> cases op <;> try (rename Half => half; cases half)
  all_goals cases h
  all_goals simp only [step, lane]
  all_goals repeat' split
  all_goals rfl

theorem lane_after (d : Duplex) (w : Way) (ops : List Operation) :
    (d.after ops).lane w = (d.lane w).after (w.deeds ops) := by
  induction ops generalizing d
  case nil => rfl
  case cons op ops hi =>
    change ((d.step op).2.after ops).lane w = _
    rw [hi]
    cases ha : w.deed? op
    case none => rw [lane_step_of_none ha, Way.deeds_cons_of_none ha]
    case some a =>
      rw [(lane_step ha).2, Way.deeds_cons ha]
      rfl

theorem watch_trace (d : Duplex) (w : Way) (ops : List Operation) :
    w.watch (d.trace ops) = (d.lane w).trace (w.deeds ops) := by
  induction ops generalizing d
  case nil => rfl
  case cons op ops hi =>
    rw [trace]
    cases ha : w.deed? op
    case none => rw [Way.watch_cons_of_none ha, hi, lane_step_of_none ha, Way.deeds_cons_of_none ha]
    case some a => rw [Way.watch_cons ha, hi, (lane_step ha).1, (lane_step ha).2, Way.deeds_cons ha, Lane.trace]

-- A frame that is not taken leaves no trace.
theorem step_send (h : (d.step (w.operation (.send f))).1 ≠ .done) : (d.step (w.operation (.send f))).2 = d := by
  have hsend {p : Pipe Frame} (hp : sendResult p ≠ .done) : p.send f = p := by
    refine if_neg fun ho => hp ?_
    rw [sendResult, ho]
  cases w
  all_goals
    simp only [Way.operation, step] at h ⊢
    split at h
    case isTrue hp => rw [if_pos hp, hsend h]
    case isFalse hp => rw [if_neg hp]

-- Whatever is done to a transport, either lane carries what its own deeds ask for.
theorem lane_carries (h : new? capacity = some d) (ops : List Operation) (w : Way) :
    ((d.after ops).lane w).Carries capacity (w.deeds ops) (w.watch (d.trace ops)) := by
  rw [lane_after, watch_trace]
  have hnew : d.lane w = ⟨.new capacity, true, true⟩ := by
    simp only [new?] at h
    split at h <;> cases h
    cases w <;> rfl
  have hc : (d.lane w).Carries capacity [] [] := hnew ▸ Lane.carries_new
  simpa using hc.run (w.deeds ops)

-- In either direction, whatever is done to a transport: what was received is the beginning of what was sent, and no
-- more than the capacity is under way.  A frame is turned away if nobody can write or read any more, and waits if the
-- lane is full; nothing comes of it in either case.  To receive gives the next frame, and the end if there is none and
-- nobody can write any more.  What has to do with the other direction alone makes no difference.
theorem carries_in_order (h : new? capacity = some d) (ops : List Operation) (w : Way) :
    let tr := w.watch (d.trace ops)
    let as := w.deeds ops
    let e := d.after ops
    tr.received.IsPrefix tr.sent ∧
    tr.sent.length ≤ tr.received.length + capacity ∧
    (e.lane w).pipe.queue = (if .dropReader ∈ as then [] else tr.sent.drop tr.received.length) ∧
    (∀ f, (e.step (w.operation (.send f))).1 =
      if .dropWriter ∈ as then .dropped
      else if IsClosed as ∨ .dropReader ∈ as then .failed .closed
      else if tr.sent.length = tr.received.length + capacity then .waits
      else .done) ∧
    (∀ f, (e.step (w.operation (.send f))).1 ≠ .done → (e.step (w.operation (.send f))).2 = e) ∧
    ((e.step (w.operation .receive)).1 =
      if .dropReader ∈ as then .dropped
      else
        match tr.sent[tr.received.length]? with
        | some f => .received (some f)
        | none   => if IsClosed as then .received none else .waits) ∧
    (IsClosed as → ∀ more, (w.watch (d.trace (ops ++ more))).sent = tr.sent) ∧
    (∀ op, w.deed? op = none → (e.step op).2.lane w = e.lane w) ∧
    w.watch (d.trace (ops.filter fun op => (w.deed? op).isSome)) = tr := by
  intro tr as e
  have hc : (e.lane w).Carries capacity as tr := lane_carries h ops w
  obtain ⟨rest, hs, hle, hq⟩ := hc.carried
  refine ⟨?ordered, ?bounded, ?underWay, fun f => ?sends, fun f hf => ?refused, ?receives,
    fun hclosed more => ?closed, fun op => lane_step_of_none, ?apart⟩
  case ordered => exact hs ▸ List.prefix_append ..
  case bounded => rw [hs, List.length_append]; omega
  case underWay => rw [hq, hs, List.drop_left]
  case sends => rw [(lane_step (w.deed?_operation _)).1, hc.send_eq]
  case refused => exact step_send hf
  case receives => rw [(lane_step (w.deed?_operation _)).1, hc.receive_eq]
  case closed =>
    rw [watch_trace, Way.deeds, List.filterMap_append, Lane.trace_append]
    exact watch_trace d w ops ▸ lane_after d w ops ▸ hc.sent_run hclosed (w.deeds more)
  case apart =>
    change _ = w.watch (d.trace ops)
    rw [watch_trace, Way.deeds_filter, watch_trace]

-- A frame goes out, another one finds no room, and the sink is closed before the peer takes the first.
theorem carries_in_order_drained :
    let d : Duplex := ⟨.new 1, .new 1, true, true, true⟩
    let ops : List Operation :=
      [.sinkSend (.text "a"), .sinkSend (.text "b"), .peerSend .close, .sinkClose, .peerReceive]
    let tr := Way.outbound.watch (d.trace ops)
    new? 1 = some d ∧ tr.map (·.2) = [.done, .waits, .done, .received (some (.text "a"))] ∧
      tr.received.IsPrefix tr.sent ∧ ((d.after ops).step .peerReceive).1 = .received none ∧
      ((d.after ops).step (.sinkSend .close)).1 = .failed .closed := by
  intro d ops tr
  have h : new? 1 = some d := by decide
  obtain ⟨hordered, _, _, hsend, _, hreceive, _⟩ := carries_in_order h ops .outbound
  exact ⟨h, by decide, hordered, hreceive.trans (by decide), (hsend .close).trans (by decide)⟩

end Duplex
end Parley
