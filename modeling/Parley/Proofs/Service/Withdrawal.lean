import Parley.Proofs.Exchange.Parting
import Parley.Proofs.Roster.Answers
import Parley.Proofs.Service.Proper

namespace Parley

open Std

namespace Exchange

-- All queries are answered as if a connection had never been there: the list of users and the members of any room
-- are those of other connections, and only these and the rooms that they are in are counted.
structure Overlooks (x : Exchange) (id : ConnectionId) : Prop where
  lacks   : x.roster.Lacks id
  users   : ∃ us, x.answer .onlineUsers = .users us ∧
    ∀ u ∈ us, ∃ v e, v ≠ id ∧ x.roster.entry? v = some e ∧ u = .online e.identity
  members : ∀ room, ∃ ns, x.answer (.roomMembers room) = .names ns ∧
    ∀ names ∈ ns, ∀ name ∈ names, ∃ v e, v ≠ id ∧ x.roster.entry? v = some e ∧ room ∈ e.rooms ∧
      e.identity.name = name
  rooms   : x.answer (.connectionRooms id) = .names none
  stats   : ∃ st, x.answer .stats = .stats st ∧
    (∃ vs : List ConnectionId, vs.Nodup ∧ st.connections = vs.length ∧
      ∀ v, v ∈ vs ↔ v ≠ id ∧ x.roster.IsLive v) ∧
    ∃ rooms : List String, rooms.Nodup ∧ st.rooms = rooms.length ∧
      ∀ room, room ∈ rooms ↔ ∃ v, v ≠ id ∧ x.roster.HasMember room v

variable {x : Exchange} {id : ConnectionId}

theorem overlooks (h : x.roster.Consistent) (hl : ¬ x.roster.IsLive id) : x.Overlooks id := by
  have hne {v} (hv : x.roster.IsLive v) : v ≠ id := by
    rintro rfl
    exact hl hv
  have hlacks := h.lacks hl
  refine ⟨hlacks, ⟨_, rfl, fun u hu => ?users⟩, fun room => ⟨_, rfl, fun names hn name hm => ?members⟩,
    ?rooms, ⟨_, rfl, ⟨x.roster.ids, Roster.nodup_ids, ?connections, fun v => ?live⟩,
      ⟨x.roster.rooms.keys, ?nodup, ?count, fun room => ?inhabited⟩⟩⟩
  case users =>
    have ⟨v, e, he, hu⟩ := h.exists_of_mem_onlineUsers hu
    exact ⟨v, e, hne (.of_some he), he, hu⟩
  case members =>
    have ⟨v, e, he, hm⟩ := h.exists_of_mem_roomMembers hn hm
    exact ⟨v, e, hne (.of_some he), he, hm⟩
  case rooms => simp [answer, Roster.connectionRooms, Roster.not_isLive_iff.mp hl]
  case connections | count => exact ExtTreeMap.length_keys.symm
  case live =>
    rw [Roster.mem_ids]
    exact ⟨fun hv => ⟨hne hv, hv⟩, And.right⟩
  case nodup => exact ExtTreeMap.nodup_keys
  case inhabited =>
    rw [h.mem_rooms_iff]
    refine exists_congr fun v => ⟨fun hv => ⟨?_, hv⟩, And.right⟩
    rintro rfl
    exact hlacks.room room hv

end Exchange

namespace Session.Keeps

variable {d : Desk} {left : List Errand} {c : Session}

theorem count_le_one (h : Keeps d left c) : left.count c.removal ≤ 1 := by
  cases h
  case outside hm | serving hm => exact List.count_eq_zero_of_not_mem hm ▸ Nat.zero_le _
  case writerGone h | bothGone h | finished h => exact h.count_le_one
  case readerGone h _ => exact h.count_le_one

-- Nobody is done before the removal has arrived, as long as there is anyone to take it.
theorem arrived (h : Keeps d left c) (hf : c.stage = .finished none) (hs : d.stopped = false) :
    left.count c.removal = 1 ∧ ∃ n, left[n]? = some c.removal ∧ d.HasRoom n := by
  cases h
  case finished h =>
    cases h
    case arrived hn hc hr => exact ⟨hc, _, hn, hr⟩
    case lost hd => exact nomatch hs.symm.trans hd
  case outside ho _ _ _ _ _ => exact (hf ▸ ho : Stage.IsOutside (.finished none)).elim
  all_goals rename c.stage = _ => hq; rw [hf] at hq; cases hq

end Session.Keeps

namespace Service

-- What comes of a query: a visitor leaves it at the desk, and in the end it is the query's turn.
structure Inquiry (t : Service) (q : Query) where
  ticket   : Nat
  listing  : Listing
  asked    : Service
  before   : Service
  answered : Service
  submit   : t.submit ⟨.query q, some (.visitor ticket)⟩ = .ok asked
  run      : Run asked before
  due      : before.desk.handled = t.desk.number
  step     : before.stepDesk listing = some answered
  goesOn   : answered.desk.stopped = false

variable {s t : Service} {q : Query} {left : List Errand} {i : Nat} {c : Session}

namespace Inquiry

variable (inquiry : t.Inquiry q)

-- The query comes after all that was left at the desk so far, and is answered as things are when it is its turn.
theorem answer (h : t.Proper left) :
    t.desk.stopped = false ∧
    inquiry.answered.replies =
      inquiry.before.replies ++ [(inquiry.ticket, .answer (inquiry.before.desk.exchange.answer q))] ∧
    ∃ later, inquiry.before.Proper (left ++ later) ∧ left.length = inquiry.before.desk.handled := by
  let e : Errand := ⟨.query q, some (.visitor inquiry.ticket)⟩
  have hleft : t.left inquiry.asked = [e] := left_of_takes (takes_submit inquiry.submit).1
  have ⟨hp, ha⟩ := (Step.visit _ _ inquiry.submit nofun).proper h
  have ⟨hp', ha'⟩ := inquiry.run.proper hp
  rw [hleft, List.append_assoc] at hp'
  have ⟨(rs, d), hd, hw⟩ := Option.map_eq_some_iff.mp inquiry.step
  obtain ⟨hs, ⟨e', backlog, _, hb, hrs, rfl⟩ | ⟨_, hd⟩⟩ := Desk.step_eq_some hd
  case inr =>
    -- An exchange that has stopped does not go on.
    cases hd
    have ⟨ht, _⟩ :=
      foldl_handOver (s := { inquiry.before with desk := (inquiry.before.desk.stop inquiry.listing).2 })
        (inquiry.before.desk.stop inquiry.listing).1
    have hstop := inquiry.goesOn
    rw [← hw] at hstop
    exact nomatch ht.stopped.symm.trans hstop
  case inl =>
    have ht := (ha.desk.trans ha'.desk).goesOn hs
    have hlen : left.length = inquiry.before.desk.handled := (h.books.number_eq ht).trans inquiry.due.symm
    have hb' := hp'.books.backlog hs
    rw [← hlen, List.drop_left, hb, List.singleton_append, List.cons.injEq] at hb'
    refine ⟨ht, ?_, _, hp', hlen⟩
    rw [← hw, hrs, ← hb'.1]
    rfl

end Inquiry

-- Wherever a run leads, a session has left the removal of its connection at the desk once at most; if the session is
-- over and the exchange goes on, it has left it there once, and there was room for it.  A session is never set back.
-- Whoever asks anything after the session is over is answered as if the connection had never been there.  What
-- visitors ask to have removed is not counted: they wait for the outcome, and a session does not.
theorem Run.withdraws_once {farewell : String} {capacity : Nat} (run : Run (.new farewell capacity) s)
    (hi : s.sessions[i]? = some c) :
    run.left.count c.removal ≤ 1 ∧
    (c.stage = .finished none → s.desk.stopped = false →
      run.left.count c.removal = 1 ∧ ∃ n, run.left[n]? = some c.removal ∧ s.desk.HasRoom n) ∧
    (∀ t, Run s t → ∃ c', t.sessions[i]? = some c' ∧ c'.id = c.id ∧
      c.stage.lifecycle.rank ≤ c'.stage.lifecycle.rank) ∧
    (c.stage = .finished none → ∀ t, Run s t → ∀ q (inquiry : t.Inquiry q),
      inquiry.answered.replies =
        inquiry.before.replies ++ [(inquiry.ticket, .answer (inquiry.before.desk.exchange.answer q))] ∧
      inquiry.before.desk.exchange.Overlooks c.id) := by
  have ⟨hp, _⟩ := run.proper proper_new
  rw [List.nil_append] at hp
  have hk := hp.keeps c (List.mem_of_getElem? hi)
  refine ⟨hk.count_le_one, hk.arrived, fun t later => (later.proper hp).2.sessions i c hi,
    fun hf t later q inquiry => ?_⟩
  have ⟨ht, ha⟩ := later.proper hp
  have ⟨hs, hr, after, hb, hlen⟩ := inquiry.answer ht
  have ⟨_, n, hn, _⟩ := hk.arrived hf (ha.desk.goesOn hs)
  have ⟨hlt, _⟩ := List.getElem?_eq_some_iff.mp hn
  refine ⟨hr, Exchange.overlooks hb.books.roster (hb.books.gone n ?_ c.id ?_)⟩
  case refine_1 =>
    rw [← hlen, List.length_append]
    exact Nat.lt_add_right _ hlt
  case refine_2 =>
    rw [List.append_assoc, List.getElem?_append_left hlt]
    exact hn

-- Ann comes when she has nothing to say any more, and cannot be written to; once she is gone, a visitor asks who is
-- there.
theorem Run.withdraws_once_alone :
    ∃ (s : Service) (run : Run (.new "bye") s) (c : Session) (inquiry : s.Inquiry .onlineUsers),
      s.sessions[0]? = some c ∧ c.stage = .finished none ∧ run.left.count c.removal = 1 ∧
      inquiry.before.desk.exchange.Overlooks c.id := by
  let limits := Session.Limits.default
  let link : Session.Link := { Session.Link.new 8 with inbound := (Pipe.new 8).closeWriter, writeFails := true }
  let ann : Session := .new ⟨1⟩ ⟨7, "ann"⟩ limits 0 link
  let service (x : Exchange) (backlog : List Errand) (handled : Nat) (c : Session) : Service :=
    ⟨⟨x, Desk.defaultCapacity, backlog, handled, none, false, "bye"⟩, [c], 1, true, []⟩
  let registration : Command := .register ⟨⟨1⟩, ⟨7, "ann"⟩, 0⟩
  let x := Exchange.empty.openMailbox 0 256
  let y := x.handle .ascending registration
  -- She is admitted and served.
  let s₁ := service x [⟨registration, some (.session 0)⟩] 0 ann
  let s₂ := service y [] 1 ann.welcome
  let c₃ := ann.welcome.serve y.supply.now
  have hnew : IsNew (.new "bye") ⟨1⟩ := ⟨by decide, List.forall_mem_nil _, List.forall_mem_nil _⟩
  let run₁ : Run (.new "bye") s₁ := .step .refl (.connect ⟨1⟩ ⟨7, "ann"⟩ limits link hnew)
  let run₂ : Run (.new "bye") s₂ := .step run₁ (.desk .ascending rfl)
  let run₃ : Run (.new "bye") (service y [] 1 c₃) := .step run₂ (.session 0 .serve rfl)
  -- Her reader stops, and its courier takes the removal to the desk.
  let c₄ := c₃.readerDone
  let c₅ := c₄.sendFromReader (.waiting 1)
  let c₆ := c₅.sendFromReader .idle
  let backlog : List Errand := [ann.removal]
  let run₄ : Run (.new "bye") (service y [] 1 c₄) := .step run₃ (.session 0 .read rfl)
  let run₅ : Run (.new "bye") (service y backlog 1 c₅) := .step run₄ (.session 0 .courier rfl)
  let run₆ : Run (.new "bye") (service y backlog 1 c₆) := .step run₅ (.session 0 .courier rfl)
  -- Her writer takes the first notice that there is for her, and fails.
  have hm : ((y.mailboxes[0]?).any fun m => decide (m.pipe.queue ≠ [] ∧ m.cancelledAt = none)) = true := by
    have hy : y = x.perform .ascending registration := Exchange.handle_eq_perform (by decide)
    rw [hy]
    decide
  obtain ⟨m, hm, hq⟩ := (Option.any_eq_true _ _).mp hm
  obtain ⟨hq, hc⟩ := of_decide_eq_true hq
  obtain ⟨n, queue, hq⟩ := List.exists_cons_of_ne_nil hq
  have hf : c₆.writer.choose limits y.supply.now m = .frame (.text n.text) := by
    simp [Session.Writer.await, Session.Writer.IsExpired, Mailbox.receive, hq, hc]
  let f : Frame := .text n.text
  let z := y.changeMailbox 0 takeNotice
  let c₇ : Session := { c₆ with writer := c₆.writer.take limits y.supply.now f }
  let c₈ : Session := { c₇ with writer := { c₇.writer with phase := .closing y.supply.now } }
  have hw : (service y backlog 1 c₆).stepWriter 0 = some (service z backlog 1 c₇) := by
    have hbox : (service y backlog 1 c₆).mailbox c₆.mailbox = m := congrArg (·.getD (.new 0)) hm
    have hp : c₆.writer.phase = .choosing := rfl
    have hf : c₆.writer.choose c₆.limits (service y backlog 1 c₆).now m = .frame f := hf
    have hc : (service y backlog 1 c₆).sessions[0]? = some c₆ := rfl
    simp only [stepWriter, hc, Option.bind_eq_bind, Option.bind_some, hp, hbox, hf]
    rfl
  let run₇ : Run (.new "bye") (service z backlog 1 c₇) := .step run₆ (.session 0 .write hw)
  let run₈ : Run (.new "bye") (service z backlog 1 c₈) := .step run₇ (.session 0 .write rfl)
  let c₉ := c₈.writerDone
  let z₉ := z.changeMailbox 0 (·.cancel y.supply.now)
  let run₉ : Run (.new "bye") (service z₉ backlog 1 c₉) := .step run₈ (.session 0 .write rfl)
  let c₁₀ : Session := { c₉ with writer := { c₉.writer with phase := .done } }
  let w := z₉.changeMailbox 0 Mailbox.abandon
  let run₁₀ : Run (.new "bye") (service w backlog 1 c₁₀) := .step run₉ (.session 0 .write rfl)
  -- The session is over when the removal has not been handled yet; the query comes after it.
  let c := c₁₀.finish none
  let run : Run (.new "bye") (service w backlog 1 c) := .step run₁₀ (.session 0 .finish rfl)
  let query : Errand := ⟨.query .onlineUsers, some (.visitor 0)⟩
  let gone := w.handle .ascending ann.removal.command
  let inquiry : (service w backlog 1 c).Inquiry .onlineUsers :=
    { ticket := 0
      listing := .ascending
      asked := service w (backlog ++ [query]) 1 c
      before := service gone [query] 2 c
      answered :=
        { service (gone.handle .ascending query.command) [] 3 c with
          replies := [(0, .answer (gone.answer .onlineUsers))] }
      submit := rfl
      run := .step .refl (.desk .ascending rfl)
      due := rfl
      step := rfl
      goesOn := rfl }
  have h := run.withdraws_once (i := 0) (c := c) rfl
  exact ⟨_, run, c, inquiry, rfl, rfl, (h.2.1 rfl rfl).1, (h.2.2.2 rfl _ .refl _ inquiry).2⟩

end Service
end Parley
