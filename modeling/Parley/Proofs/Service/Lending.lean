import Parley.Proofs.Service.Warning

namespace Parley

open Std

-- What there is to lend is lent whatever the exchange does.
theorem Mailbox.stands_loan {loan : Loan} : Stands fun m => m.loan = loan :=
  ⟨fun _ _ h => h, fun _ _ h => h, fun _ h => h⟩

namespace Session

-- What a courier has of the mailbox of its session.
def Courier.loan : Courier → Mailbox.Loan
  | answering (some _) _          => .fresh
  | answering none _              => .spent
  | idle | carrying _ | waiting _ => .absent

variable {d : Desk} {m m' : Mailbox} {c c' : Session} {k k' : Courier} {left new : List Errand} {r : Reaction}

theorem Courier.loan_bearing {next : Option Command} : (bearing next).loan = .absent := by
  cases next <;> rfl

theorem Courier.loan_of_forwards (h : k.Forwards d k' new) (hm : m.loan = k.loan) : (k.tend m).loan = k'.loan := by
  cases h
  case left | arrived => exact hm
  case offered => exact Mailbox.loan_reply.trans (if_pos hm)
  case returned => exact loan_bearing.symm

theorem Courier.loan_of_refused (h : k.Refused d) : k.loan = .absent := by
  cases h <;> rfl

theorem loan_withdraw : c.withdraw.1.loan = .absent := by
  unfold withdraw
  split <;> rfl

theorem loan_rebuff : c.rebuff.reader.courier.loan = .absent := by
  unfold rebuff
  split
  · exact loan_withdraw
  · rfl

-- The courier is sent with the writing end that it gets, and with none if it gets none.
theorem Reaction.loan_lent (hm : m.loan = .absent) : (r.lent m).loan = (r.courier (r.lent m).loan).loan := by
  cases hr : r.reply
  case none => simp [lent, courier, hr, hm, Courier.loan_bearing]
  case some n =>
    by_cases hw : m.pipe.writable
    case pos => simp [lent, courier, Mailbox.lend, hr, hm, hw, Courier.loan]
    case neg => simp [lent, courier, Mailbox.lend, hr, hm, hw, Courier.loan_bearing]

theorem Reaction.loan_lent_eq_fresh_iff (hr : r.reply.isSome) (hm : m.loan = .absent) :
    (r.lent m).loan = .fresh ↔ m.pipe.writable := by
  obtain ⟨n, hn⟩ := Option.isSome_iff_exists.mp hr
  by_cases hw : m.pipe.writable <;> simp [lent, Mailbox.lend, hn, hm, hw]

theorem Reaction.courier_of_fresh {n : Notice} {loan : Mailbox.Loan} (hr : r.reply = some n) (hl : loan = .fresh) :
    r.courier loan = .answering (some n) r.command := by
  simp [courier, hr, hl]

theorem Reaction.courier_of_lost {loan : Mailbox.Loan} (h : r.reply = none ∨ loan ≠ .fresh) :
    r.courier loan = .bearing r.command := by
  cases hr : r.reply
  case none => simp [courier, hr]
  case some => simp [courier, hr, h.resolve_left (hr ▸ nofun)]

theorem Stride.loan (h : c.Stride d m c' m') (hk : Keeps d left c) (hm : m.loan = c.reader.courier.loan) :
    m'.loan = c'.reader.courier.loan := by
  have hlistens (hl : c.reader.IsListening) : m.loan = .absent := by rw [hm, hl.2]; rfl
  cases h
  case serve hs =>
    obtain ⟨_, _, hidle, _⟩ := hk.of_isOutside (hs ▸ trivial)
    exact hm.trans (hidle ▸ rfl)
  case bring hf => exact Courier.loan_of_forwards hf hm
  case retreat hr => rw [hm, Courier.loan_of_refused hr, loan_rebuff]
  case stop hl _ => exact (hlistens hl).trans loan_withdraw.symm
  case reject hl _ _ => exact (hlistens hl).trans (loan_withdraw (c := { c with link := _ })).symm
  case hear hl _ _ _ => exact Reaction.loan_lent (hlistens hl)
  case heed hj =>
    have ⟨_, hr⟩ := c.reader.stays_after d.exchange.supply.now hj
    exact hm.trans (congrArg Courier.loan hr).symm
  case take f _ _ => cases f <;> exact hm
  case send k _ _ hp hf =>
    -- The courier of a writer has nothing to answer.
    have hsame : (k.tend m).loan = m.loan := by
      obtain ⟨rfl, _⟩ | ⟨hb, _⟩ := hk.of_leaving hp
      · rfl
      · cases hb <;> rfl
    exact hsame.trans hm
  all_goals exact hm

end Session

namespace Service

-- The mailbox of a session is lent to its courier, and to nobody else.
def Lent (s : Service) (k : Nat) : Prop :=
  ∀ c ∈ s.sessions, c.mailbox = k → s.desk.exchange.Has k fun m => m.loan = c.reader.courier.loan

variable {s t : Service} {i k : Nat} {c c' : Session} {left : List Errand}

theorem Lent.loan_eq (h : s.Lent k) (hm : c ∈ s.sessions) (hk : c.mailbox = k) :
    (s.mailbox k).loan = c.reader.courier.loan := by
  obtain ⟨m, hm, hl⟩ := h c hm hk
  rw [mailbox_eq hm, hl]

-- A session that does nothing itself keeps what it has.
theorem Step.lent_of_suffers (st : Step s t) (hst : ¬ st.Tampers c.mailbox) (hs : s.Settled left)
    (hi : s.sessions[i]? = some c) (hby : ¬ st.IsBy i)
    (h : s.desk.exchange.Has c.mailbox fun m => m.loan = c.reader.courier.loan) :
    t.desk.exchange.Has c.mailbox fun m => m.loan = c.reader.courier.loan := by
  have hstands : Mailbox.Stands fun m => m.loan = c.reader.courier.loan := Mailbox.stands_loan
  refine (st.outlasts hst hstands fun j c₀ _ _ hj hstr hk _ => ?_).has (hs.housed c (List.mem_of_getElem? hi)) h
  obtain rfl := hs.eq_of_mailbox hstr.before hi hk
  exact absurd hj hby

theorem Step.lent (st : Step s t) (hst : ¬ st.Tampers k) (hs : s.Settled left) (h : s.Lent k) : t.Lent k := by
  rintro c' hm rfl
  obtain ⟨i, hi'⟩ := List.mem_iff_getElem?.mp hm
  obtain ⟨c, hi, hb⟩ | ⟨_, ho⟩ := st.origin hs.proper hi'
  case inr =>
    obtain ⟨m, hm, hl, _⟩ := ho.own
    exact ⟨m, hm, ho.reader.symm ▸ hl⟩
  case inl =>
    rw [hb.isSame.mailbox] at hst h ⊢
    have hhas := h c (List.mem_of_getElem? hi) rfl
    by_cases hby : st.IsBy i
    case neg =>
      obtain ⟨_, hi₁, hsuffers⟩ := st.suffers hby hs.proper hi
      cases Option.some.inj (hi'.symm.trans hi₁)
      rw [hsuffers.reader_eq]
      exact st.lent_of_suffers hst hs hi hby hhas
    case pos =>
      cases st
      case session j m hm =>
        obtain rfl : j = i := hby
        obtain ⟨_, _, m', hstr⟩ := Strides.of_move hm
        cases Option.some.inj (hi.symm.trans hstr.before)
        cases Option.some.inj (hi'.symm.trans hstr.self)
        obtain ⟨m, hm, hl⟩ := hhas
        have hloan := hstr.stride.loan (hs.proper.keeps c (List.mem_of_getElem? hi)) (mailbox_eq hm ▸ hl)
        exact ⟨m', by rw [hstr.mailboxes, if_pos rfl, hm, Option.map_some], hloan⟩
      all_goals exact hby.elim

theorem Run.lent (run : Run s t) (hrun : run.IsUntampered k) (hs : s.Settled left) (h : s.Lent k) : t.Lent k := by
  induction run
  case refl => exact h
  case step run st hi =>
    obtain ⟨_, hs⟩ := run.settled hs
    exact st.lent hrun.2 hs (hi hrun.1)

-- A session whose mailbox has lent out what it has for its courier is the only one to have it.
theorem Settled.lent (hs : s.Settled left) (hi : s.sessions[i]? = some c)
    (h : s.desk.exchange.Has c.mailbox fun m => m.loan = c.reader.courier.loan) : s.Lent c.mailbox := by
  intro c' hm hk
  obtain ⟨j, hj⟩ := List.mem_iff_getElem?.mp hm
  obtain rfl := hs.eq_of_mailbox hi hj hk.symm
  cases Option.some.inj (hi.symm.trans hj)
  exact h

end Service
end Parley
