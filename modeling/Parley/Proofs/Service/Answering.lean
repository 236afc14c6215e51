import Parley.Proofs.Service.Steady
import Parley.Proofs.Service.Strides

namespace Parley

open Std

namespace Session

variable {d : Desk} {m m' : Mailbox} {c c' : Session} {n : Notice} {next : Option Command} {r : Reaction}
  {loan : Mailbox.Loan} {k k' : Courier} {new : List Errand} {id : ConnectionId} {who : Identity}

theorem Reaction.reply_of_courier (h : r.courier loan = .answering (some n) next) : r.reply = some n := by
  have hbearing (h : Courier.bearing r.command = .answering (some n) next) : False := by
    cases hc : r.command <;> rw [hc] at h <;> cases h
  unfold courier at h
  split at h
  case h_1 =>
    split at h
    case isTrue hn _ => cases h; exact hn
    case isFalse => exact (hbearing h).elim
  case h_2 => exact (hbearing h).elim

-- No courier comes to an answer on its way.
theorem Courier.Forwards.not_answering (h : k.Forwards d k' new) : k' ≠ .answering (some n) next := by
  cases h
  case left | arrived | offered => nofun
  case returned next' => cases next' <;> nofun

theorem not_answering_withdraw : c.withdraw.1 ≠ .answering (some n) next := by
  unfold withdraw
  split <;> nofun

-- What a session makes of what its client says.
structure Makes (d : Desk) (m : Mailbox) (c c' : Session) (r : Reaction) : Prop where
  listens : c.reader.IsListening
  said    : ∃ f link p, c.link.read = (.frame f, link) ∧ Reader.judge c.limits f = .payload p ∧
    r = .ofPayload d.exchange.supply.stamp c.id c.identity p
  courier : c'.reader.courier = r.courier (r.lent m).loan

theorem Makes.isTo (h : Makes d m c c' r) : r.IsTo c.id c.identity := by
  obtain ⟨f, _, p, _, hj, hr⟩ := h.said
  exact ⟨c.limits, f, _, p, hj, hr⟩

-- A courier sets out with an answer only when its client has said something.
theorem Stride.answering (h : c.Stride d m c' m') (hk : c'.reader.courier = .answering (some n) next) :
    c.reader.courier = .answering (some n) next ∨ ∃ r, Makes d m c c' r ∧ r.reply = some n := by
  cases h
  case hear f link p r hl hf hj hr =>
    exact .inr ⟨r, ⟨hl, ⟨f, link, p, hf, hj, hr⟩, rfl⟩, Reaction.reply_of_courier hk⟩
  case serve => cases hk
  case bring hf => exact absurd hk hf.not_answering
  case retreat =>
    unfold rebuff at hk
    split at hk
    case isTrue => exact absurd hk not_answering_withdraw
    case isFalse => cases hk
  case stop | reject => exact absurd hk not_answering_withdraw
  case heed hj => exact .inl ((Reader.stays_after _ _ hj).2 ▸ hk)
  all_goals exact .inl hk

end Session

namespace Service

open Session (Reaction)

-- Session `i` takes what its client says, and makes something of it.
inductive Hears (s t : Service) (i : Nat) : Reaction → Prop
  | intro {c c' r} (hc : s.sessions[i]? = some c) (hc' : t.sessions[i]? = some c')
      (h : c.Makes s.desk (s.mailbox c.mailbox) c' r) : Hears s t i r

-- What the sessions have made of what their clients have said in the course of a run.
inductive Run.Heard {s : Service} : {t : Service} → Run s t → Nat → Reaction → Prop
  | last {t u} {run : Run s t} {st : Step t u} {i r} (h : t.Hears u i r) : Heard (.step run st) i r
  | before {t u} {run : Run s t} {st : Step t u} {i r} (h : run.Heard i r) : Heard (.step run st) i r

-- Whatever answer a session has was made of something that its client has said.
def Answers (s : Service) (heard : Nat → Reaction → Prop) : Prop :=
  ∀ i c n next, s.sessions[i]? = some c → c.reader.courier = .answering (some n) next →
    ∃ r, heard i r ∧ r.IsTo c.id c.identity ∧ r.reply = some n

variable {s t : Service} {i : Nat} {c : Session} {heard heard' : Nat → Reaction → Prop} {left : List Errand}

theorem Answers.mono (h : s.Answers heard) (hh : ∀ i r, heard i r → heard' i r) : s.Answers heard' := by
  intro i c n next hi hk
  obtain ⟨r, hr, hto, hn⟩ := h i c n next hi hk
  exact ⟨r, hh i r hr, hto, hn⟩

theorem answers_new {farewell : String} {capacity : Nat} : (Service.new farewell capacity).Answers heard :=
  fun _ _ _ _ hi => nomatch hi

-- Whoever comes by a step begins.
theorem Step.begins (st : Step s t) (hs : s.sessions[i]? = none) (hi : t.sessions[i]? = some c) :
    c.reader = .idle := by
  have ⟨hlt, _⟩ := List.getElem?_eq_some_iff.mp hi
  have hle := List.getElem?_eq_none_iff.mp hs
  by_cases ha : st.IsArrival
  case neg =>
    rw [st.length_eq ha] at hlt
    omega
  case pos =>
    cases st
    case connect =>
      obtain ⟨c', _, hb, hs', _⟩ := s.connect_cases _ _ _ _
      rw [hs', List.getElem?_append_right hle] at hi
      exact List.mem_singleton.mp (List.mem_of_getElem? hi) ▸ hb.reader
    all_goals exact ha.elim

theorem Step.answers (st : Step s t) (hp : s.Proper left) (h : s.Answers heard) :
    t.Answers fun i r => s.Hears t i r ∨ heard i r := by
  intro i c' n next hi hk
  cases hc : s.sessions[i]?
  case none =>
    rw [st.begins hc hi] at hk
    cases hk
  case some c =>
    obtain ⟨c'', hi', hb⟩ := st.befalls hp hc
    cases Option.some.inj (hi.symm.trans hi')
    have hsame := hb.isSame
    have hkept (hk : c.reader.courier = .answering (some n) next) :
        ∃ r, (s.Hears t i r ∨ heard i r) ∧ r.IsTo c'.id c'.identity ∧ r.reply = some n := by
      obtain ⟨r, hr, hto, hn⟩ := h i c n next hc hk
      exact ⟨r, .inr hr, hsame.id ▸ hsame.identity ▸ hto, hn⟩
    cases hb
    case suffers hb => exact hkept (hb.reader_eq ▸ hk)
    case strides hb =>
      obtain hk | ⟨r, hm, hn⟩ := hb.stride.answering hk
      case inl => exact hkept hk
      case inr => exact ⟨r, .inl (.intro hc hi hm), hsame.id ▸ hsame.identity ▸ hm.isTo, hn⟩

theorem Run.answers (run : Run s t) (hp : s.Proper []) (h : s.Answers fun _ _ => False) : t.Answers run.Heard := by
  induction run
  case refl => exact h.mono fun _ _ => False.elim
  case step run st hi =>
    refine (st.answers (run.proper hp).1 hi).mono fun i r hr => ?_
    obtain hr | hr := hr
    · exact .last hr
    · exact .before hr

end Service
end Parley
