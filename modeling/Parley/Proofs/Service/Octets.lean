import Parley.Proofs.Service.Hearing
import Parley.Proofs.Text.Utf8

namespace Parley

open Session (Limits Reaction Reader)

-- A transport on which a frame is the next to come in.
def Session.Link.facing (k : Session.Link) (f : Frame) : Session.Link :=
  { k with inbound := { k.inbound with queue := f :: k.inbound.queue } }

-- A service in which a frame is the next to come in for session `i`.
def Service.facing (s : Service) (i : Nat) (f : Frame) : Service := s.changeLink i (·.facing f)

variable {s : Service} {i : Nat} {c : Session} {k : Session.Link} {f : Frame} {bs : List UInt8} {t : String}
  {p : Except Request.Unreadable Request}

namespace Request

theorem ofOctets_encode : ofOctets (Text.Utf8.encode t.toList) = ofText t := by
  rw [ofOctets, Text.Utf8.decode_eq_ok_iff.mpr rfl]
  rfl

theorem exists_ofOctets_eq_error (h : ¬ bs.toByteArray.IsValidUTF8) : ∃ f, ofOctets bs = .error (.octets f) := by
  have ⟨f, hf⟩ := Text.Utf8.exists_decode_eq_error_iff.mpr h
  exact ⟨f, by rw [ofOctets, hf]⟩

end Request

theorem Session.Link.read_facing (hr : k.readFails = false) (hp : f.reading? = some p) :
    (k.facing f).read = (.frame f, k) := by
  cases k
  cases f <;> cases hp
  all_goals
    simp only at hr
    simp [read, facing, hr, Pipe.receive, mind]

namespace Service

theorem stepRead_eq_none (hi : s.sessions[i]? = some c) (hl : ¬ c.reader.IsListening) : s.stepRead i = none := by
  simp only [stepRead, hi, Option.bind_eq_bind, Option.bind_some, hl, not_false_eq_true, if_true]

-- A reader that listens stops at a frame that is too large.
theorem stepRead_of_lt_size (hi : s.sessions[i]? = some c) (hl : c.reader.IsListening)
    (hf : c.link.read = (.frame f, k)) (hs : c.limits.frameSize < f.size) :
    s.stepRead i = some (s.readerDone i { c with reader := c.reader.stop, link := k }) := by
  have hj : Reader.judge c.limits f = .stop := if_pos (by simp [oversize?, hs])
  have ha : c.reader.after c.limits s.now f = c.reader.stop := by simp only [Reader.after, hj]
  simp only [stepRead, hi, Option.bind_eq_bind, Option.bind_some, hl, not_true, if_false, hf, hj, ha, readerDone,
    setSession, List.set_set]

-- A frame to be taken for a request is taken for one if it is not too large, and the reader stops if it is.
theorem stepRead_facing (hi : s.sessions[i]? = some c) (hr : c.link.readFails = false) (hp : f.reading? = some p) :
    (s.facing i f).stepRead i =
      if c.reader.IsListening then
        if f.size ≤ c.limits.frameSize then some (s.react i c (.ofPayload s.stamp c.id c.identity p))
        else some (s.readerDone i { c with reader := c.reader.stop })
      else none := by
  have ⟨hlt, hget⟩ := List.getElem?_eq_some_iff.mp hi
  have hfacing : s.facing i f = s.setSession i { c with link := c.link.facing f } := by
    simp only [facing, changeLink, hi]
  have hi' : (s.facing i f).sessions[i]? = some { c with link := c.link.facing f } := by
    rw [hfacing]
    exact List.getElem?_set_self hlt
  have hset (d : Session) : (s.facing i f).setSession i d = s.setSession i d := by
    rw [hfacing]
    simp only [setSession, List.set_set]
  have hread := Session.Link.read_facing hr hp
  split
  case isFalse hl => exact stepRead_eq_none hi' hl
  case isTrue hl =>
    split
    case isTrue hs =>
      have hself : s.setSession i c = s := by simp only [setSession, ← hget, List.set_getElem_self]
      have hstamp : (s.facing i f).stamp = s.stamp := by rw [hfacing]; rfl
      rw [stepRead_eq hi' hl hread hp hs, hset, hstamp]
      exact congrArg (fun u : Service => some (u.react i c _)) hself
    case isFalse hs =>
      rw [stepRead_of_lt_size hi' hl hread (Nat.lt_of_not_le hs), readerDone, hset]
      rfl

theorem setSession_eq_self (hi : s.sessions[i]? = some c) : s.setSession i c = s := by
  have ⟨_, hget⟩ := List.getElem?_eq_some_iff.mp hi
  simp only [setSession, ← hget, List.set_getElem_self]

theorem changeMailbox_congr {g g' : Mailbox → Mailbox} {j : Nat}
    (h : ∀ m, s.desk.exchange.mailboxes[j]? = some m → g m = g' m) : s.changeMailbox j g = s.changeMailbox j g' :=
  congrArg (fun x => { s with desk := { s.desk with exchange := x } }) (Exchange.changeMailbox_congr h)

theorem changeMailbox_changeMailbox {g g' : Mailbox → Mailbox} {j : Nat} :
    (s.changeMailbox j g).changeMailbox j g' = s.changeMailbox j (g' ∘ g) :=
  congrArg (fun x => { s with desk := { s.desk with exchange := x } }) Exchange.changeMailbox_changeMailbox

-- What a service is like once session `i` has answered its client, and nothing else has happened meanwhile: all that
-- has changed is its mailbox.
theorem exists_answered {n : Notice} (hi : s.sessions[i]? = some c) (hl : c.reader.IsListening) :
    ∃ w, (w = s.react i c (.answer n) ∨
        ∃ v, (s.react i c (.answer n)).stepCourier i = some v ∧ v.stepCourier i = some w) ∧
      w = (s.changeExchange fun x => { x with supply := x.supply.next }).changeMailbox c.mailbox (·.answer n) := by
  let t := s.changeExchange fun x => { x with supply := x.supply.next }
  have hidle : c.sendFromReader .idle = c := by
    rw [← hl.2]
    rfl
  have hback (g : Mailbox → Mailbox) :
      (t.changeMailbox c.mailbox g).setSession i (c.sendFromReader .idle) = t.changeMailbox c.mailbox g :=
    setSession_eq_self (hidle.symm ▸ hi)
  have hreact (k : Session.Courier) (hk : Reaction.courier (.answer n) (s.mailbox c.mailbox).lend.loan = k) :
      s.react i c (.answer n) = (t.changeMailbox c.mailbox Mailbox.lend).setSession i (c.sendFromReader k) :=
    hk ▸ rfl
  by_cases hloan : (s.mailbox c.mailbox).lend.loan = .fresh
  case neg =>
    -- No writing end is lent, and the answer is lost.
    refine ⟨_, .inl rfl, ?_⟩
    rw [hreact .idle (Reaction.courier_of_lost (.inr hloan)), hback]
    refine changeMailbox_congr fun m hm => ?_
    rw [mailbox_eq (s := s) hm] at hloan
    exact (Mailbox.lend_of_loan_ne_fresh hloan).trans (if_neg hloan).symm
  case pos =>
    have ⟨hlt, _⟩ := List.getElem?_eq_some_iff.mp hi
    rw [hreact (.answering (some n) none) (Reaction.courier_of_fresh rfl hloan)]
    let lent := t.changeMailbox c.mailbox Mailbox.lend
    let offered := lent.changeMailbox c.mailbox (·.reply n)
    have hset (u : Service) (c₁ c₂ : Session) : (u.setSession i c₁).setSession i c₂ = u.setSession i c₂ := by
      simp only [setSession, List.set_set]
    have hv : (lent.setSession i (c.sendFromReader (.answering (some n) none))).stepCourier i =
        some (offered.setSession i (c.sendFromReader (.answering none none))) := by
      rw [stepCourier_offering (List.getElem?_set_self hlt) rfl]
      exact congrArg some (hset offered ..)
    have hw : (offered.setSession i (c.sendFromReader (.answering none none))).stepCourier i =
        some (offered.changeMailbox c.mailbox Mailbox.giveBack) := by
      rw [stepCourier_returning (List.getElem?_set_self hlt) rfl]
      refine congrArg some ((hset (offered.changeMailbox c.mailbox Mailbox.giveBack) ..).trans ?_)
      exact setSession_eq_self (hidle.symm ▸ hi)
    refine ⟨_, .inr ⟨_, hv, hw⟩, ?_⟩
    rw [changeMailbox_changeMailbox, changeMailbox_changeMailbox]
    refine changeMailbox_congr fun m hm => ?_
    rw [mailbox_eq (s := s) hm] at hloan
    exact (if_pos hloan).symm

-- Whatever a session is like whose transport can be read, and whatever else the service is like: to a frame that holds
-- the octets of a text the session does what it does to a frame that holds the text.  To octets that are not
-- well-formed, if they are not too many, its reader answers that it cannot read them, if there is room in the mailbox.
-- Nothing else has changed once its courier is back: the exchange is not asked for anything, and every session goes on
-- as before.
theorem octets_read_as_text (hi : s.sessions[i]? = some c) (hr : c.link.readFails = false) :
    (∀ t : String,
      (Frame.binary t.toByteArray.data.toList).size = (Frame.text t).size ∧
        Request.ofOctets t.toByteArray.data.toList = Request.ofText t ∧
        (∀ l, Reader.judge l (.binary t.toByteArray.data.toList) = Reader.judge l (.text t)) ∧
        (s.facing i (.binary t.toByteArray.data.toList)).stepRead i = (s.facing i (.text t)).stepRead i) ∧
    ∀ bs : List UInt8, ¬ bs.toByteArray.IsValidUTF8 →
      (∃ fault, Request.ofOctets bs = .error (.octets fault)) ∧
        (c.reader.IsListening → bs.length ≤ c.limits.frameSize →
          let n := Notice.error s.stamp "Invalid message format"
          ∃ u w, (s.facing i (.binary bs)).stepRead i = some u ∧ u.desk.backlog = s.desk.backlog ∧
            (w = u ∨ ∃ v, u.stepCourier i = some v ∧ v.stepCourier i = some w) ∧ w.sessions = s.sessions ∧
            w.desk.backlog = s.desk.backlog ∧
            w = (s.changeExchange fun x => { x with supply := x.supply.next }).changeMailbox c.mailbox (·.answer n) ∧
            ((s.mailbox c.mailbox).loan = .absent →
              w = (s.changeExchange fun x => { x with supply := x.supply.next }).changeMailbox c.mailbox
                (·.put n))) := by
  constructor
  case left =>
    intro t
    have ho := Request.ofOctets_encode (t := t)
    rw [Text.Utf8.encode_toList] at ho
    have hs : (Frame.binary t.toByteArray.data.toList).size = (Frame.text t).size := by
      rw [Frame.size, Frame.size, Array.length_toList]
      exact String.size_toByteArray
    refine ⟨hs, ho, fun l => ?_, ?_⟩
    · simp only [Reader.judge, hs, ho]
    · rw [stepRead_facing hi hr rfl, stepRead_facing hi hr rfl, hs, ho]
  case right =>
    intro bs hn
    obtain ⟨fault, hf⟩ := Request.exists_ofOctets_eq_error hn
    refine ⟨⟨fault, hf⟩, fun hl hs => ?_⟩
    obtain ⟨w, hw, hanswered⟩ := exists_answered (n := .error s.stamp "Invalid message format") hi hl
    let u := s.react i c (.answer (.error s.stamp "Invalid message format"))
    refine ⟨u, w, ?step, rfl, hw, ?sessions, ?backlog, hanswered, fun hloan => hanswered.trans ?put⟩
    case step =>
      have hs : (Frame.binary bs).size ≤ c.limits.frameSize := hs
      rw [stepRead_facing hi hr rfl, if_pos hl, if_pos hs, hf]
      rfl
    case sessions | backlog => rw [hanswered]; rfl
    case put =>
      refine changeMailbox_congr fun m hm => Mailbox.answer_eq_put ?_
      rwa [mailbox_eq (s := s) hm] at hloan

-- Ann sends a form that is too long, a surrogate, a number that is too high, and the beginning of a character.
theorem octets_read_as_text_ill :
    let c : Session := (Session.new ⟨1⟩ ⟨7, "ann"⟩ .default 0 (.new 8)).serve 0
    let s : Service := { ((new "bye").openMailbox 256).2 with sessions := [c] }
    (s.facing 0 (.binary "é".toByteArray.data.toList)).stepRead 0 = (s.facing 0 (.text "é")).stepRead 0 ∧
      ∀ bs ∈ ([[0xC0, 0x80], [0xED, 0xA0, 0x80], [0xF4, 0x90, 0x80, 0x80], [0xE2, 0x82]] : List (List UInt8)),
        ∃ u w, (s.facing 0 (.binary bs)).stepRead 0 = some u ∧
          (w = u ∨ ∃ v, u.stepCourier 0 = some v ∧ v.stepCourier 0 = some w) ∧ w.sessions = [c] ∧
          s.desk.exchange.queue 0 = [] ∧ w.desk.exchange.queue 0 = [.error s.stamp "Invalid message format"] := by
  intro c s
  have hread := octets_read_as_text (s := s) (i := 0) (c := c) rfl rfl
  refine ⟨(hread.1 "é").2.2.2, fun bs hbs => ?_⟩
  have hsize : bs.length ≤ c.limits.frameSize := by
    have hl : ∀ bs ∈ ([[0xC0, 0x80], [0xED, 0xA0, 0x80], [0xF4, 0x90, 0x80, 0x80], [0xE2, 0x82]] : List (List UInt8)),
        bs.length ≤ c.limits.frameSize := by decide
    exact hl bs hbs
  have hill : ∃ fault, Text.Utf8.decode bs = .error fault := by
    simp only [List.mem_cons, List.not_mem_nil, or_false] at hbs
    obtain rfl | rfl | rfl | rfl := hbs
    all_goals
      rw [Text.Utf8.decode, Text.Utf8.decodeFrom]
      exact ⟨_, rfl⟩
  obtain ⟨u, w, hu, _, hw, hs, _, _, hput⟩ :=
    (hread.2 bs (Text.Utf8.exists_decode_eq_error_iff.mp hill)).2 ⟨rfl, rfl⟩ hsize
  refine ⟨u, w, hu, hw, hs, rfl, ?_⟩
  rw [hput rfl]
  rfl

end Service
end Parley
