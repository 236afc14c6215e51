import Parley.Proofs.Exchange.Complaint
import Parley.Proofs.Service.Filing
import Parley.Proofs.Service.Hearing
import Parley.Proofs.Service.Authorship

namespace Parley

open Std

namespace Service

-- Whoever has the name of the client of session `i`, with their mailbox.  It is the connection of the session as long
-- as that is there, and otherwise one that was registered under the name since.
inductive Holder (s : Service) (letters : List (Option Nat × Errand)) (i : Nat) (c : Session) :
    ConnectionId → Nat → Prop
  | self (h : s.desk.exchange.roster.IsLive c.id) : Holder s letters i c c.id c.mailbox
  | heir {v entry n n' m e} (hgone : ¬ s.desk.exchange.roster.IsLive c.id)
      (hlive : s.desk.exchange.roster.entry? v = some entry) (hname : entry.identity.name = c.identity.name)
      (hm : letters[n]? = some (some i, c.registration i)) (hm' : letters[n']? = some (m, e))
      (hr : e.command = .register ⟨v, entry.identity, entry.mailbox⟩) (hlt : n < n') (hlt' : n' < s.desk.handled) :
      Holder s letters i c v entry.mailbox

variable {s t : Service} {i n k : Nat} {c : Session} {letters : List (Option Nat × Errand)} {v : ConnectionId}
  {entry : Entry} {e : Errand} {l : Listing} {p : Post} {name : String} {m : Option Nat}

-- A session that has asked for something was registered, if that is handled next.
theorem Filed.exists_isFiled (h : s.Filed letters) (hi : s.sessions[i]? = some c)
    (hm : letters[s.desk.handled]? = some (some i, e)) (he : e.command.IsRequest) :
    ∃ n < s.desk.handled, c.IsFiled i n letters := by
  obtain ⟨n, hn⟩ | ⟨_, hnone⟩ := h.sessions i c hi
  case inl => exact ⟨n, hn.first _ e hm he, hn⟩
  case inr => exact absurd (List.mem_of_getElem? hm) (hnone e)

-- What a session posts is in the name of its client.
theorem Vouched.username_eq (hv : s.Vouched letters) (hi : s.sessions[i]? = some c) (hm : (some i, e) ∈ letters)
    (hc : e.command = .post p) : p.notice.username = c.identity.name := by
  obtain ⟨v, who, hcard, hsigns⟩ := hv.signed i e hm
  rw [getElem?_cards, hi] at hcard
  cases hcard
  obtain ⟨r, hr, ha⟩ := hsigns.exists_of_isRequest (hc ▸ trivial)
  exact (hr.isRequestOf (ha.trans (congrArg some hc))).2.username

section Holder

variable (h : s.Filed letters) (hp : s.Proper (letters.map (·.2))) (hv : s.Vouched letters)
  (hi : s.sessions[i]? = some c) (hm : letters[s.desk.handled]? = some (some i, e)) (he : e.command.IsRequest)

include h hp hv hi hm he

theorem holder_iff : s.Holder letters i c v k ↔
    s.desk.exchange.roster.lookup c.identity.name = some v ∧ s.desk.exchange.address v = some k := by
  obtain ⟨n, hn, hfiled⟩ := h.exists_isFiled hi hm he
  have hroster := hp.books.roster
  have hself {entry : Entry} (he : s.desk.exchange.roster.entry? c.id = some entry) :
      entry.identity = c.identity ∧ entry.mailbox = c.mailbox := by
    have hid := (hv.roster c.id entry he).eq_of_session hp (List.mem_of_getElem? hi)
    obtain ⟨n', hn'⟩ := h.roster c.id entry he
    exact ⟨hid, hfiled.mailbox_eq hn' hn (congrArg Identity.name hid)⟩
  constructor
  case mp =>
    intro hk
    cases hk
    case self hlive =>
      obtain ⟨entry, he⟩ := Roster.isLive_iff.mp hlive
      obtain ⟨hid, hmailbox⟩ := hself he
      refine ⟨hid ▸ hroster.lookup_name he, ?_⟩
      rw [Exchange.address, he, Option.map_some, hmailbox]
    case heir entry _ _ _ _ _ hname _ _ _ _ he _ =>
      refine ⟨hname ▸ hroster.lookup_name he, ?_⟩
      rw [Exchange.address, he, Option.map_some]
  case mpr =>
    rintro ⟨hl, ha⟩
    obtain ⟨entry, he, hname⟩ := hroster.lookup_eq_some_iff.mp hl
    obtain rfl : entry.mailbox = k := by
      rw [Exchange.address, he, Option.map_some] at ha
      exact Option.some.inj ha
    by_cases hlive : s.desk.exchange.roster.IsLive c.id
    case pos =>
      obtain ⟨entry', he'⟩ := Roster.isLive_iff.mp hlive
      obtain ⟨hid, hmailbox⟩ := hself he'
      obtain rfl : c.id = v := hroster.name_inj he' he (hid ▸ hname.symm)
      cases he.symm.trans he'
      exact hmailbox ▸ .self hlive
    case neg =>
      obtain ⟨n', hn'⟩ := h.roster v entry he
      obtain ⟨m', e', hm', hr⟩ := hn'.letter
      have hne : n ≠ n' := by
        rintro rfl
        cases hfiled.letter.symm.trans hm'
        obtain rfl : c.id = v := congrArg Registration.id (Command.register.inj hr)
        exact hlive (.of_some he)
      have hlt : n < n' := Nat.lt_of_le_of_ne (hfiled.le_of_entry hn' hn hname) hne
      exact .heir hlive he hname hfiled.letter hm' hr hlt hn'.past

theorem complaints_of_holder (hc : e.command = .post p) (hn : s.desk.exchange.IsLost p name)
    (hk : s.Holder letters i c v k) (hroom : 0 < s.desk.exchange.vacancy v) :
    s.desk.exchange.complaints k (s.desk.exchange.journal l (.post p)) =
      [(Notice.error s.desk.exchange.supply.stamp (Exchange.offlineMessage name)).withRecipient name] := by
  have ⟨hl, ha⟩ := (holder_iff h hp hv hi hm he).mp hk
  rw [Exchange.complaints_of_lost hp.books.roster hn, hv.username_eq hi (List.mem_of_getElem? hm) hc]
  simp only [hl]
  exact if_pos ⟨ha, hroom⟩

end Holder

-- What is handled next, if that is what someone has posted.
theorem stepDesk_post (hp : s.Proper (letters.map (·.2))) (hm : letters[s.desk.handled]? = some (m, e))
    (hc : e.command = .post p) (hs : s.desk.shutdownAt = none) (ht : s.stepDesk l = some t) :
    t.queue k =
      s.queue k ++ (s.desk.exchange.attempts (s.desk.exchange.journal l (.post p))).filterMap (·.enqueued? k) := by
  obtain ⟨⟨rs, d⟩, hd, rfl⟩ := Option.map_eq_some_iff.mp ht
  obtain ⟨hgo, hcases⟩ := Desk.step_eq_some hd
  have hhead : s.desk.backlog.head? = some e := by
    rw [← hp.books.backlog hgo, List.head?_drop, List.getElem?_map, hm, Option.map_some]
  have hnext : s.desk.next? = some (.post p) := by
    simp only [Desk.next?, hs, Option.isSome_none, Bool.false_eq_true, if_false, hhead, Option.map_some, hc]
  have hrs : rs = [] := by
    obtain ⟨e', _, hn, _, rfl, _⟩ | ⟨hn, _⟩ := hcases
    · rw [← Option.some.inj (hnext.symm.trans hn)]
      cases e'.caller <;> rfl
    · cases hnext.symm.trans hn
  subst hrs
  refine (Desk.queue_step hd).trans ?_
  rw [Desk.acts, hnext]
  rfl

-- Wherever a run leads in which the next errand is a message of a session for a user who is not online, whatever was
-- left at the desk and handled before: of those who have mailboxes, one at most has the name of whoever has sent it,
-- and if there is room, a complaint is put into the mailbox of that one, and none into any other.
theorem Run.complains_to_holder {farewell : String} {capacity : Nat} (run : Run (.new farewell capacity) s)
    (hi : s.sessions[i]? = some c) (hm : run.letters[s.desk.handled]? = some (some i, e)) (hc : e.command = .post p)
    (hn : s.desk.exchange.IsLost p name) (hs : s.desk.shutdownAt = none) (ht : s.stepDesk l = some t) :
    (∀ v k v' k', s.Holder run.letters i c v k → s.Holder run.letters i c v' k' → v' = v ∧ k' = k) ∧
      ∃ complaint : Notice, complaint.kind = .error ∧ complaint.recipient = some name ∧
        complaint.content = some (Exchange.offlineMessage name) ∧
        ∀ k, ∃ ns, t.queue k = s.queue k ++ ns ∧
          (∀ v, s.Holder run.letters i c v k → 0 < s.desk.exchange.vacancy v →
            ns.filter (·.kind = .error) = [complaint]) ∧
          ((∀ v, s.Holder run.letters i c v k → s.desk.exchange.vacancy v = 0) →
            ns.filter (·.kind = .error) = []) := by
  obtain ⟨hp, hv⟩ := run.vouched proper_new vouched_new
  have hf := run.filed proper_new vouched_new filed_new
  have he : e.command.IsRequest := hc ▸ trivial
  have hholder {v : ConnectionId} {k : Nat} := holder_iff (v := v) (k := k) hf hp hv hi hm he
  refine ⟨fun v k v' k' h h' => ?unique, (Notice.error s.desk.exchange.supply.stamp _).withRecipient name, rfl, rfl,
    rfl, fun k => ⟨_, stepDesk_post hp hm hc hs ht, fun v hk hroom => ?told, fun hk => ?untold⟩⟩
  case unique =>
    have ⟨hl, ha⟩ := hholder.mp h
    have ⟨hl', ha'⟩ := hholder.mp h'
    obtain rfl := Option.some.inj (hl.symm.trans hl')
    exact ⟨rfl, Option.some.inj (ha'.symm.trans ha)⟩
  case told => exact complaints_of_holder hf hp hv hi hm he hc hn hk hroom
  case untold =>
    refine (Exchange.complaints_of_lost hp.books.roster hn).trans ?_
    rw [hv.username_eq hi (List.mem_of_getElem? hm) hc]
    cases hl : s.desk.exchange.roster.lookup c.identity.name
    case none => rfl
    case some v => exact if_neg fun ⟨ha, hroom⟩ => Nat.ne_of_gt hroom (hk v (hholder.mpr ⟨hl, ha⟩))

-- Ann has something to say to Bob, who is not there; before it is handled she comes a second time.
theorem exists_rivals :
    ∃ (s t : Service) (run : Run (.new "bye") s) (c : Session) (e : Errand) (p : Post),
      s.sessions[0]? = some c ∧ run.letters[s.desk.handled]? = some (some 0, e) ∧ e.command = .post p ∧
        s.desk.exchange.IsLost p "bob" ∧ s.desk.shutdownAt = none ∧ s.stepDesk .ascending = some t ∧
        ¬ s.desk.exchange.roster.IsLive c.id ∧ c.mailbox = 0 ∧ s.Holder run.letters 0 c ⟨2⟩ 1 ∧
        0 < s.desk.exchange.vacancy ⟨2⟩ := by
  let ann : Identity := ⟨7, "ann"⟩
  let q : Request := ⟨"private_message", some "hi", none, some "bob"⟩
  let limits := Session.Limits.default
  let link := Session.Link.new 8
  let link₁ : Session.Link := { link with inbound := link.inbound.send (.text q.text) }
  let begun₁ : Session := .new ⟨1⟩ ann limits 0 link₁
  let c₂ : Session := .new ⟨2⟩ ann limits 1 link
  let registration₁ : Command := .register ⟨⟨1⟩, ⟨7, "ann"⟩, 0⟩
  let registration₂ : Command := .register ⟨⟨2⟩, ⟨7, "ann"⟩, 1⟩
  let x := Exchange.empty.openMailbox 0 256
  let x₁ := x.perform .ascending registration₁
  let x₂ := x₁.openMailbox 1 256
  let n := ((Notice.about x₂.supply.stamp .chatMessage ann).withContent "hi").withRecipient "bob"
  let said : Command := .post (.toUser "bob" n)
  let lent := { x₂ with supply := x₂.supply.next }.changeMailbox 0 Mailbox.lend
  let offered := lent.changeMailbox 0 (·.reply n)
  let x₃ := offered.changeMailbox 0 Mailbox.giveBack
  let x₄ := x₃.perform .ascending registration₂
  let c : Session := begun₁.welcome.serve x₁.supply.now
  let spoken : Session := { c with link := { link₁ with inbound := (Pipe.new 8) } }
  let service (x : Exchange) (backlog : List Errand) (handled mailboxes : Nat) (cs : List Session) : Service :=
    ⟨⟨x, Desk.defaultCapacity, backlog, handled, none, false, "bye"⟩, cs, mailboxes, true, []⟩
  let letter₁ : Errand := ⟨registration₁, some (.session 0)⟩
  let letter₂ : Errand := ⟨registration₂, some (.session 1)⟩
  let s₁ := service x [letter₁] 0 1 [begun₁]
  let s₂ := service x₁ [] 1 1 [begun₁.welcome]
  let s₃ := service x₁ [] 1 1 [c]
  let s₄ := service x₂ [letter₂] 1 2 [c, c₂]
  let s₅ := service lent [letter₂] 1 2 [spoken.sendFromReader (.answering (some n) (some said)), c₂]
  let u₅ := service offered [letter₂] 1 2 [spoken.sendFromReader (.answering none (some said)), c₂]
  let v₅ := service x₃ [letter₂] 1 2 [spoken.sendFromReader (.carrying said), c₂]
  let s₆ := service x₃ [letter₂, ⟨said, none⟩] 1 2 [spoken.sendFromReader (.waiting 2), c₂]
  let s₇ := service x₄ [⟨said, none⟩] 2 2 [spoken.sendFromReader (.waiting 2), c₂.welcome]
  have h₁ : x.handle .ascending registration₁ = x₁ := Exchange.handle_eq_perform (by decide)
  have h₂ : x₃.handle .ascending registration₂ = x₄ := Exchange.handle_eq_perform (by decide)
  have hd₁ : s₁.stepDesk .ascending = some s₂ :=
    congrArg (fun y => some (service y [] 1 1 [begun₁.welcome])) h₁
  have hd₇ : s₆.stepDesk .ascending = some s₇ :=
    congrArg (fun y => some (service y [⟨said, none⟩] 2 2 [spoken.sendFromReader (.waiting 2), c₂.welcome])) h₂
  have hnew₁ : IsNew (.new "bye") ⟨1⟩ := ⟨by decide, List.forall_mem_nil _, List.forall_mem_nil _⟩
  have hnew₂ : s₃.IsNew ⟨2⟩ := ⟨by decide, List.forall_mem_nil _, by decide⟩
  have hread : s₄.stepRead 0 = some s₅ := by
    have hq : (Frame.text q.text).reading? = some (.ok q) := congrArg some Request.represents_text.ofText_eq
    rw [stepRead_eq (c := c) rfl ⟨rfl, rfl⟩ rfl hq (by decide)]
    rfl
  let run₁ : Run (.new "bye") s₁ := .step .refl (.connect ⟨1⟩ ann limits link₁ hnew₁)
  let run₂ : Run (.new "bye") s₂ := .step run₁ (.desk .ascending hd₁)
  let run₃ : Run (.new "bye") s₃ := .step run₂ (.session 0 .serve rfl)
  let run₄ : Run (.new "bye") s₄ := .step run₃ (.connect ⟨2⟩ ann limits link hnew₂)
  let run₅ : Run (.new "bye") s₅ := .step run₄ (.session 0 .read hread)
  let toOffered : Run (.new "bye") u₅ := .step run₅ (.session 0 .courier rfl)
  let toReturned : Run (.new "bye") v₅ := .step toOffered (.session 0 .courier rfl)
  let run₆ : Run (.new "bye") s₆ := .step toReturned (.session 0 .courier rfl)
  let run₇ : Run (.new "bye") s₇ := .step run₆ (.desk .ascending hd₇)
  have hann : (x₄.roster.entry? ⟨2⟩).map (fun e => (e.identity, e.mailbox)) = some (ann, 1) := by decide
  obtain ⟨entry, hlive, hentry⟩ := Option.map_eq_some_iff.mp hann
  have ⟨hid, hmailbox⟩ := Prod.mk.inj hentry
  have hgone : ¬ x₄.roster.IsLive ⟨1⟩ := by decide
  have hholder : s₇.Holder run₇.letters 0 (spoken.sendFromReader (.waiting 2)) ⟨2⟩ entry.mailbox :=
    .heir hgone hlive (congrArg Identity.name hid) (rfl : run₇.letters[0]? = _) (rfl : run₇.letters[1]? = _)
      (hid ▸ hmailbox ▸ rfl) (by decide) (by decide)
  exact ⟨s₇, _, run₇, _, ⟨said, none⟩, .toUser "bob" n, rfl, rfl, rfl, ⟨rfl, by decide⟩, rfl, rfl, hgone, rfl,
    hmailbox ▸ hholder, by decide⟩

-- It is Ann as she is now who is told.
theorem Run.complains_to_holder_rivals :
    ∃ (s t : Service) (run : Run (.new "bye") s) (c : Session) (ns : List Notice) (complaint : Notice),
      c.mailbox = 0 ∧ s.Holder run.letters 0 c ⟨2⟩ 1 ∧ t.queue 1 = s.queue 1 ++ ns ∧
        ns.filter (·.kind = .error) = [complaint] ∧
        complaint.content = some (Exchange.offlineMessage "bob") := by
  obtain ⟨s, t, run, c, e, p, hi, hm, hc, hn, hs, ht, _, hmailbox, hk, hroom⟩ := exists_rivals
  obtain ⟨_, complaint, _, _, hcontent, hall⟩ := run.complains_to_holder hi hm hc hn hs ht
  obtain ⟨ns, hq, htold, _⟩ := hall 1
  exact ⟨s, t, run, c, ns, complaint, hmailbox, hk, hq, htold ⟨2⟩ hk hroom, hcontent⟩

-- Not every complaint is for the mailbox of the session that has sent the message, or lost if its connection is gone.
theorem Run.not_complains_to_sender :
    ¬ ∀ (s t : Service) (run : Run (.new "bye") s) (l : Listing) (i : Nat) (c : Session) (e : Errand) (p : Post)
        (name : String), s.sessions[i]? = some c → run.letters[s.desk.handled]? = some (some i, e) →
      e.command = .post p → s.desk.exchange.IsLost p name → s.desk.shutdownAt = none → s.stepDesk l = some t →
      ∀ k, ∃ ns, t.queue k = s.queue k ++ ns ∧
        (k ≠ c.mailbox ∨ ¬ s.desk.exchange.roster.IsLive c.id → ∀ n ∈ ns, n.kind ≠ .error) := by
  intro h
  obtain ⟨s, t, run, c, e, p, hi, hm, hc, hn, hs, ht, hgone, _, hk, hroom⟩ := exists_rivals
  obtain ⟨ns, hq, hnone⟩ := h s t run .ascending 0 c e p "bob" hi hm hc hn hs ht 1
  obtain ⟨hp, hv⟩ := run.vouched proper_new vouched_new
  have hf := run.filed proper_new vouched_new filed_new
  have hone := complaints_of_holder (l := .ascending) hf hp hv hi hm (hc ▸ trivial) hc hn hk hroom
  have hns := List.append_cancel_left (hq.symm.trans (stepDesk_post hp hm hc hs ht))
  rw [Exchange.complaints, ← hns, List.filter_eq_nil_iff.mpr fun n hmem hkind => ?_] at hone
  · cases hone
  · exact hnone (.inr hgone) n hmem (of_decide_eq_true hkind)

end Service
end Parley
