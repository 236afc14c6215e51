import Parley.Proofs.Exchange.Eviction
import Parley.Proofs.Exchange.View
import Parley.Proofs.Session.Reaction

namespace Parley

open Std

namespace Exchange

variable {A : Exchange → Command → Prop} {x y : Exchange} {id v : ConnectionId} {e : Entry} {k : Nat}
  {l : Listing} {c : Command} {r : Registration} {name : String} {as bs : List Act} {n : Notice} {act : Act}

theorem online_eq (h : y.roster.directory = x.roster.directory) : y.online = x.online := by
  simp [online, Roster.onlineUsers, h]

theorem online_enter : (x.enter r).online = x.online.insert r.identity.name r.identity.user := by
  apply ExtTreeMap.ext_getElem?
  intro name
  rw [getElem?_online, enter_roster, ExtTreeMap.getElem?_insert, getElem?_online]
  simp only [Roster.insert, Directory.owner?_claim, LawfulEqCmp.compare_eq_iff_eq]
  split <;> rfl

theorem Sound.online_unregister (h : x.Sound) (he : x.roster.entry? id = some e) :
    (x.unregister l id).online = x.online.erase e.identity.name := by
  apply ExtTreeMap.ext_getElem?
  intro name
  rw [getElem?_online, unregister_roster, Roster.directory_remove he,
    Directory.owner?_release (h.roster.lookup_name he), ExtTreeMap.getElem?_erase, getElem?_online]
  simp only [LawfulEqCmp.compare_eq_iff_eq]
  split <;> rfl

-- A connection that knows who is online before some acts can tell from what it is offered who is after them.
def Informs (x : Exchange) (v : ConnectionId) (as : List Act) : Prop :=
  (x.offered v as).foldl View.hear x.online = (x.replay as).online

-- Notices that are not about who is online.
def Neutral (_ : Bool) (n : Notice) : Prop :=
  n.kind ≠ .userConnected ∧ n.kind ≠ .userDisconnected

theorem neutral_of_isOfServer (n : Notice) (h : n.IsOfServer) : Neutral true n :=
  ⟨h.kind_ne id, h.kind_ne id⟩

theorem Informs.append (h : Informs x v as) (h' : Informs (x.replay as) v bs) : Informs x v (as ++ bs) := by
  rw [Informs, offered_append, replay_append, List.foldl_append, h, h']

theorem Says.directory_replay {P : Bool → Notice → Prop} (h : Says P as) :
    (x.replay as).roster.directory = x.roster.directory := by
  induction as generalizing x
  case nil => rfl
  case cons act as hi =>
    have ⟨ha, has⟩ := List.forall_mem_cons.mp h
    have hd : (act.apply x).roster.directory = x.roster.directory := by
      cases act
      case issue => rfl
      case offer => exact congrArg _ (offer_roster ..)
      case join => exact Roster.directory_join
      case leave => exact Roster.directory_leave
      case enter | retire | strike => exact ha.elim
    exact (hi has).trans hd

theorem Says.informs (h : Says Neutral as) : Informs x v as := by
  rw [Informs, online_eq h.directory_replay]
  refine View.foldl_hear_of_kind fun n hm => ?_
  have ⟨own, hm⟩ := offer_mem_of_mem_offered hm
  exact h _ hm

-- Whoever stays is told of the one who goes.
theorem Sound.offered_unregister (h : x.Sound) (he : x.roster.entry? id = some e) (hv : x.roster.IsLive v)
    (hn : id ≠ v) : x.offered v (Acts.unregister x l id) = [farewell x.supply.stamp e.identity] := by
  have hq : x.offered v [.retire id, .issue] = [] := rfl
  have hm : v ∈ x.mourners l id := mem_mourners.mpr ⟨hn, hv⟩
  rw [acts_unregister_eq h.roster he, offered_append, replay_retire he, hq,
    offered_offers nodup_mourners fun _ => isLive_of_mem_mourners, if_pos hm]
  rfl

theorem Sound.informs_unregister (h : x.Sound) (hv : x.roster.IsLive v) (hn : id ≠ v) :
    Informs x v (Acts.unregister x l id) := by
  cases he : x.roster.entry? id
  case none => simp [Acts.unregister, he, Informs, offered, attempts, replay]
  case some e =>
    rw [Informs, replay_unregister, h.offered_unregister he hv hn, h.online_unregister he]
    rfl

theorem Sound.informs_displace (h : x.Sound) (hv : (x.displace l name).roster.IsLive v) :
    Informs x v (Acts.displace x l name) := by
  simp only [Acts.displace, Exchange.displace] at hv ⊢
  cases hl : x.roster.lookup name
  case none => rfl
  case some old =>
    simp only [hl, unregister_roster, Roster.isLive_remove] at hv
    exact h.informs_unregister hv.2 hv.1

theorem offered_tell {make : Notice.Stamp → Notice} (hl : x.roster.IsLive id) :
    x.offered v (Acts.tell x id make) = if v = id then [make x.supply.stamp] else [] := by
  have ho : Exchange.offered (Act.apply x .issue) v ([id].map (.offer true (make x.supply.stamp))) =
      if v ∈ [id] then [make x.supply.stamp] else [] :=
    offered_offers (List.pairwise_singleton ..) fun _ hm => List.mem_singleton.mp hm ▸ hl
  simp only [List.mem_singleton] at ho
  exact ho

-- An announcement to everyone reaches everyone but the one whom it is about.
theorem offered_announce {who : Identity} {make : Notice.Stamp → Notice}
    (hn : x.roster.lookup who.name = some id) (hv : x.roster.IsLive v) :
    x.offered v (Acts.announce x l who .everyone true make) =
      if v = id then [] else [make x.supply.stamp] := by
  let y := (x.issue make).2
  let p : Post := ⟨make x.supply.stamp, .everyone, some who.name⟩
  have hm : v ∈ y.recipients l p y.roster.ids ↔ v ≠ id := by
    have hx : y.excepted? p = some id := hn
    rw [mem_recipients, hx, Roster.mem_ids]
    simp only [ne_eq, Option.some.injEq, and_iff_right_iff_imp]
    exact fun _ => hv
  have ho : y.offered v ((y.recipients l p y.roster.ids).map (.offer true p.notice)) =
      if v ∈ y.recipients l p y.roster.ids then [p.notice] else [] :=
    offered_offers (nodup_recipients Roster.nodup_ids) fun _ hm => Roster.mem_ids.mp (mem_recipients.mp hm).1
  simp only [hm, ne_eq, ite_not] at ho
  exact ho

section Welcome

variable (hl : x.roster.IsLive r.id) (hn : x.roster.lookup r.identity.name = some r.id)

include hl hn

-- A newcomer is greeted, and gets the list of those who are online.
theorem offered_welcome_self :
    ∃ n s, n.kind = .system ∧
      x.offered r.id (Acts.welcome x l r) = [n, Notice.onlineUsers s x.roster.onlineUsers] := by
  let y := x.tell r.id fun s => Notice.system s s!"Welcome to the chat, {r.identity.name}!"
  have hy : y.roster = x.roster := tell_roster
  let z := y.tell r.id fun s => Notice.onlineUsers s y.roster.onlineUsers
  have hz : z.roster = x.roster := tell_roster.trans hy
  let greeting := Notice.system x.supply.stamp s!"Welcome to the chat, {r.identity.name}!"
  refine ⟨greeting, y.supply.stamp, rfl, ?_⟩
  simp only [Acts.welcome, offered_append, replay_append, replay_tell]
  rw [offered_tell hl, if_pos rfl, offered_tell (hy ▸ hl), if_pos rfl,
    offered_announce (x := z) (hz ▸ hn) (hz ▸ hl), if_pos rfl, hy]
  rfl

-- Everyone else is told of the newcomer.
theorem offered_welcome (hv : x.roster.IsLive v) (hne : v ≠ r.id) :
    ∃ n, n.kind = .userConnected ∧ n.identity? = some r.identity ∧
      x.offered v (Acts.welcome x l r) = [n] := by
  let y := x.tell r.id fun s => Notice.system s s!"Welcome to the chat, {r.identity.name}!"
  have hy : y.roster = x.roster := tell_roster
  let z := y.tell r.id fun s => Notice.onlineUsers s y.roster.onlineUsers
  have hz : z.roster = x.roster := tell_roster.trans hy
  let news := Notice.about z.supply.stamp .userConnected r.identity
  refine ⟨news.withContent s!"{r.identity.name} connected", rfl, rfl, ?_⟩
  simp only [Acts.welcome, offered_append, replay_append, replay_tell]
  rw [offered_tell hl, if_neg hne, offered_tell (hy ▸ hl), if_neg hne,
    offered_announce (x := z) (hz ▸ hn) (hz ▸ hv), if_neg hne]
  rfl

end Welcome

-- Posts of those kinds that connections make.
def IsSpeech (p : Post) : Prop :=
  p.notice.kind = .chatMessage ∨ p.notice.kind = .typing

-- The state in which a newcomer has just been entered.
def admitted (x : Exchange) (l : Listing) (r : Registration) : Exchange :=
  (x.displace l r.identity.name).enter r

theorem register_acts_eq :
    Acts.register x l r = Acts.displace x l r.identity.name ++
      ([.enter r] ++ Acts.welcome (x.admitted l r) l r) := by
  simp only [Acts.register, replay_append, replay_displace, List.append_assoc]
  rfl

theorem online_admitted_welcome :
    ((x.admitted l r).replay (Acts.welcome (x.admitted l r) l r)).online = (x.admitted l r).online := by
  have hw : Says (fun _ _ => True) (Acts.welcome (x.admitted l r) l r) :=
    says_welcome (fun _ _ => trivial) fun _ _ _ => trivial
  exact online_eq hw.directory_replay

theorem entry?_admitted :
    (x.admitted l r).roster.entry? r.id = some ⟨r.identity, r.mailbox, ∅⟩ := by
  rw [Exchange.admitted, enter_roster, Roster.entry?_insert, if_pos rfl]

namespace Sound

theorem admitted (h : x.Sound) (hr : x.Newcomer r) : (x.admitted l r).Sound :=
  h.displace.enter (h.newcomer_displace hr) h.lookup_displace

-- Whoever is there before and after someone comes is there all the time.
theorem isLive_displace (hr : x.Newcomer r) (hl : x.roster.IsLive v)
    (hv : (x.perform l (.register r)).roster.IsLive v) : (x.displace l r.identity.name).roster.IsLive v := by
  rw [perform_roster, nextRoster, Roster.isLive_insert] at hv
  rw [displace_roster]
  exact hv.resolve_left fun heq => hr.fresh (heq ▸ hl)

theorem informs_register (h : x.Sound) (hr : x.Newcomer r) (hl : x.roster.IsLive v)
    (hv : (x.perform l (.register r)).roster.IsLive v) : Informs x v (Acts.register x l r) := by
  have hne : v ≠ r.id := fun heq => hr.fresh (heq ▸ hl)
  have hd := isLive_displace hr hl hv
  rw [register_acts_eq]
  refine (h.informs_displace hd).append ?_
  rw [replay_displace]
  have he : (x.admitted l r).roster.entry? r.id = some ⟨r.identity, r.mailbox, ∅⟩ := entry?_admitted
  obtain ⟨n, hk, hi, ho⟩ := offered_welcome (l := l) (.of_some he) ((h.admitted hr).roster.lookup_name he)
    (by rw [Exchange.admitted, enter_roster, Roster.isLive_insert]; exact .inr hd) hne
  let as := Acts.welcome (x.admitted l r) l r
  change ((x.admitted l r).offered v as).foldl View.hear (x.displace l r.identity.name).online =
    ((x.admitted l r).replay as).online
  rw [ho, online_admitted_welcome, Exchange.admitted, online_enter]
  simp [View.hear, hk, hi]

theorem informs_perform (h : x.Sound) (ha : x.Allows c) (hp : ∀ p, c = .post p → IsSpeech p)
    (hl : x.roster.IsLive v) (hv : (x.perform l c).roster.IsLive v) : Informs x v (Acts.perform x l c) := by
  cases c
  case register => exact h.informs_register ha hl hv
  case unregister id =>
    rw [perform_roster, nextRoster, Roster.isLive_remove] at hv
    exact h.informs_unregister hl hv.1
  case post p =>
    have hn : Neutral false p.notice := by
      cases hp p rfl
      case inl hk => simp [Neutral, hk]
      case inr hk => simp [Neutral, hk]
    exact (says_post hn neutral_of_isOfServer).informs
  case join =>
    refine (says_join neutral_of_isOfServer fun _ _ _ hk _ => ?_).informs
    rcases hk with hk | hk <;> simp [Neutral, hk]
  case leave =>
    refine (says_leave neutral_of_isOfServer fun _ _ _ hk _ => ?_).informs
    rcases hk with hk | hk <;> simp [Neutral, hk]
  case query => rfl

end Sound

theorem Cascade.informs_acts (c : Cascade l x) (h : x.Sound) (hl : x.roster.IsLive v)
    (hn : v ∉ c.evicted) : Informs x v c.acts := by
  induction c
  case rest => rfl
  case pass x id doomed hd hl' c hi =>
    have hi : Informs (Act.apply x (.strike false)) v c.acts := by
      rw [apply_pass hd]
      exact hi (h.of_writable? rfl fun _ _ _ => rfl) hl hn
    exact hi
  case evict x id doomed e hd he c hi =>
    simp only [evicted, List.mem_cons, not_or] at hn
    have hne := Ne.symm hn.1
    have hu : Informs (x.struck doomed) v (Acts.unregister (x.struck doomed) l id) :=
      h.strike.informs_unregister hl hne
    have hi : Informs ((x.struck doomed).replay (Acts.unregister (x.struck doomed) l id)) v c.acts := by
      rw [replay_unregister]
      exact hi h.evict (isLive_evict.mpr ⟨hne, hl⟩) hn.2
    have hi : Informs (Act.apply x (.strike true)) v
        (Acts.unregister (x.struck doomed) l id ++ c.acts) := by
      rw [apply_evict hd]
      exact hu.append hi
    exact hi

namespace Sound

-- Whoever stays hears of everyone who comes or goes.
theorem informs_journal (h : x.Sound) (ha : x.Allows c) (hp : ∀ p, c = .post p → IsSpeech p)
    (hl : x.roster.IsLive v) (hv : (x.handle l c).roster.IsLive v) : Informs x v (x.journal l c) := by
  have ⟨hn, hv⟩ := isLive_handle.mp hv
  refine (h.informs_perform ha hp hl hv).append ?_
  rw [replay_perform]
  exact Cascade.informs_acts _ (h.perform ha) hv hn

theorem queue_admitted (h : x.Sound) (hr : x.Newcomer r) :
    (x.admitted l r).queue r.mailbox = x.queue r.mailbox := by
  have he : (x.admitted l r).queue r.mailbox = (x.displace l r.identity.name).queue r.mailbox := by
    change (Act.apply _ (.enter r)).queue _ = _
    rw [queue_apply]
    exact List.append_nil _
  obtain hd | ⟨old, hl, hd⟩ := displace_eq x l r.identity.name
  case inl => rw [he, hd]
  case inr =>
    have ⟨e, ho, _⟩ := h.roster.lookup_eq_some_iff.mp hl
    rw [he, hd, h.queue_unregister_of_free ho fun v e' _ => hr.own v e']

-- A newcomer that stays has been given the list of those who were online, and hears of everyone who comes or
-- goes since.
theorem handle_register (h : x.Sound) (hd : x.doomed = []) (hr : x.Newcomer r)
    (hv : (x.handle l (.register r)).roster.IsLive r.id) :
    ∃ ns, (x.handle l (.register r)).address r.id = some r.mailbox ∧
      (x.handle l (.register r)).queue r.mailbox = x.queue r.mailbox ++ ns ∧
      View.replay? ns = some (x.handle l (.register r)).online := by
  let z := x.admitted l r
  let cs := cascade l (x.perform l (.register r))
  have he : z.roster.entry? r.id = some ⟨r.identity, r.mailbox, ∅⟩ := entry?_admitted
  have hz : z.Sound := h.admitted hr
  have hj : x.journal l (.register r) =
      (Acts.displace x l r.identity.name ++ [.enter r]) ++ (Acts.welcome z l r ++ cs.acts) := by
    simp only [journal, Acts.perform, register_acts_eq, List.append_assoc]
    rfl
  have hxz : x.replay (Acts.displace x l r.identity.name ++ [.enter r]) = z := by
    rw [replay_append, replay_displace]
    rfl
  have hwp : z.replay (Acts.welcome z l r) = x.perform l (.register r) := by
    rw [← replay_perform, Acts.perform, register_acts_eq, ← List.append_assoc, replay_append, hxz]
  have hzy : z.replay (Acts.welcome z l r ++ cs.acts) = x.handle l (.register r) := by
    rw [replay_append, hwp, cs.replay_acts, cs.last_eq_settle, Exchange.handle]
  have hn : r.id ∉ cs.evicted := (isLive_handle.mp hv).1
  have ho : z.Owns r.id r.mailbox := hz.owns he
  have hs : Spares r.id r.mailbox (Acts.welcome z l r ++ cs.acts) := by
    have hw : Says (fun _ _ => True) (Acts.welcome z l r) :=
      says_welcome (fun _ _ => trivial) fun _ _ _ => trivial
    refine spares_append.mpr ⟨hw.spares, fun hm => hn (cs.retire_mem_acts hm), fun _ hm => ?_⟩
    exact absurd hm cs.enter_not_mem_acts
  have hacc : ∀ a ∈ z.attempts (Acts.welcome z l r ++ cs.acts), a.recipient = r.id →
      a.outcome = .accepted := by
    intro a hm hrec
    refine accepted_of_isLive_handle hd (hrec ▸ hv) ?_
    rw [hj, attempts_append, hxz]
    exact List.mem_append_right _ hm
  have hq := ho.queue_replay hs hacc
  have ha := (ho.replay hs r.id).mpr rfl
  rw [hzy] at hq ha
  refine ⟨_, ha, hq.trans (congrArg (· ++ _) (h.queue_admitted hr)), ?_⟩
  -- The list comes second, and what follows is about those who are evicted.
  obtain ⟨n, s, hk, hw⟩ := offered_welcome_self (l := l) (.of_some he) (hz.roster.lookup_name he)
  have hc : Informs (x.perform l (.register r)) r.id cs.acts :=
    cs.informs_acts (h.perform hr) (isLive_handle.mp hv).2 hn
  have hp : (x.perform l (.register r)).online = z.online := hwp ▸ online_admitted_welcome
  rw [Informs, hp, cs.replay_acts, cs.last_eq_settle] at hc
  rw [offered_append, hw, hwp]
  change View.replay? (n :: Notice.onlineUsers s z.roster.onlineUsers :: _) = _
  rw [View.replay?_cons (by simp [hk]), View.replay?_onlineUsers]
  exact congrArg some hc

end Sound

-- Clients are answered with errors, with copies of what they said, and with pongs.
theorem kind_of_isReply (h : n.IsReply) : n.kind = .error ∨ n.kind = .chatMessage ∨ n.kind = .pong := by
  have ⟨_, _, _, _, h⟩ := h
  exact (Session.Reaction.reply_cases h).imp And.left And.left

theorem neutral_of_isReply (h : n.IsReply) : Neutral true n := by
  obtain hk | hk | hk := kind_of_isReply h <;> simp [Neutral, hk]

-- What was put into the mailbox of a connection by a step.
def enqueued (x y : Exchange) (id : ConnectionId) : List Notice :=
  match y.address id with
  | some k => (y.queue k).drop (x.queue k).length
  | none   => []

theorem enqueued_eq {ns : List Notice} (ha : y.address id = some k)
    (hq : y.queue k = x.queue k ++ ns) : enqueued x y id = ns := by
  simp [enqueued, ha, hq]

-- Between commands, a connection gets nothing but answers of its own session.
theorem enqueued_apply {i : Interlude} (h : x.Sound) (hp : x.Permits i) (hl : x.roster.IsLive id) :
    ∀ n ∈ enqueued x (i.apply x) id, n.IsReply := by
  have ⟨e, he⟩ := Roster.isLive_iff.mp hl
  have ha : (i.apply x).address id = some e.mailbox := by simp [address, apply_roster, he]
  simp only [enqueued, ha]
  have hnil (hq : ((i.apply x).queue e.mailbox).length ≤ (x.queue e.mailbox).length) :
      ∀ n ∈ ((i.apply x).queue e.mailbox).drop (x.queue e.mailbox).length, n.IsReply := by
    rw [List.drop_eq_nil_of_le hq]
    exact List.forall_mem_nil _
  cases i
  case prepare j capacity =>
    have hj : j ≠ e.mailbox := by
      rintro rfl
      have hw := h.held id e he
      simp [writable?, ExtTreeMap.getElem?_eq_none hp] at hw
    refine hnil <| Nat.le_of_eq ?_
    simp [Interlude.apply, openMailbox, queue, ExtTreeMap.getElem?_insert, hj]
  case reply j n =>
    obtain hq | hq := queue_reply_prefix (x := x) (n := n) (k := e.mailbox) (j := j)
    case inl => exact hnil <| Nat.le_of_eq (congrArg _ hq)
    case inr =>
      have hd : ((Interlude.reply j n).apply x).queue e.mailbox = x.queue e.mailbox ++ [n] := hq
      rw [hd, List.drop_left]
      exact List.forall_mem_singleton.mpr hp
  case lend =>
    exact hnil <| List.IsSuffix.length_le <| queue_changeMailbox_suffix fun m =>
      (congrArg Pipe.queue (Mailbox.pipe_lend (m := m))).symm ▸ List.suffix_rfl
  case take => exact hnil <| List.IsSuffix.length_le <| queue_changeMailbox_suffix fun _ => Mailbox.suffix_takeNotice
  case abandon => exact hnil <| List.IsSuffix.length_le <| queue_changeMailbox_suffix fun _ => List.nil_suffix
  case giveBack | cancel | release =>
    exact hnil <| List.IsSuffix.length_le <| queue_changeMailbox_suffix fun _ => List.suffix_rfl
  case issue | wait => exact hnil <| Nat.le_refl _

def Step.posts : Step A x y → List Post
  | .command _ (.post p) _ => [p]
  | _                      => []

-- Who is registered by a step.
def Step.admitted? : Step A x y → Option ConnectionId
  | .command _ (.register r) _ => some r.id
  | _                          => none

namespace Run

def posts {x y : Exchange} : Run A x y → List Post
  | refl       => []
  | step run s => run.posts ++ s.posts

-- What was put into the mailbox of a connection since it was registered.
def heard (id : ConnectionId) {x y : Exchange} : Run A x y → List Notice
  | refl => []
  | @step _ _ y z run s =>
    if s.admitted? = some id then enqueued y z id else run.heard id ++ enqueued y z id

theorem replay?_heard (run : Run Allows x y) (hx : x.Sound) (hd : x.doomed = [])
    (hn : ∀ id, ¬ x.roster.IsLive id) (hp : ∀ p ∈ run.posts, IsSpeech p) (hl : y.roster.IsLive id) :
    View.replay? (run.heard id) = some y.online := by
  induction run
  case refl => exact absurd hl (hn id)
  case step y z run s hi =>
    have hy := run.sound hx
    obtain ⟨hpr, hps⟩ := List.forall_mem_append.mp hp
    have hi := hi hpr
    cases s
    case between i hperm =>
      have hl' : y.roster.IsLive id := apply_roster i ▸ hl
      have ho : (i.apply y).online = y.online := online_eq (congrArg _ (apply_roster i))
      have hns n hm := neutral_of_isReply (enqueued_apply hy hperm hl' n hm)
      change View.replay? (run.heard id ++ enqueued y (i.apply y) id) = _
      rw [View.replay?_append (hi hl'), View.foldl_hear_of_kind hns, ho]
    case command l c ha =>
      have hdy := run.undoomed hd
      by_cases hr : (Step.command l c ha).admitted? = some id
      case pos =>
        cases c <;> simp only [Step.admitted?, reduceCtorEq, Option.some.injEq] at hr
        case register r =>
          subst hr
          obtain ⟨ns, hk, hq, hv⟩ := hy.handle_register hdy ha hl
          simp only [heard, Step.admitted?, if_true, enqueued_eq hk hq, hv]
      case neg =>
        -- Whoever is there without having come just now was there before.
        have hl' : y.roster.IsLive id := by
          have hs := ((isLive_perform hy.roster ha.admits).mp (isLive_handle.mp hl).2).2
          rw [Roster.isLive_iff]
          cases c
          case register r =>
            have hne : r.id ≠ id := fun heq => hr (congrArg some heq)
            simpa [identity?, hne, Option.isSome_iff_exists] using hs
          all_goals simpa [identity?, Option.isSome_iff_exists] using hs
        obtain ⟨e, he⟩ := Roster.isLive_iff.mp hl'
        have hpc : ∀ p, c = .post p → IsSpeech p := by
          rintro p rfl
          exact hps p (List.mem_singleton_self p)
        obtain ⟨hk, hq⟩ := hy.queue_handle hdy ha he hl
        have hj := hy.informs_journal ha hpc hl' hl
        rw [Informs, replay_journal] at hj
        simp only [heard, if_neg hr, enqueued_eq hk hq, View.replay?_append (hi hl'), hj]

-- As long as connections post nothing but what they say, whoever is there can tell who is online.
theorem online_heard (run : Run Allows .empty x) (hp : ∀ p ∈ run.posts, IsSpeech p)
    (hl : x.roster.IsLive id) : View.replay? (run.heard id) = some x.online :=
  run.replay?_heard sound_empty rfl (fun _ => ExtTreeMap.not_mem_empty) hp hl

-- Ann has been told that Bob came and that he has gone, and takes no notice of what he said in between.
theorem online_heard_of_visit :
    let ann : Registration := ⟨⟨1⟩, ⟨7, "ann"⟩, 0⟩
    let bob : Registration := ⟨⟨2⟩, ⟨8, "bob"⟩, 1⟩
    let hello : Post := .toEveryone <| Notice.about ⟨"0", .epoch⟩ .chatMessage bob.identity
    let x := (Interlude.prepare 1 8).apply ((Interlude.prepare 0 8).apply .empty)
    let y := ((x.handle .ascending (.register ann)).handle .ascending (.register bob)).handle .ascending (.post hello)
    let z := y.handle .ascending (.unregister bob.id)
    ∃ run : Run Allows .empty z, run.posts = [hello] ∧ z.roster.IsLive ann.id ∧
      (run.heard ann.id).map (·.kind) =
        [.system, .onlineUsers, .userConnected, .chatMessage, .userDisconnected] ∧
      View.replay? (run.heard ann.id) = some z.online := by
  intro ann bob hello x y z
  let x₁ := x.perform .ascending (.register ann)
  let x₂ := x₁.perform .ascending (.register bob)
  let x₃ := x₂.perform .ascending (.post hello)
  let x₄ := x₃.perform .ascending (.unregister bob.id)
  have h₁ : x.handle .ascending (.register ann) = x₁ := handle_eq_perform (by decide)
  have h₂ : x₁.handle .ascending (.register bob) = x₂ := handle_eq_perform (by decide)
  have h₃ : x₂.handle .ascending (.post hello) = x₃ := handle_eq_perform (by decide)
  have h₄ : x₃.handle .ascending (.unregister bob.id) = x₄ := handle_eq_perform (by decide)
  have hx : x.Allows (.register ann) := newcomer_first (fun _ => ExtTreeMap.not_mem_empty) (by decide)
  have hb : x₁.Allows (.register bob) :=
    newcomer_second (fun _ => ExtTreeMap.not_mem_empty) (by decide) (by decide) (by decide)
  have hp : 1 ∉ ((Interlude.prepare 0 8).apply empty).mailboxes := by decide
  let run : Run Allows .empty z :=
    .step (.step (.step (.step (.step (.step .refl (.between (.prepare 0 8) ExtTreeMap.not_mem_empty))
      (.between (.prepare 1 8) hp)) (.command .ascending (.register ann) hx))
      (.command .ascending (.register bob) (h₁ ▸ hb))) (.command .ascending (.post hello) trivial))
      (.command .ascending (.unregister bob.id) trivial)
  have hposts : ∀ p ∈ run.posts, IsSpeech p := List.forall_mem_singleton.mpr (.inl rfl)
  have hl : z.roster.IsLive ann.id := by
    simp only [z, y, h₁, h₂, h₃, h₄]
    decide
  have hk : (run.heard ann.id).map (·.kind) =
      [.system, .onlineUsers, .userConnected, .chatMessage, .userDisconnected] := by
    have hh : run.heard ann.id = enqueued x (x.handle .ascending (.register ann)) ann.id ++
        enqueued (x.handle .ascending (.register ann))
          ((x.handle .ascending (.register ann)).handle .ascending (.register bob)) ann.id ++
        enqueued ((x.handle .ascending (.register ann)).handle .ascending (.register bob)) y ann.id ++
        enqueued y z ann.id := rfl
    rw [hh]
    simp only [z, y, h₁, h₂, h₃, h₄]
    decide +kernel
  exact ⟨run, rfl, hl, hk, run.online_heard hposts hl⟩

end Run

end Exchange
end Parley
