import Parley.Proofs.Exchange.Act
import Parley.Proofs.Exchange.Command
import Parley.Proofs.Message.Voice

namespace Parley

open Std

namespace Exchange

namespace Acts

def tell (x : Exchange) (id : ConnectionId) (make : Notice.Stamp → Notice) : List Act :=
  [.issue, .offer true (make x.supply.stamp) id]

def post (x : Exchange) (own : Bool) (l : Listing) (p : Post) : List Act :=
  match x.audience? p.effectiveAudience, p.effectiveAudience with
  | some ids, _ => (x.recipients l p ids).map (.offer own p.notice)
  | none, .user name =>
    match x.roster.lookup p.notice.username with
    | some origin =>
      tell x origin fun s => (Notice.error s (offlineMessage name)).withRecipient name
    | none => []
  | none, _ => []

def announce (x : Exchange) (l : Listing) (who : Identity) (audience : Audience) (except : Bool)
    (make : Notice.Stamp → Notice) : List Act :=
  .issue ::
    post (x.issue make).2 true l
      ⟨make x.supply.stamp, audience, if except then some who.name else none⟩

def unregister (x : Exchange) (l : Listing) (id : ConnectionId) : List Act :=
  match x.roster.entry? id with
  | none => []
  | some e =>
    .retire id :: announce (x.retire id e) l e.identity .everyone true (farewell · e.identity)

def displace (x : Exchange) (l : Listing) (name : String) : List Act :=
  match x.roster.lookup name with
  | some old => unregister x l old
  | none => []

-- What follows once a newcomer has been entered.
def welcome (x : Exchange) (l : Listing) (r : Registration) : List Act :=
  let greeting := tell x r.id fun s => Notice.system s s!"Welcome to the chat, {r.identity.name}!"
  let y := x.replay greeting
  let list := tell y r.id fun s => Notice.onlineUsers s y.roster.onlineUsers
  let news := announce (y.replay list) l r.identity .everyone true fun s =>
    (Notice.about s .userConnected r.identity).withContent s!"{r.identity.name} connected"
  greeting ++ list ++ news

def register (x : Exchange) (l : Listing) (r : Registration) : List Act :=
  let entry := displace x l r.identity.name ++ [.enter r]
  entry ++ welcome (x.replay entry) l r

def join (x : Exchange) (l : Listing) (id : ConnectionId) (room : String) : List Act :=
  match x.roster.entry? id with
  | none => []
  | some e =>
    match RoomName.fault? room with
    | some f => tell x id fun s => Notice.error s f.message
    | none =>
      let y := Act.apply x (.join id room)
      let answer := tell y id fun s =>
        ((Notice.about s .roomJoined e.identity).withRoom room).withContent s!"You joined room {room}"
      let news :=
        match (x.roster.join id room).1 with
        | .joined =>
          announce (y.replay answer) l e.identity (.room room) true fun s =>
            ((Notice.about s .userJoined e.identity).withRoom room).withContent
              s!"{e.identity.name} joined the room"
        | _ => []
      .join id room :: (answer ++ news)

def leave (x : Exchange) (l : Listing) (id : ConnectionId) (room : String) : List Act :=
  match x.roster.entry? id with
  | none => []
  | some e =>
    match (x.roster.leave id room).1 with
    | .left remaining =>
      let y := Act.apply x (.leave id room)
      let answer := tell y id fun s =>
        ((Notice.about s .roomLeft e.identity).withRoom room).withContent s!"You left room {room}"
      let news :=
        if 0 < remaining then
          announce (y.replay answer) l e.identity (.room room) false fun s =>
            ((Notice.about s .userLeft e.identity).withRoom room).withContent
              s!"{e.identity.name} left the room"
        else []
      .leave id room :: (answer ++ news)
    | .notMember => tell x id fun s => Notice.error s s!"You are not in room {room}"
    | .unknownConnection => []

def perform (x : Exchange) (l : Listing) : Command → List Act
  | .register r    => register x l r
  | .unregister id => unregister x l id
  | .post p        => post x false l p
  | .join id room  => join x l id room
  | .leave id room => leave x l id room
  | .query _       => []

end Acts

-- The acts of a cascade.
def Cascade.acts {l : Listing} {x : Exchange} : Cascade l x → List Act
  | rest _ => []
  | pass _ _ c => .strike false :: c.acts
  | @evict _ x id doomed _ _ _ c =>
    .strike true :: (Acts.unregister (x.struck doomed) l id ++ c.acts)

-- The acts of a command, and of the evictions that follow.
def journal (x : Exchange) (l : Listing) (c : Command) : List Act :=
  Acts.perform x l c ++ (cascade l (x.perform l c)).acts

variable {x : Exchange} {id : ConnectionId} {l : Listing} {p : Post} {c : Command} {r : Registration}
  {name room : String} {make : Notice.Stamp → Notice} {who : Identity} {a : Audience} {except own : Bool}

theorem replay_tell : x.replay (Acts.tell x id make) = x.tell id make :=
  rfl

theorem replay_post : x.replay (Acts.post x own l p) = x.post l p := by
  cases ha : x.audience? p.effectiveAudience
  case some ids => simp [Acts.post, post_eq_offerAll ha, ha, replay_offers]
  case none =>
    cases hu : p.effectiveAudience
    case everyone => rw [hu] at ha; cases ha
    case room => simp [Acts.post, post, hu ▸ ha, hu, replay]
    case user name =>
      rw [hu] at ha
      simp only [Acts.post, post, hu, ha]
      cases x.roster.lookup p.notice.username <;> rfl

theorem replay_announce :
    x.replay (Acts.announce x l who a except make) = x.announce l who a except make := by
  change (x.issue make).2.replay _ = _
  exact replay_post

theorem replay_unregister : x.replay (Acts.unregister x l id) = x.unregister l id := by
  cases h : x.roster.entry? id
  case none => simp [Acts.unregister, unregister, h, replay]
  case some e =>
    have hr : Act.apply x (.retire id) = x.retire id e := by simp [Act.apply, h]
    simp only [Acts.unregister, unregister, h]
    change (Act.apply x (.retire id)).replay _ = _
    rw [hr]
    exact replay_announce

theorem replay_displace : x.replay (Acts.displace x l name) = x.displace l name := by
  simp only [Acts.displace, displace]
  cases x.roster.lookup name
  case none => rfl
  case some => exact replay_unregister

theorem replay_register : x.replay (Acts.register x l r) = x.register l r := by
  simp only [Acts.register, Acts.welcome, replay_append, replay_displace, replay_announce]
  rfl

theorem replay_join : x.replay (Acts.join x l id room) = x.join l id room := by
  cases he : x.roster.entry? id
  case none => simp [Acts.join, join, he, replay]
  case some e =>
    cases hf : RoomName.fault? room
    case some => simp [Acts.join, join, he, hf, replay_tell]
    case none =>
      simp only [Acts.join, join, he, hf]
      change (Act.apply x (.join id room)).replay _ = _
      rw [replay_append]
      cases (x.roster.join id room).1
      case joined => exact replay_announce
      case alreadyMember | unknownConnection => rfl

theorem replay_leave : x.replay (Acts.leave x l id room) = x.leave l id room := by
  cases he : x.roster.entry? id
  case none => simp [Acts.leave, leave, he, replay]
  case some e =>
    cases hl : x.roster.leave id room
    case mk outcome roster =>
      have hr : Act.apply x (.leave id room) = { x with roster } := by simp [Act.apply, hl]
      cases outcome
      case notMember | unknownConnection => simp only [Acts.leave, leave, he, hl]; rfl
      case left remaining =>
        simp only [Acts.leave, leave, he, hl, hr]
        change (Act.apply x (.leave id room)).replay _ = _
        rw [replay_append, hr]
        split
        case isTrue => exact replay_announce
        case isFalse => rfl

theorem replay_perform : x.replay (Acts.perform x l c) = x.perform l c := by
  cases c
  case register => exact replay_register
  case unregister => exact replay_unregister
  case post => exact replay_post
  case join => exact replay_join
  case leave => exact replay_leave
  case query => rfl

theorem apply_pass {doomed : List ConnectionId} (h : x.doomed = id :: doomed) :
    Act.apply x (.strike false) = { x with doomed } := by
  simp [Act.apply, h]

theorem apply_evict {doomed : List ConnectionId} (h : x.doomed = id :: doomed) :
    Act.apply x (.strike true) = x.struck doomed := by
  simp [Act.apply, struck, h]

theorem Cascade.replay_acts (c : Cascade l x) : x.replay c.acts = c.last := by
  induction c
  case rest => rfl
  case pass x id doomed h _ _ hi =>
    change (Act.apply x (.strike false)).replay _ = _
    rw [apply_pass h]
    exact hi
  case evict x id doomed e h _ _ hi =>
    change (Act.apply x (.strike true)).replay _ = _
    rw [apply_evict h, replay_append, replay_unregister]
    exact hi

theorem replay_journal : x.replay (x.journal l c) = x.handle l c := by
  rw [journal, replay_append, replay_perform, Cascade.replay_acts, Cascade.last_eq_settle, handle]

-- Acts that offer nothing but certain notices, and let nobody come or go.
def Says (P : Bool → Notice → Prop) (as : List Act) : Prop :=
  ∀ act ∈ as,
    match act with
    | .issue | .join .. | .leave ..      => True
    | .offer own n _                     => P own n
    | .enter _ | .retire _ | .strike _ => False

variable {P : Bool → Notice → Prop} {as bs : List Act} {v : ConnectionId} {k : Nat}

theorem says_nil : Says P [] :=
  List.forall_mem_nil _

theorem says_append : Says P (as ++ bs) ↔ Says P as ∧ Says P bs :=
  List.forall_mem_append

theorem says_offers {ids : List ConnectionId} {n : Notice} (h : P own n) :
    Says P (ids.map (.offer own n)) :=
  List.forall_mem_map.mpr fun _ _ => h

theorem says_tell (h : ∀ s, P true (make s)) : Says P (Acts.tell x id make) :=
  List.forall_mem_cons.mpr ⟨trivial, List.forall_mem_singleton.mpr (h _)⟩

-- Besides its own notice, a post may only make the exchange offer a complaint.
theorem says_post (h : P own p.notice) (hs : ∀ n : Notice, n.IsOfServer → P true n) :
    Says P (Acts.post x own l p) := by
  simp only [Acts.post]
  split
  case h_1 => exact says_offers h
  case h_2 =>
    split
    case h_1 => exact says_tell fun _ => hs _ ⟨trivial, rfl⟩
    case h_2 => exact says_nil
  case h_3 => exact says_nil

theorem says_announce (h : ∀ s, P true (make s)) (hs : ∀ n : Notice, n.IsOfServer → P true n) :
    Says P (Acts.announce x l who a except make) :=
  List.forall_mem_cons.mpr ⟨trivial, says_post (h _) hs⟩

section Rooms

variable (hs : ∀ n : Notice, n.IsOfServer → P true n)

include hs

-- Besides complaints, whoever enters or leaves a room is all that anyone is told of.
theorem says_join (hm : ∀ e (n : Notice), x.roster.entry? id = some e →
    n.kind = .roomJoined ∨ n.kind = .userJoined → n.Names e.identity → P true n) :
    Says P (Acts.join x l id room) := by
  simp only [Acts.join]
  split
  case h_1 => exact says_nil
  case h_2 e he =>
    have hm {n : Notice} := hm e n he
    split
    case h_1 => exact says_tell fun _ => hs _ Notice.isOfServer_error
    case h_2 =>
      refine List.forall_mem_cons.mpr ⟨trivial, says_append.mpr ⟨says_tell fun _ => ?_, ?_⟩⟩
      · exact hm (.inl rfl) Notice.names_about.withRoom.withContent
      split
      case h_1 => exact says_announce (fun _ => hm (.inr rfl) Notice.names_about.withRoom.withContent) hs
      case h_2 => exact says_nil

theorem says_leave (hm : ∀ e (n : Notice), x.roster.entry? id = some e →
    n.kind = .roomLeft ∨ n.kind = .userLeft → n.Names e.identity → P true n) :
    Says P (Acts.leave x l id room) := by
  simp only [Acts.leave]
  split
  case h_1 => exact says_nil
  case h_2 e he =>
    have hm {n : Notice} := hm e n he
    split
    case h_1 =>
      refine List.forall_mem_cons.mpr ⟨trivial, says_append.mpr ⟨says_tell fun _ => ?_, ?_⟩⟩
      · exact hm (.inl rfl) Notice.names_about.withRoom.withContent
      split
      case isTrue => exact says_announce (fun _ => hm (.inr rfl) Notice.names_about.withRoom.withContent) hs
      case isFalse => exact says_nil
    case h_2 => exact says_tell fun _ => hs _ Notice.isOfServer_error
    case h_3 => exact says_nil

end Rooms

-- Besides greetings and lists, the newcomer is all that anyone is told of.
theorem says_welcome (hs : ∀ n : Notice, n.IsOfServer → P true n)
    (hc : ∀ n : Notice, n.kind = .userConnected → n.Names r.identity → P true n) :
    Says P (Acts.welcome x l r) := by
  refine says_append.mpr ⟨says_append.mpr ⟨?_, ?_⟩, ?_⟩
  · exact says_tell fun _ => hs _ Notice.isOfServer_system
  · exact says_tell fun _ => hs _ ⟨trivial, rfl⟩
  · exact says_announce (fun _ => hc _ rfl Notice.names_about.withContent) hs

namespace Says

theorem retire_not_mem (h : Says P as) : .retire v ∉ as :=
  fun hm => h _ hm

theorem enter_not_mem (h : Says P as) : .enter r ∉ as :=
  fun hm => h _ hm

theorem strike_not_mem (h : Says P as) {evicted : Bool} : .strike evicted ∉ as :=
  fun hm => h _ hm

theorem spares (h : Says P as) : Spares v k as :=
  ⟨h.retire_not_mem, fun _ hm => absurd hm h.enter_not_mem⟩

end Says

-- Acts that neither remove anyone nor tell of anyone who went away; only the newcomer of a command is entered.
def Tame (c : Command) : Act → Prop
  | .issue | .join .. | .leave .. => True
  | .offer own n _                => own = true → n.kind ≠ .userDisconnected
  | .enter r                      => c = .register r
  | .retire _ | .strike _         => False

theorem Says.tame (h : Says (fun own n => own = true → n.kind ≠ .userDisconnected) as) :
    ∀ act ∈ as, Tame c act := by
  intro act hm
  have := h act hm
  cases act <;> first | exact this | exact absurd this id

-- How the one whom a command removes by itself is removed.
def Acts.dismiss (x : Exchange) (l : Listing) (c : Command) : List Act :=
  match x.target? c with
  | some id => Acts.unregister x l id
  | none => []

-- A removal retires one connection, and does nothing after that but tell the others.
theorem acts_unregister_cases (x : Exchange) (l : Listing) (id : ConnectionId) :
    Acts.unregister x l id = [] ∨
      ∃ as, Acts.unregister x l id = .retire id :: as ∧ Says (fun _ _ => True) as := by
  cases he : x.roster.entry? id
  case none => exact .inl <| by simp [Acts.unregister, he]
  case some e =>
    refine .inr ⟨_, by simp only [Acts.unregister, he]; rfl, ?_⟩
    exact says_announce (fun _ => trivial) fun _ _ => trivial

theorem retire_mem_unregister (h : .retire v ∈ Acts.unregister x l id) : id = v := by
  obtain hu | ⟨as, hu, hs⟩ := acts_unregister_cases x l id
  · rw [hu] at h
    cases h
  · rw [hu] at h
    have := (List.mem_cons.mp h).resolve_right hs.retire_not_mem
    exact (Act.retire.inj this).symm

theorem enter_not_mem_unregister : .enter r ∉ Acts.unregister x l id := by
  obtain hu | ⟨as, hu, hs⟩ := acts_unregister_cases x l id
  · simp [hu]
  · simp [hu, hs.enter_not_mem]

theorem strike_not_mem_unregister {evicted : Bool} : .strike evicted ∉ Acts.unregister x l id := by
  obtain hu | ⟨as, hu, hs⟩ := acts_unregister_cases x l id
  · simp [hu]
  · simp [hu, hs.strike_not_mem]

-- Everyone else is offered the same farewell.
theorem acts_unregister_eq {e : Entry} (h : x.roster.Consistent) (he : x.roster.entry? id = some e) :
    Acts.unregister x l id =
      [.retire id, .issue] ++
        (x.mourners l id).map (.offer true (farewell x.supply.stamp e.identity)) := by
  rw [← recipients_retired h he]
  simp only [Acts.unregister, he]
  rfl

theorem replay_retire {e : Entry} (he : x.roster.entry? id = some e) :
    x.replay [.retire id, .issue] = x.retired id e := by
  simp only [replay, List.foldl_cons, List.foldl_nil, Act.apply, he]
  rfl

-- A command removes its target, if it has one, and is tame from there on.
theorem exists_perform_eq (x : Exchange) (l : Listing) (c : Command) :
    ∃ as, Acts.perform x l c = Acts.dismiss x l c ++ as ∧ ∀ act ∈ as, Tame c act := by
  have hs (n : Notice) (hn : n.IsOfServer) (_ : true = true) : n.kind ≠ .userDisconnected := hn.kind_ne id
  cases c
  case register r =>
    let entry := Acts.displace x l r.identity.name ++ [.enter r]
    refine ⟨.enter r :: Acts.welcome (x.replay entry) l r, List.append_assoc .., ?_⟩
    exact List.forall_mem_cons.mpr ⟨rfl, (says_welcome hs fun _ hk _ _ => by simp [hk]).tame⟩
  case unregister id =>
    refine ⟨[], ?_, List.forall_mem_nil _⟩
    simp only [Acts.perform, Acts.dismiss, target?, List.append_nil]
    split
    case h_1 hi => split at hi <;> cases hi; rfl
    case h_2 hi =>
      split at hi
      case isTrue => cases hi
      case isFalse hl => simp [Acts.unregister, Roster.not_isLive_iff.mp hl]
  case post p =>
    exact ⟨_, rfl, (says_post (by simp) hs).tame⟩
  case join =>
    refine ⟨_, rfl, (says_join hs fun _ _ _ hk _ _ => ?_).tame⟩
    rcases hk with hk | hk <;> simp [hk]
  case leave =>
    refine ⟨_, rfl, (says_leave hs fun _ _ _ hk _ _ => ?_).tame⟩
    rcases hk with hk | hk <;> simp [hk]
  case query => exact ⟨[], rfl, List.forall_mem_nil _⟩

theorem retire_mem_dismiss (h : .retire v ∈ Acts.dismiss x l c) : x.target? c = some v := by
  simp only [Acts.dismiss] at h
  split at h
  case h_1 id ht => exact retire_mem_unregister h ▸ ht
  case h_2 => cases h

theorem retire_mem_perform (h : .retire v ∈ Acts.perform x l c) : x.target? c = some v := by
  have ⟨as, hp, ht⟩ := exists_perform_eq x l c
  rw [hp] at h
  exact retire_mem_dismiss <| (List.mem_append.mp h).resolve_right fun hm => ht _ hm

theorem enter_mem_perform (h : .enter r ∈ Acts.perform x l c) : c = .register r := by
  have ⟨as, hp, ht⟩ := exists_perform_eq x l c
  rw [hp] at h
  refine ht _ <| (List.mem_append.mp h).resolve_left fun hm => ?_
  simp only [Acts.dismiss] at hm
  split at hm
  case h_1 => exact enter_not_mem_unregister hm
  case h_2 => cases hm

theorem strike_not_mem_perform {evicted : Bool} : .strike evicted ∉ Acts.perform x l c := by
  have ⟨as, hp, ht⟩ := exists_perform_eq x l c
  rw [hp, List.mem_append, not_or]
  refine ⟨?_, fun hm => ht _ hm⟩
  simp only [Acts.dismiss]
  split
  case h_1 => exact strike_not_mem_unregister
  case h_2 => exact List.not_mem_nil

namespace Cascade

theorem retire_mem_acts (c : Cascade l x) (h : .retire v ∈ c.acts) : v ∈ c.evicted := by
  induction c
  case rest => cases h
  case pass hi => exact hi <| (List.mem_cons.mp h).resolve_left nofun
  case evict hi =>
    have h := (List.mem_cons.mp h).resolve_left nofun
    cases List.mem_append.mp h
    case inl hm => exact retire_mem_unregister hm ▸ List.mem_cons_self
    case inr hm => exact List.mem_cons_of_mem _ (hi hm)

theorem enter_not_mem_acts (c : Cascade l x) : .enter r ∉ c.acts := by
  induction c
  case rest => exact List.not_mem_nil
  case pass hi => simpa [acts] using hi
  case evict hi => simpa [acts, enter_not_mem_unregister] using hi

end Cascade

end Exchange
end Parley
