import Parley.Session.Reaction
import Parley.Session.Reader

namespace Parley

namespace Request

variable {q : Request} {member : Option String} {s : String} {k : Kind}

-- A member that is not there, or there is nothing in it.
def IsMissing (member : Option String) : Prop := member = none ∨ member = some ""

theorem IsMissing.eq_empty (h : IsMissing member) (hm : member = some s) : s = "" := by
  obtain h | h := h <;> cases h.symm.trans hm
  rfl

theorem nonempty_eq_none_iff : nonempty member = none ↔ IsMissing member := by
  cases member <;> simp [nonempty, IsMissing, Option.filter]

theorem nonempty_eq_some_iff : nonempty member = some s ↔ member = some s ∧ s ≠ "" := by
  simp [nonempty, Option.filter_eq_some_iff]

theorem kind?_eq_some_iff : q.kind? = some k ↔ q.kind = k.name := by
  refine ⟨fun h => ?_, fun h => by rw [kind?, h, Kind.ofName?_name]⟩
  rw [kind?, Kind.ofName?] at h
  have hk := List.find?_some h
  exact (eq_of_beq hk).symm

theorem kind?_eq_none_iff : q.kind? = none ↔ ∀ k : Kind, q.kind ≠ k.name := by
  rw [Option.eq_none_iff_forall_ne_some]
  exact forall_congr' fun _ => not_congr kind?_eq_some_iff

theorem Kind.name_inj {k k' : Kind} (h : k.name = k'.name) : k = k' :=
  Option.some.inj ((ofName?_name k).symm.trans (h ▸ ofName?_name k'))

-- What is wrong with a request that nothing can come of, as its client is told.
inductive Faulty : Except Unreadable Request → String → Prop
  | unreadable {e} : Faulty (.error e) "Invalid message format"
  | unknown {r} (hk : ∀ k : Kind, r.kind ≠ k.name) : Faulty (.ok r) ("Unknown message type: " ++ r.kind)
  | silent {r} (hk : r.kind = "chat_message") (hc : IsMissing r.content) : Faulty (.ok r) "Message content is required"
  | nowhere {r} (hk : r.kind = "join_room" ∨ r.kind = "leave_room") (hr : IsMissing r.room) :
      Faulty (.ok r) "Room ID is required"
  | incomplete {r} (hk : r.kind = "private_message") (hm : IsMissing r.recipient ∨ IsMissing r.content) :
      Faulty (.ok r) "Recipient and content are required"

-- Whom a request for a room is for, with the room that it is about: without a room it is for everyone.
inductive Destined (member : Option String) : Option String → Audience → Prop
  | everyone (h : IsMissing member) : Destined member none .everyone
  | room {name} (h : member = some name) (hn : name ≠ "") : Destined member (some name) (.room name)

end Request

-- What a frame says to whoever takes it for a request.
def Frame.reading? : Frame → Option (Except Request.Unreadable Request)
  | text s              => some (Request.ofText s)
  | binary bs           => some (Request.ofOctets bs)
  | ping _ | pong _ | close => none

namespace Session

inductive Deed where
  -- The client is told what is wrong with its request.
  | complain
  | pong
  -- A notice is posted in a room, or to everyone.
  | speak
  -- The client enters or leaves a room.
  | move
  -- A notice is posted to one user, and the client gets a copy.
  | whisper
  -- The others in a room, or everyone else, are told whether the client types.
  | type
deriving DecidableEq, Repr

open Request in
-- What a session does about a request, with what the client is answered and what it has the exchange do.
inductive Does (stamp : Notice.Stamp) (id : ConnectionId) (who : Identity) :
    Except Unreadable Request → Deed → Reaction → Prop
  | complain {p message} (h : Faulty p message) : Does stamp id who p .complain ⟨some (.error stamp message), none⟩
  | pong {r} (hk : r.kind = "ping") : Does stamp id who (.ok r) .pong ⟨some (.pong stamp who.name), none⟩
  | speak {r content room p} (hk : r.kind = "chat_message") (hc : r.content = some content) (hn : content ≠ "")
      (hd : Destined r.room room p.effectiveAudience) (he : p.except = none)
      (hp : p.notice = { Notice.about stamp .chatMessage who with content := some content, room }) :
      Does stamp id who (.ok r) .speak ⟨none, some (.post p)⟩
  | move {r room c} (hr : r.room = some room) (hn : room ≠ "")
      (hk : r.kind = "join_room" ∧ c = .join id room ∨ r.kind = "leave_room" ∧ c = .leave id room) :
      Does stamp id who (.ok r) .move ⟨none, some c⟩
  | whisper {r recipient content n} (hk : r.kind = "private_message") (hr : r.recipient = some recipient)
      (hn : recipient ≠ "") (hc : r.content = some content) (hn' : content ≠ "")
      (hw : n = { Notice.about stamp .chatMessage who with content := some content, recipient := some recipient }) :
      Does stamp id who (.ok r) .whisper ⟨some n, some (.post ⟨n, .user recipient, none⟩)⟩
  | type {r room status p} (hk : r.kind = "typing") (hd : Destined r.room room p.effectiveAudience)
      (he : p.except = some who.name) (hs : status = .stop ↔ ∃ s, r.content = some s ∧ Text.SameLetters s "stop")
      (hp : p.notice = Notice.typing stamp who room status) :
      Does stamp id who (.ok r) .type ⟨none, some (.post p)⟩

theorem effectiveAudience_toRoom {room : String} {n : Notice} (h : room ≠ "") :
    (Post.toRoom room n).effectiveAudience = .room room := by
  simp only [Post.effectiveAudience, Post.toRoom]
  split
  case h_1 hr => exact absurd (Audience.room.inj hr) h
  case h_2 => rfl

-- The kinds of requests that a deed is asked for by; a complaint is asked for by none.
def Deed.kinds : Deed → List Request.Kind
  | complain => []
  | pong     => [.ping]
  | speak    => [.chatMessage]
  | move     => [.joinRoom, .leaveRoom]
  | whisper  => [.privateMessage]
  | type     => [.typing]

theorem Deed.eq_of_mem_kinds {deed deed' : Deed} {k : Request.Kind} (h : k ∈ deed.kinds) (h' : k ∈ deed'.kinds) :
    deed = deed' := by
  cases deed <;> cases deed' <;> first | rfl | (cases k <;> simp [Deed.kinds] at h h')

namespace Does

open Request

variable {stamp : Notice.Stamp} {id : ConnectionId} {who : Identity} {q : Request} {message : String}
  {p : Except Unreadable Request} {deed deed' : Deed} {r r' : Reaction} {k : Kind}

theorem of_chat (hk : q.kind? = some .chatMessage) : ∃ deed, Does stamp id who (.ok q) deed (.chat stamp who q) := by
  have hk : q.kind = "chat_message" := kind?_eq_some_iff.mp hk
  unfold Reaction.chat
  split
  case h_1 hc => exact ⟨.complain, .complain (.silent hk (nonempty_eq_none_iff.mp hc))⟩
  case h_2 content hc =>
    have ⟨hc, hn⟩ := nonempty_eq_some_iff.mp hc
    refine ⟨.speak, ?_⟩
    dsimp only
    split
    case h_1 room hr =>
      have ⟨hr, hne⟩ := nonempty_eq_some_iff.mp hr
      exact .speak hk hc hn (effectiveAudience_toRoom hne ▸ .room hr hne) rfl rfl
    case h_2 hr => exact .speak hk hc hn (.everyone (nonempty_eq_none_iff.mp hr)) rfl rfl

theorem of_move {make : String → Command}
    (hk : q.kind? = some .joinRoom ∧ make = .join id ∨ q.kind? = some .leaveRoom ∧ make = .leave id) :
    ∃ deed, Does stamp id who (.ok q) deed (.move stamp q make) := by
  simp only [kind?_eq_some_iff] at hk
  unfold Reaction.move
  split
  case h_1 room hr =>
    have ⟨hr, hn⟩ := nonempty_eq_some_iff.mp hr
    refine ⟨.move, .move hr hn ?_⟩
    exact hk.imp (fun ⟨hk, h⟩ => ⟨hk, congrFun h room⟩) fun ⟨hk, h⟩ => ⟨hk, congrFun h room⟩
  case h_2 hr =>
    refine ⟨.complain, .complain (.nowhere ?_ (nonempty_eq_none_iff.mp hr))⟩
    exact hk.imp And.left And.left

theorem of_whisper (hk : q.kind? = some .privateMessage) :
    ∃ deed, Does stamp id who (.ok q) deed (.whisper stamp who q) := by
  have hk : q.kind = "private_message" := kind?_eq_some_iff.mp hk
  unfold Reaction.whisper
  split
  case h_1 hr hc =>
    have ⟨hr, hn⟩ := nonempty_eq_some_iff.mp hr
    have ⟨hc, hn'⟩ := nonempty_eq_some_iff.mp hc
    exact ⟨.whisper, .whisper hk hr hn hc hn' rfl⟩
  case h_2 hm =>
    refine ⟨.complain, .complain (.incomplete hk ?_)⟩
    cases hr : q.recipient?
    case none => exact .inl (nonempty_eq_none_iff.mp hr)
    case some =>
      cases hc : q.content?
      case none => exact .inr (nonempty_eq_none_iff.mp hc)
      case some => exact (hm _ _ hr hc).elim

theorem of_type (hk : q.kind? = some .typing) : Does stamp id who (.ok q) .type (.type stamp who q) := by
  have hs : Typing.ofContent q.content = .stop ↔ ∃ s, q.content = some s ∧ Text.SameLetters s "stop" := by
    cases q.content <;> simp [Typing.ofContent]
  have hk : q.kind = "typing" := kind?_eq_some_iff.mp hk
  refine .type hk ?_ rfl hs rfl
  cases hr : q.room?
  case none => exact .everyone (nonempty_eq_none_iff.mp hr)
  case some room =>
    have ⟨hr, hn⟩ := nonempty_eq_some_iff.mp hr
    exact (effectiveAudience_toRoom (n := Notice.typing stamp who (some room) .start) hn) ▸ .room hr hn

-- Whatever is read from a frame, something is done about it.
theorem exists_ofPayload : ∃ deed, Does stamp id who p deed (.ofPayload stamp id who p) := by
  cases p
  case error => exact ⟨.complain, .complain .unreadable⟩
  case ok q =>
    simp only [Reaction.ofPayload, Reaction.ofRequest]
    split
    case h_1 hk => exact ⟨.complain, .complain (.unknown (kind?_eq_none_iff.mp hk))⟩
    case h_2 hk => exact of_chat hk
    case h_3 hk => exact of_move (.inl ⟨hk, rfl⟩)
    case h_4 hk => exact of_move (.inr ⟨hk, rfl⟩)
    case h_5 hk => exact of_whisper hk
    case h_6 hk => exact ⟨.type, of_type hk⟩
    case h_7 hk => exact ⟨.pong, .pong (kind?_eq_some_iff.mp hk)⟩

theorem exists_kind (h : Does stamp id who p deed r) (hd : deed ≠ .complain) :
    ∃ q, p = .ok q ∧ ∃ k ∈ deed.kinds, q.kind = k.name := by
  cases h
  case complain => exact absurd rfl hd
  case move q _ c _ _ hk =>
    obtain ⟨hk, _⟩ | ⟨hk, _⟩ := hk
    · exact ⟨q, rfl, .joinRoom, .head _, hk⟩
    · exact ⟨q, rfl, .leaveRoom, .tail _ (.head _), hk⟩
  case pong hk | speak hk _ _ _ _ _ | whisper hk _ _ _ _ _ | type hk _ _ _ _ => exact ⟨_, rfl, _, .head _, hk⟩

-- Nothing is wrong with a request that something is done about.
theorem not_faulty (h : Does stamp id who p deed r) (hd : deed ≠ .complain) : ¬ Faulty p message := by
  obtain ⟨q, rfl, k, hk, hq⟩ := h.exists_kind hd
  intro hf
  have hkind (k' : Kind) (h : q.kind = k'.name) : k' ∈ deed.kinds := Kind.name_inj (hq.symm.trans h) ▸ hk
  cases hf
  case unknown hn => exact hn k hq
  case silent hs hc =>
    obtain rfl : deed = .speak := Deed.eq_of_mem_kinds (hkind .chatMessage hs) (.head _)
    cases h
    case speak hn _ _ _ hc' _ => exact hn (hc.eq_empty hc')
  case nowhere hs hr =>
    obtain rfl : deed = .move := by
      obtain hs | hs := hs
      · exact Deed.eq_of_mem_kinds (hkind .joinRoom hs) (.head _)
      · exact Deed.eq_of_mem_kinds (hkind .leaveRoom hs) (.tail _ (.head _))
    cases h
    case move hn hr' _ => exact hn (hr.eq_empty hr')
  case incomplete hs hm =>
    obtain rfl : deed = .whisper := Deed.eq_of_mem_kinds (hkind .privateMessage hs) (.head _)
    cases h
    case whisper hn hn' _ _ hr hc => exact hm.elim (fun h => hn (h.eq_empty hr)) fun h => hn' (h.eq_empty hc)

-- What a client has said tells what is done about it.
theorem unique (h : Does stamp id who p deed r) (h' : Does stamp id who p deed' r') : deed = deed' := by
  obtain rfl | hd := Decidable.em (deed = .complain) <;> obtain rfl | hd' := Decidable.em (deed' = .complain)
  case inl.inl => rfl
  case inl.inr =>
    cases h
    case complain hf => exact absurd hf (h'.not_faulty hd')
  case inr.inl =>
    cases h'
    case complain hf => exact absurd hf (h.not_faulty hd)
  case inr.inr =>
    obtain ⟨q, rfl, k, hk, hq⟩ := h.exists_kind hd
    obtain ⟨_, hp, k', hk', hq'⟩ := h'.exists_kind hd'
    cases hp
    exact Deed.eq_of_mem_kinds hk (Kind.name_inj (hq.symm.trans hq') ▸ hk')

end Does
end Session
end Parley
