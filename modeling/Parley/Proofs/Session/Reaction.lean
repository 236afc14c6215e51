import Parley.Proofs.Message.Voice
import Parley.Session.Reaction
import Parley.Session.Reader

namespace Parley

-- What a client of a certain id and identity may ask of the exchange.
def Command.IsRequestOf (id : ConnectionId) (who : Identity) : Command → Prop
  | post p => (p.notice.kind = .chatMessage ∨ p.notice.kind = .typing) ∧ p.notice.Names who
  | join v _ | leave v _ => v = id
  | register _ | unregister _ | query _ => False

namespace Session.Reaction

-- A reaction to a frame that the client of a certain id and identity sends.
def IsTo (id : ConnectionId) (who : Identity) (r : Reaction) : Prop :=
  ∃ limits f stamp payload, Reader.judge limits f = .payload payload ∧ r = .ofPayload stamp id who payload

variable {stamp : Notice.Stamp} {id : ConnectionId} {who : Identity} {request : Request}
  {payload : Except Request.Unreadable Request} {c : Command} {n : Notice} {r : Reaction}

theorem isRequestOf_chat (h : (chat stamp who request).command = some c) : c.IsRequestOf id who := by
  simp only [chat] at h
  split at h
  case h_1 => cases h
  case h_2 =>
    split at h
    case h_1 => cases h; exact ⟨.inl rfl, Notice.names_about.withContent.withRoom⟩
    case h_2 => cases h; exact ⟨.inl rfl, Notice.names_about.withContent⟩

theorem isRequestOf_whisper (h : (whisper stamp who request).command = some c) : c.IsRequestOf id who := by
  simp only [whisper] at h
  split at h
  case h_1 => cases h; exact ⟨.inl rfl, Notice.names_about.withContent.withRecipient⟩
  case h_2 => cases h

theorem isRequestOf_move {make : String → Command} (h : (move stamp request make).command = some c)
    (hm : ∀ room, (make room).IsRequestOf id who) : c.IsRequestOf id who := by
  simp only [move] at h
  split at h
  case h_1 room _ => cases h; exact hm room
  case h_2 => cases h

theorem isRequestOf_type (h : (type stamp who request).command = some c) : c.IsRequestOf id who := by
  cases h
  exact ⟨.inr rfl, rfl, fun _ hu => (Option.some.inj hu).symm⟩

-- Whatever a client says, nothing else comes of it.
theorem IsTo.isRequestOf (hr : r.IsTo id who) (h : r.command = some c) : c.IsRequestOf id who := by
  obtain ⟨_, _, stamp, payload, _, rfl⟩ := hr
  cases payload
  case error => cases h
  case ok request =>
    simp only [ofPayload, ofRequest] at h
    split at h
    case h_1 | h_7 => cases h
    case h_2 => exact isRequestOf_chat h
    case h_3 | h_4 => exact isRequestOf_move h fun _ => rfl
    case h_5 => exact isRequestOf_whisper h
    case h_6 => exact isRequestOf_type h

-- A client is told of a mistake, or gets a copy of what it said, or a pong.
theorem reply_cases (h : (ofPayload stamp id who payload).reply = some n) :
    (n.kind = .error ∧ n.IsOfServer) ∨ ((n.kind = .chatMessage ∨ n.kind = .pong) ∧ n.Names who) := by
  have hc {message : String} (h : (complain stamp message).reply = some n) :
      (n.kind = .error ∧ n.IsOfServer) ∨ ((n.kind = .chatMessage ∨ n.kind = .pong) ∧ n.Names who) :=
    Option.some.inj h ▸ .inl ⟨rfl, Notice.isOfServer_error⟩
  cases payload
  case error => exact hc h
  case ok request =>
    simp only [ofPayload, ofRequest] at h
    split at h
    case h_1 => exact hc h
    case h_2 =>
      simp only [chat] at h
      split at h
      case h_1 => exact hc h
      case h_2 => split at h <;> cases h
    case h_3 | h_4 =>
      simp only [move] at h
      split at h
      case h_1 => cases h
      case h_2 => exact hc h
    case h_5 =>
      simp only [whisper] at h
      split at h
      case h_1 => exact Option.some.inj h ▸ .inr ⟨.inl rfl, Notice.names_about.withContent.withRecipient⟩
      case h_2 => exact hc h
    case h_6 => cases h
    case h_7 => exact Option.some.inj h ▸ .inr ⟨.inr rfl, rfl, nofun⟩

end Session.Reaction
end Parley
