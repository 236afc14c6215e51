import Parley.Admission.Identity
import Parley.Message.Notice

namespace Parley

namespace Notice

-- The kinds of notices in which the server speaks for itself.
def Kind.IsOfServer : Kind → Prop
  | system | error | onlineUsers => True
  | chatMessage | userConnected | userDisconnected | userJoined | userLeft | roomJoined | roomLeft | typing
  | pong => False

-- The server speaks for itself, and under its own name.
structure IsOfServer (n : Notice) : Prop where
  kind     : n.kind.IsOfServer
  username : n.username = systemName

-- A notice goes by the name of a user and, where there is a number on it, by the number of that user.
structure Names (n : Notice) (who : Identity) : Prop where
  username : n.username = who.name
  user     : ∀ u, n.user = some u → u = who.user

variable {n : Notice} {stamp : Stamp} {kind : Kind} {who : Identity} {message : String}

theorem IsOfServer.kind_ne (h : n.IsOfServer) (hk : ¬ kind.IsOfServer) : n.kind ≠ kind :=
  fun heq => hk (heq ▸ h.kind)

theorem names_about : (about stamp kind who).Names who :=
  ⟨rfl, fun _ h => (Option.some.inj h).symm⟩

theorem Names.withContent (h : n.Names who) : (n.withContent message).Names who :=
  ⟨h.username, h.user⟩

theorem Names.withRoom (h : n.Names who) : (n.withRoom message).Names who :=
  ⟨h.username, h.user⟩

theorem Names.withRecipient (h : n.Names who) : (n.withRecipient message).Names who :=
  ⟨h.username, h.user⟩

theorem isOfServer_system : (system stamp message).IsOfServer :=
  ⟨trivial, rfl⟩

theorem isOfServer_error : (error stamp message).IsOfServer :=
  ⟨trivial, rfl⟩

end Notice

namespace Admission

open Http Settings

-- An identity under which some client is admitted.
def IsAdmissible (who : Identity) : Prop :=
  ∃ (source : IdentitySource) (headers : Headers) (claim : Claim), identity? source headers claim = some who

variable {who : Identity}

-- Nobody is admitted under the name of the server.
theorem IsAdmissible.not_isReserved (h : IsAdmissible who) : ¬ IsReserved who.name := by
  obtain ⟨source, headers, claim, h⟩ := h
  obtain ⟨user, _, h⟩ := Option.bind_eq_some_iff.mp h
  obtain ⟨name, _, h⟩ := Option.bind_eq_some_iff.mp h
  split at h
  case isTrue => cases h
  case isFalse hr =>
    obtain ⟨number, _, h⟩ := Option.bind_eq_some_iff.mp h
    cases h
    exact hr

end Admission
end Parley
