import Parley.Http.Message
import Parley.Text.Utf8

namespace Parley.Http.Handshake

-- Whether the first header of a name is a word, in any case of letters.
def Says (hs : Headers) (name word : String) : Prop :=
  ∃ h ∈ hs.find name, h.value.map (fun b => (Char.ofNat b.toNat).toLower) = word.toList

instance (hs : Headers) (name word : String) : Decidable (Says hs name word) :=
  match h : hs.find name with
  | none => isFalse (by simp [Says, h])
  | some x =>
    decidable_of_iff (x.value.map (fun b => (Char.ofNat b.toNat).toLower) = word.toList) (by
      simp [Says, h])

-- Whether a row of characters stands somewhere in another.
def occursIn (cs : List Char) : List Char → Bool
  | [] => cs.isEmpty
  | d :: ds => cs.isPrefixOf (d :: ds) || occursIn cs ds

-- Whether the first header of a name is UTF-8 and has a word somewhere in it, in any case of letters.
def Mentions (hs : Headers) (name word : String) : Prop :=
  (hs.find name).any (fun h =>
    match Text.Utf8.decode h.value with
    | .ok cs => occursIn word.toList (cs.map Char.toLower)
    | .error _ => false) = true

instance (hs : Headers) (name word : String) : Decidable (Mentions hs name word) := by
  unfold Mentions; infer_instance

-- The response to a request that asks for a web socket in the wrong way.
def refusal? (r : Request) : Option Response :=
  if r.method ≠ "GET" then some (.plain 405 "Request method must be `GET`")
  else if ¬ Mentions r.headers "connection" "upgrade" then
    some (.plain 400 "Connection header did not include 'upgrade'")
  else if ¬ Says r.headers "upgrade" "websocket" then
    some (.plain 400 "`Upgrade` header did not include 'websocket'")
  else if ¬ Says r.headers "sec-websocket-version" "13" then
    some (.plain 400 "`Sec-WebSocket-Version` header did not include '13'")
  else if (r.headers.find "sec-websocket-key").isNone then
    some (.plain 400 "`Sec-WebSocket-Key` header missing")
  else if ¬ r.switchable then
    some (.plain 426 "WebSocket request couldn't be upgraded since no upgrade state was present")
  else none

-- What a client sends along that asks in the right way.
def headers : Headers :=
  [ Response.header "host" "localhost",
    Response.header "connection" "Upgrade",
    Response.header "upgrade" "websocket",
    Response.header "sec-websocket-version" "13",
    Response.header "sec-websocket-key" "dGhlIHNhbXBsZSBub25jZQ==" ]

end Parley.Http.Handshake
