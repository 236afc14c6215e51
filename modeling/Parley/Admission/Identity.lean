import Parley.Http.Header
import Parley.Message.User
import Parley.Settings

namespace Parley.Admission

open Http Settings

-- What a client says about itself in the query of the address.
structure Claim where
  user : Option String := none
  name : Option String := none
deriving DecidableEq, Repr

-- The text without the blanks at its ends, if there is more to it than blanks.
def said? (s : String) : Option String :=
  match Text.trim s.toList with
  | [] => none
  | cs => some (String.ofList cs)

-- What the first header of a name says.
def vouched? (headers : Headers) (name : String) : Option String := do
  said? (← (← headers.find name).text?)

-- What the client says itself, where that will do.
def claimed? (source : IdentitySource) (s : Option String) : Option String :=
  if source.allowQuery then s.bind said? else none

def IsReserved (name : String) : Prop := Text.SameLetters name systemName

instance (name : String) : Decidable (IsReserved name) := by unfold IsReserved; infer_instance

-- The number of a user.
def userNumber? (s : String) : Option UInt64 := do
  let n ← Text.readUnsigned s.toList
  if n < 0x10000000000000000 then some n.toUInt64 else none

-- The identity of the client that sends these headers, or none if it is refused: from headers that can be trusted
-- or else, where the settings allow it, from the query of the address.  Nobody is admitted under the name of the
-- server.
def identity? (source : IdentitySource) (headers : Headers) (claim : Claim) : Option Identity := do
  let user ← vouched? headers source.userIdHeader <|> claimed? source claim.user
  let name ← vouched? headers source.usernameHeader <|> claimed? source claim.name
  if IsReserved name then none else return ⟨← userNumber? user, name⟩

end Parley.Admission
