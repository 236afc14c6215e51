import Parley.Message.Notice

namespace Parley

inductive Audience where
  | everyone
  | room (name : String)
  | user (name : String)
deriving DecidableEq, Repr

-- A notice that is posted, and for whom.
structure Post where
  notice : Notice
  audience : Audience
  -- The user who is left out, if there is one.
  except : Option String
deriving DecidableEq, Repr

namespace Post

def toEveryone (n : Notice) : Post := ⟨n, .everyone, none⟩

def toRoom (room : String) (n : Notice) : Post := ⟨n, .room room, none⟩

def toUser (name : String) (n : Notice) : Post := ⟨n, .user name, none⟩

def excluding (p : Post) (name : String) : Post := { p with except := some name }

-- The room without a name is everyone.
def effectiveAudience (p : Post) : Audience :=
  match p.audience with
  | .room "" => .everyone
  | a => a

end Post
end Parley
