import Parley.Http.Header
import Parley.Network.Address

namespace Parley.Http

-- A request, as far as the server looks at it.
structure Request where
  method : String
  -- The path and the query, as they are written, or all of a URI.
  target : String
  headers : Headers
  peer : Network.Ip
  -- Whether it comes over a connection of its own, which may go over to another protocol.
  switchable : Bool
deriving DecidableEq, Repr

namespace Request

-- What follows the scheme and the authority, with which an absolute target begins.
def afterAuthority? : List Char → Option (List Char)
  | [] => none
  | '/' :: _ => none
  | ':' :: '/' :: '/' :: cs => some (cs.dropWhile fun c => c ≠ '/' ∧ c ≠ '?' ∧ c ≠ '#')
  | _ :: cs => afterAuthority? cs

-- The target from its path on, without what is behind a number sign.
def resource (r : Request) : List Char :=
  ((afterAuthority? r.target.toList).getD r.target.toList).takeWhile (· ≠ '#')

-- The path of the target; an absolute target without one means the root.
def path (r : Request) : List Char :=
  match r.resource.takeWhile (· ≠ '?') with
  | [] => if (afterAuthority? r.target.toList).isSome then ['/'] else []
  | cs => cs

def query (r : Request) : List Char := (r.resource.dropWhile (· ≠ '?')).drop 1

end Request

structure Response where
  status : Nat
  headers : Headers
  body : String
deriving DecidableEq, Repr

namespace Response

def header (name value : String) : Header := ⟨name, value.toUTF8.toList⟩

def empty (status : Nat) : Response := ⟨status, [], ""⟩

def plain (status : Nat) (body : String) : Response :=
  ⟨status, [header "content-type" "text/plain; charset=utf-8"], body⟩

def json (body : String) : Response := ⟨200, [header "content-type" "application/json"], body⟩

-- The response with some more headers.
def adding (r : Response) (headers : Headers) : Response := { r with headers := r.headers ++ headers }

end Response
end Parley.Http
