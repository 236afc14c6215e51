import Parley.Http.Message
import Parley.Settings

namespace Parley.Server

open Http

-- Which origins may read answers.
inductive Origins where
  | any
  | listed (values : List (List UInt8))
deriving DecidableEq, Repr

namespace Origins

-- The origins of some settings; none if one of them could be no header value.
def ofSettings? (s : Settings.CrossOrigin) : Option Origins :=
  let values := s.allowedOrigins.map fun o => o.toUTF8.toList
  if values.all Header.isValue then
    some (if values.isEmpty then any else listed values)
  else none

-- An asterisk among listed origins contradicts the list.
def IsContradictory : Origins → Prop
  | any => False
  | listed values => "*".toUTF8.toList ∈ values

instance (o : Origins) : Decidable o.IsContradictory := by
  cases o <;> unfold IsContradictory <;> infer_instance

def Allows (o : Origins) (origin : List UInt8) : Prop :=
  match o with
  | any => True
  | listed values => origin ∈ values

instance (o : Origins) (origin : List UInt8) : Decidable (o.Allows origin) := by
  cases o <;> unfold Allows <;> infer_instance

-- The headers that every response gets.
def headers (o : Origins) (r : Http.Request) : Headers :=
  [ Response.header "vary" "origin, access-control-request-method, access-control-request-headers",
    Response.header "access-control-allow-credentials" "true" ] ++
    match r.headers.find "origin" with
    | some h =>
      if o.Allows h.value then [⟨"access-control-allow-origin", h.value⟩] else []
    | none => []

-- The headers that only the response to an `OPTIONS` request gets.
def optionHeaders : Headers :=
  [ Response.header "access-control-allow-methods" "GET,POST,PUT,PATCH,DELETE,OPTIONS",
    Response.header "access-control-allow-headers" "content-type,accept,authorization",
    Response.header "access-control-max-age" "86400" ]

end Origins
end Parley.Server
