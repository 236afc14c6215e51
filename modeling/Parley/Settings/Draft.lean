import Parley.Settings.Scalar

namespace Parley.Settings

-- A step on the way to a part: a name in a table, or a place in a list, which is counted from the end if
-- it is negative.
inductive Step where
  | name (s : String)
  | index (i : Int)
deriving DecidableEq, Repr

-- The way to a setting.
def Setting.way (x : Setting) : List Step := x.path.map .name

-- Settings as a tree of scalars, lists and tables, in which parts can be replaced: anything can be put anywhere,
-- and only in the end does it show whether the tree still describes settings.  Putting something in one place
-- leaves all others alone, except for what stands in the way there.
inductive Draft where
  -- A place of which nothing is known.
  | blank
  | scalar (v : Scalar)
  | list (items : List Draft)
  | table (members : List (String × Draft))

namespace Draft

-- The members of a table; whatever else stands there gives way to an empty one.
def members : Draft → List (String × Draft)
  | table ms => ms
  | _ => []

-- The items of a list; whatever else stands there gives way to an empty one.
def items : Draft → List Draft
  | list ds => ds
  | _ => []

-- A member takes the place of the one with its name, or comes last.
def setMember (name : String) (d : Draft) : List (String × Draft) → List (String × Draft)
  | [] => [(name, d)]
  | (k, old) :: ms => if k = name then (k, d) :: ms else (k, old) :: setMember name d ms

-- A list grows up to the place where something is put.
def setItem (i : Nat) (d : Draft) (ds : List Draft) : List Draft :=
  (ds ++ List.replicate (i + 1 - ds.length) blank).set i d

-- More items than this no list can have.
def maxItems : Nat := 0x1000000

-- The place in a list of `length` items, or beyond its end, that an index means.
def place? (length : Nat) (i : Int) : Option Nat :=
  if i < 0 then if i.natAbs ≤ length then some (length - i.natAbs) else none
  else if i.toNat < maxItems then some i.toNat
  else none

-- Puts something at the end of a way; none if a list has no such place.
def put (new : Draft) : List Step → Draft → Option Draft
  | [], _ => some new
  | .name s :: way, d => do
    let inner ← put new way ((d.members.lookup s).getD blank)
    return table (setMember s inner d.members)
  | .index i :: way, d => do
    let i ← place? d.items.length i
    let inner ← put new way (d.items[i]?.getD blank)
    return list (setItem i inner d.items)

def originsPath : List String := ["cors", "allowed_origins"]

-- What stands in the tree for a list of origins.  Only what is in the list leaves a trace there, so an empty one
-- leaves none.
def ofOrigins : List String → List (String × Draft)
  | [] => []
  | os => [("cors", table [("allowed_origins", list (os.map fun o => scalar (.text o)))])]

-- The tree with a scalar for each setting, and with some origins.
def ofScalars (leaf : Setting → Scalar) (origins : List String) : Draft :=
  let leaf x := scalar (leaf x)
  table
    ([ ("host", leaf .host), ("port", leaf .port),
       ("transport", table [("websocket_path", leaf .webSocketPath)]),
       ("limits", table
         [ ("max_connections", leaf .maxConnections), ("max_message_size", leaf .maxMessageSize),
           ("outbound_queue_capacity", leaf .outboundQueueCapacity),
           ("command_capacity", leaf .commandCapacity) ]),
       ("heartbeat", table [("pong_wait_ms", leaf .pongWaitMs)]),
       ("identity", table
         [ ("user_id_header", leaf .userIdHeader), ("username_header", leaf .usernameHeader),
           ("allow_query", leaf .allowQuery) ]),
       ("rate_limit", table
         [("enabled", leaf .rateLimitEnabled), ("per_second", leaf .perSecond), ("burst", leaf .burst)]),
       ("metrics", table
         [ ("enabled", leaf .metricsEnabled), ("port", leaf .metricsPort),
           ("report_interval_ms", leaf .reportIntervalMs) ]),
       ("shutdown", table [("grace_ms", leaf .graceMs), ("write_grace_ms", leaf .writeGraceMs)]) ] ++
      ofOrigins origins)

-- The tree that describes settings.
def ofSettings (s : Settings) : Draft := ofScalars (Scalar.ofSetting s) s.crossOrigin.allowedOrigins

-- The names in a section, in order.
def namesIn (section_ : String) : List String :=
  (originsPath :: Setting.all.map Setting.path).filterMap fun
    | [a, b] => if a = section_ then some b else none
    | _ => none

-- What a section has under a name; a list has its parts in the order of their names.  None if it is no
-- section at all.
def part? (section_ name : String) : Draft → Option (Option Draft)
  | table ms => some (ms.lookup name)
  | list ds => some ds[(namesIn section_).idxOf name]?
  | _ => none

-- What stands at the end of a path, if anything; none if the way there leads through something that
-- is no section.
def find? (d : Draft) : List String → Option (Option Draft)
  | [name] => some (d.members.lookup name)
  | [section_, name] =>
    match d.members.lookup section_ with
    | some d => d.part? section_ name
    | none => some none
  | _ => none

-- What a draft says of one setting; what is left out has its default.
def content? (d : Draft) (defaults : Settings) (x : Setting) : Option x.kind.Content := do
  match ← d.find? x.path with
  | some (scalar v) => v.convert? x.kind
  | none => return x.get defaults
  | _ => none

-- The text of a scalar.
def text? : Draft → Option String
  | scalar v => some v.toText
  | _ => none

-- The allowed origins as a draft has them; each one has to be known.
def origins? (d : Draft) : Option (List String) := do
  match ← d.find? originsPath with
  | some (list ds) => ds.mapM text?
  | none => return []
  | _ => none

-- The settings that a draft describes.
def settings? (d : Draft) (defaults : Settings) : Option Settings := do
  let s ← Setting.all.foldlM (fun s x => (d.content? defaults x).map (x.set · s)) defaults
  return { s with crossOrigin := ⟨← d.origins?⟩ }

end Draft
end Parley.Settings
