import Parley.Proofs.Exchange.Removal
import Parley.Proofs.Json.Outline

namespace Parley

open Std

namespace Json.Value

-- The member of an object, as a client looks it up.
def member? (name : String) : Value → Option Value
  | object members => members.lookup name
  | _              => none

end Json.Value

-- Who is on a line of the list of users.
def UserInfo.read? (v : Json.Value) : Option Identity :=
  match v.member? "id", v.member? "username" with
  | some (.number (.whole i _)), some (.string name) => some ⟨i.toNat.toUInt64, name⟩
  | _, _ => none

theorem Json.Value.nat_toNat (n : UInt64) :
    ∃ h, Json.Value.nat n.toNat = .number (.whole n.toNat h) :=
  have hf := Json.fits_toNat n
  ⟨hf, by simp [nat, whole, hf]⟩

theorem UserInfo.value_eq (u : UserInfo) : u.value = .object
    [("id", .nat u.id.toNat), ("status", .string u.status), ("username", .string u.name)] := by
  have hu : ¬ "username" < "id" := by decide
  have hs : ¬ "status" < "id" := by decide
  have ht : "status" < "username" := by decide
  simp only [value, Json.Value.ofMembers, List.foldl_cons, List.foldl_nil, Json.Value.insertMember, hu, hs,
    ht, if_true, if_false, String.reduceEq]

theorem UserInfo.read?_eq {v : Json.Value} {i : Int} {hf : Json.Fits i} {name : String}
    (hi : v.member? "id" = some (.number (.whole i hf)))
    (hn : v.member? "username" = some (.string name)) : read? v = some ⟨i.toNat.toUInt64, name⟩ := by
  simp only [read?, hi, hn]

theorem UserInfo.read?_value (u : UserInfo) : read? u.value = some u.identity := by
  have ⟨_, hn⟩ := Json.Value.nat_toNat u.id
  have hi : u.value.member? "id" = some (.nat u.id.toNat) := by
    rw [u.value_eq]
    rfl
  have hu : u.value.member? "username" = some (.string u.name) := by
    rw [u.value_eq]
    rfl
  rw [read?_eq (hi.trans (congrArg _ hn)) hu]
  simp [identity]

-- The users who are online, by their names, as a client sees it: it starts from the list of users that it is
-- given, and follows what it is told of those who come and go.
abbrev View := ExtTreeMap String UInt64

namespace View

def of (users : List Identity) : View :=
  .ofList (users.map fun who => (who.name, who.user))

-- What a notice changes.
def hear (v : View) (n : Notice) : View :=
  match n.kind, n.identity? with
  | .userConnected, some who => v.insert who.name who.user
  | .userDisconnected, _     => v.erase n.username
  | _, _                     => v

-- The users on the list that a notice brings, if it brings one.
def snapshot? (n : Notice) : Option View :=
  if n.kind = .onlineUsers then
    match n.data.bind (·.member? "users") with
    | some (.array lines) => (lines.mapM UserInfo.read?).map of
    | _ => none
  else none

-- What is known after some notices: the first list counts, and then whoever comes and goes.
def replay? : List Notice → Option View
  | [] => none
  | n :: ns =>
    match snapshot? n with
    | some v => some (ns.foldl hear v)
    | none   => replay? ns

variable {v : View} {n : Notice} {ns ms : List Notice} {name : String}

theorem replay?_append (h : replay? ns = some v) : replay? (ns ++ ms) = some (ms.foldl hear v) := by
  induction ns
  case nil => cases h
  case cons n ns hi =>
    simp only [replay?, List.cons_append] at h ⊢
    split at h
    case h_1 => simp [← Option.some.inj h]
    case h_2 hs => simpa [hs] using hi h

theorem mapM_read? {users : List UserInfo} :
    (users.map UserInfo.value).mapM UserInfo.read? = some (users.map UserInfo.identity) := by
  induction users
  case nil => rfl
  case cons hi => simp only [List.map_cons, List.mapM_cons, UserInfo.read?_value, hi]; rfl

theorem snapshot?_onlineUsers {s : Notice.Stamp} {users : List UserInfo} :
    snapshot? (Notice.onlineUsers s users) = some (of (users.map UserInfo.identity)) := by
  have hd : (Notice.onlineUsers s users).data = some (.object
      [("count", .nat users.length), ("users", .array (users.map UserInfo.value))]) := by
    have hc : "count" < "users" := by decide
    simp only [Notice.onlineUsers, Notice.withData, Json.Value.ofMembers, List.foldl_cons, List.foldl_nil,
      Json.Value.insertMember, hc, if_true]
  have hk : (Notice.onlineUsers s users).kind = .onlineUsers := rfl
  have hm : (Notice.onlineUsers s users).data.bind (·.member? "users") =
      some (.array (users.map UserInfo.value)) := by
    rw [hd]
    rfl
  simp only [snapshot?, hk, if_true, hm, mapM_read?, Option.map_some]

theorem replay?_cons (h : n.kind ≠ .onlineUsers) : replay? (n :: ns) = replay? ns := by
  simp only [replay?, snapshot?, if_neg h]

theorem replay?_onlineUsers {s : Notice.Stamp} {users : List UserInfo} :
    replay? (Notice.onlineUsers s users :: ns) = some (ns.foldl hear (of (users.map UserInfo.identity))) := by
  simp only [replay?, snapshot?_onlineUsers]

-- Most notices are not about who is online.
theorem hear_of_kind (h : n.kind ≠ .userConnected) (h' : n.kind ≠ .userDisconnected) : hear v n = v := by
  simp only [hear]
  split <;> simp_all

theorem foldl_hear_of_kind (h : ∀ n ∈ ns, n.kind ≠ .userConnected ∧ n.kind ≠ .userDisconnected) :
    ns.foldl hear v = v := by
  induction ns
  case nil => rfl
  case cons n ns hi =>
    have ⟨hn, hns⟩ := List.forall_mem_cons.mp h
    rw [List.foldl_cons, hear_of_kind hn.1 hn.2, hi hns]

end View

namespace Exchange

-- The users who are online.
def online (x : Exchange) : View :=
  .of (x.roster.onlineUsers.map UserInfo.identity)

variable {x : Exchange} {id : ConnectionId} {e : Entry} {name : String}

theorem getElem?_online : x.online[name]? = (x.roster.directory.owner? name).map (·.user) := by
  have hl : x.online = .ofList (x.roster.directory.owners.toList.map fun o => (o.1, o.2.user)) := by
    simp only [online, View.of, Roster.onlineUsers, Directory.users, List.map_map]
    rfl
  rw [hl]
  cases ho : x.roster.directory.owner? name
  case some o =>
    refine ExtTreeMap.getElem?_ofList_of_mem (k := name) compare_self ?_ ?_
    · exact List.pairwise_map.mpr ExtTreeMap.distinct_keys_toList
    · exact List.mem_map.mpr ⟨(name, o), ExtTreeMap.mem_toList_iff_getElem?_eq_some.mpr ho, rfl⟩
  case none =>
    refine ExtTreeMap.getElem?_ofList_of_contains_eq_false ?_
    simp only [List.map_map, List.contains_eq_mem, decide_eq_false_iff_not, List.mem_map,
      Function.comp_apply, Prod.exists]
    rintro ⟨name', o, hm, rfl⟩
    have := ExtTreeMap.mem_toList_iff_getElem?_eq_some.mp hm
    simp [Directory.owner?, this] at ho

end Exchange
end Parley
