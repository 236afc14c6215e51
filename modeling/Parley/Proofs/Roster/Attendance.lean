import Mathlib.Data.Finset.Image
import Mathlib.Data.Finset.Card
import Parley.Proofs.Roster.Consistent

namespace Parley

open Std

namespace Room

variable {m : Room} {id : ConnectionId}

theorem card_members : m.members.toList.toFinset.card = m.count := by
  have hn : m.members.toList.Nodup :=
    ExtTreeSet.distinct_toList.imp fun hc he => hc (LawfulEqCmp.compare_eq_iff_eq.mpr he)
  rw [List.toFinset_card_of_nodup hn, ExtTreeSet.length_toList, count]

theorem getD_count_without : ((m.without id).map count).getD 0 = (m.leave id).count := by
  simp only [without]
  split
  case isTrue h => exact h.symm
  case isFalse => rfl

end Room

namespace Roster

-- What is done to a roster, and what is asked of it.
inductive Deed where
  | insert (id : ConnectionId) (who : Identity) (box : Nat)
  | remove (id : ConnectionId)
  | join (id : ConnectionId) (room : String)
  | leave (id : ConnectionId) (room : String)
  | entry (id : ConnectionId)
  | lookup (name : String)
  | room (room : String)

-- Who a connection is, and where.
structure Account where
  identity : Identity
  rooms : Finset String
deriving DecidableEq

-- What comes of a deed.
inductive Finding where
  | done
  | entry (account : Option Account)
  | joined (outcome : JoinOutcome)
  | left (outcome : LeaveOutcome)
  | owner (id : Option ConnectionId)
  | members (ids : Option (Finset ConnectionId))
deriving DecidableEq

def account (r : Roster) (id : ConnectionId) : Option Account :=
  (r.entry? id).map fun e => ⟨e.identity, e.rooms.toList.toFinset⟩

def act (r : Roster) : Deed → Finding × Roster
  | .insert id who box => (.done, r.insert id who box)
  | .remove id => (.entry (r.account id), r.remove id)
  | .join id room => (.joined (r.join id room).1, (r.join id room).2)
  | .leave id room => (.left (r.leave id room).1, (r.leave id room).2)
  | .entry id => (.entry (r.account id), r)
  | .lookup name => (.owner (r.lookup name), r)
  | .room room => (.members ((r.room? room).map fun m => m.members.toList.toFinset), r)

end Roster

-- Who is there, and a single set of pairs of a connection and a room that it is in.  A roster keeps the same twice
-- over, with the connections and with the rooms, and makes and drops rooms as they fill and empty.
structure Attendance where
  people : ExtTreeMap ConnectionId Identity
  places : Finset (ConnectionId × String)

namespace Attendance

def empty : Attendance := ⟨∅, ∅⟩

def members (a : Attendance) (room : String) : Finset ConnectionId :=
  (a.places.filter (·.2 = room)).image (·.1)

def rooms (a : Attendance) (id : ConnectionId) : Finset String :=
  (a.places.filter (·.1 = id)).image (·.2)

def account (a : Attendance) (id : ConnectionId) : Option Roster.Account :=
  a.people[id]?.map fun who => ⟨who, a.rooms id⟩

def lookup (a : Attendance) (name : String) : Option ConnectionId :=
  (a.people.toList.find? (·.2.name = name)).map (·.1)

def insert (a : Attendance) (id : ConnectionId) (who : Identity) : Attendance :=
  { a with people := a.people.insert id who }

def remove (a : Attendance) (id : ConnectionId) : Attendance :=
  ⟨a.people.erase id, a.places.filter (·.1 ≠ id)⟩

def join (a : Attendance) (id : ConnectionId) (room : String) : Roster.JoinOutcome × Attendance :=
  if id ∉ a.people then (.unknownConnection, a)
  else if (id, room) ∈ a.places then (.alreadyMember, a)
  else (.joined, { a with places := Insert.insert (id, room) a.places })

def leave (a : Attendance) (id : ConnectionId) (room : String) : Roster.LeaveOutcome × Attendance :=
  if id ∉ a.people then (.unknownConnection, a)
  else if (id, room) ∉ a.places then (.notMember, a)
  else (.left ((a.members room).erase id).card, { a with places := a.places.erase (id, room) })

def act (a : Attendance) : Roster.Deed → Roster.Finding × Attendance
  | .insert id who _ => (.done, a.insert id who)
  | .remove id => (.entry (a.account id), a.remove id)
  | .join id room => (.joined (a.join id room).1, (a.join id room).2)
  | .leave id room => (.left (a.leave id room).1, (a.leave id room).2)
  | .entry id => (.entry (a.account id), a)
  | .lookup name => (.owner (a.lookup name), a)
  | .room room => (.members (if (a.members room).Nonempty then some (a.members room) else none), a)

-- Whoever is inserted is new, and so is its name.
def Permits (a : Attendance) : Roster.Deed → Prop
  | .insert id who _ => id ∉ a.people ∧ a.lookup who.name = none
  | _ => True

-- Every deed of a series is permitted by the time that it is done.
def Admits (a : Attendance) : List Roster.Deed → Prop
  | [] => True
  | d :: ds => a.Permits d ∧ (a.act d).2.Admits ds

def run (a : Attendance) : List Roster.Deed → List Roster.Finding × Attendance
  | [] => ([], a)
  | d :: ds => ((a.act d).1 :: ((a.act d).2.run ds).1, ((a.act d).2.run ds).2)

variable {a : Attendance} {id id' : ConnectionId} {room name : String}

theorem mem_members : id ∈ a.members room ↔ (id, room) ∈ a.places := by
  simp [members]

theorem mem_rooms : room ∈ a.rooms id ↔ (id, room) ∈ a.places := by
  simp [rooms]

theorem mem_remove : (id', room) ∈ (a.remove id).places ↔ id ≠ id' ∧ (id', room) ∈ a.places := by
  simp [remove, and_comm, eq_comm]

theorem lookup_eq_none_iff :
    a.lookup name = none ↔
      ∀ (id : ConnectionId) (who : Identity), a.people[id]? = some who → who.name ≠ name := by
  simp [lookup, ExtTreeMap.mem_toList_iff_getElem?_eq_some]

theorem of_lookup (h : a.lookup name = some id) :
    ∃ who, a.people[id]? = some who ∧ who.name = name := by
  have ⟨⟨_, who⟩, hf, hi⟩ := Option.map_eq_some_iff.mp h
  cases hi
  have hm := ExtTreeMap.mem_toList_iff_getElem?_eq_some.mp (List.mem_of_find?_eq_some hf)
  exact ⟨who, hm, by simpa using List.find?_some hf⟩

end Attendance

namespace Roster

def run (r : Roster) : List Deed → List Finding × Roster
  | [] => ([], r)
  | d :: ds => ((r.act d).1 :: ((r.act d).2.run ds).1, ((r.act d).2.run ds).2)

-- A roster shows an attendance: the same people under their names, and the same places on both sides.
structure Depicts (r : Roster) (a : Attendance) : Prop where
  people     : ∀ id, (r.entry? id).map (·.identity) = a.people[id]?
  owner_iff  : ∀ name o, r.directory.owner? name = some o ↔ a.people[o.connection]? = some ⟨o.user, name⟩
  isIn_iff   : ∀ id room, r.IsIn id room ↔ (id, room) ∈ a.places
  member_iff : ∀ room id, r.HasMember room id ↔ (id, room) ∈ a.places
  inhabited  : ∀ room m, r.room? room = some m → ∃ id, id ∈ m.members

theorem depicts_empty : empty.Depicts .empty where
  people _ := by simp [Roster.entry?, empty, Attendance.empty]
  owner_iff _ _ := by simp [Directory.owner?, Directory.empty, empty, Attendance.empty]
  isIn_iff _ _ := by simp [IsIn, entry?, empty, Attendance.empty]
  member_iff _ _ := by simp [HasMember, room?, empty, Attendance.empty]
  inhabited _ _ h := by simp [room?, empty] at h

namespace Depicts

variable {r : Roster} {a : Attendance} {id : ConnectionId} {e : Entry} {who : Identity} {box : Nat}
  {room name : String}

theorem isLive_iff (h : r.Depicts a) : r.IsLive id ↔ id ∈ a.people := by
  rw [ExtTreeMap.mem_iff_isSome_getElem?, ← h.people, Option.isSome_map, Roster.isLive_iff,
    Option.isSome_iff_exists]

theorem identity (h : r.Depicts a) (he : r.entry? id = some e) : a.people[id]? = some e.identity := by
  rw [← h.people, he, Option.map_some]

theorem mem_rooms (h : r.Depicts a) (he : r.entry? id = some e) :
    room ∈ e.rooms ↔ (id, room) ∈ a.places := by
  simp [← h.isIn_iff, IsIn, he]

theorem account_eq (h : r.Depicts a) : r.account id = a.account id := by
  rw [account, Attendance.account, ← h.people]
  cases he : r.entry? id
  case none => rfl
  case some e =>
    have hr : e.rooms.toList.toFinset = a.rooms id := by
      ext room
      simp [Attendance.mem_rooms, h.mem_rooms he]
    simp [hr]

theorem lookup_eq (h : r.Depicts a) : r.lookup name = a.lookup name := by
  cases ha : a.lookup name
  case none =>
    have hn := Attendance.lookup_eq_none_iff.mp ha
    refine Option.map_eq_none_iff.mpr (Option.eq_none_iff_forall_ne_some.mpr fun o ho => ?_)
    exact hn _ _ ((h.owner_iff name o).mp ho) rfl
  case some id =>
    have ⟨who, hw, hn⟩ := Attendance.of_lookup ha
    cases hn
    exact Directory.lookup_eq_some_iff.mpr ⟨who.user, (h.owner_iff _ _).mpr hw⟩

-- Names tell people apart.
theorem name_inj (h : r.Depicts a) {id' : ConnectionId} {who' : Identity} (hi : a.people[id]? = some who)
    (hi' : a.people[id']? = some who') (hn : who.name = who'.name) : id = id' := by
  have ho := (h.owner_iff who.name ⟨id, who.user⟩).mpr hi
  have ho' := (h.owner_iff who.name ⟨id', who'.user⟩).mpr (hn ▸ hi')
  exact congrArg Owner.connection (Option.some.inj (ho.symm.trans ho'))

theorem toFinset_members (h : r.Depicts a) {m : Room} (hm : r.room? room = some m) :
    m.members.toList.toFinset = a.members room := by
  ext id
  rw [List.mem_toFinset, ExtTreeSet.mem_toList, Attendance.mem_members, ← h.member_iff]
  simp [HasMember, hm]

theorem room?_isSome_iff (h : r.Depicts a) :
    (r.room? room).isSome ↔ ∃ id, (id, room) ∈ a.places := by
  constructor
  case mp =>
    intro hs
    have ⟨m, hm⟩ := Option.isSome_iff_exists.mp hs
    have ⟨id, hi⟩ := h.inhabited room m hm
    exact ⟨id, (h.member_iff room id).mp ⟨m, hm, hi⟩⟩
  case mpr =>
    intro ⟨id, hi⟩
    have ⟨m, hm, _⟩ := (h.member_iff room id).mpr hi
    exact Option.isSome_of_eq_some hm

theorem room_eq (h : r.Depicts a) :
    (r.room? room).map (fun m => m.members.toList.toFinset) =
      if (a.members room).Nonempty then some (a.members room) else none := by
  have hn : (a.members room).Nonempty ↔ (r.room? room).isSome := by
    simp [Finset.Nonempty, Attendance.mem_members, h.room?_isSome_iff]
  cases hm : r.room? room
  case none => simp [hn, hm]
  case some m => simp [hn, hm, h.toFinset_members hm]

theorem insert (h : r.Depicts a) (hi : id ∉ a.people) (hn : a.lookup who.name = none) :
    (r.insert id who box).Depicts (a.insert id who) where
  people id' := by
    simp only [entry?_insert, Attendance.insert, ExtTreeMap.getElem?_insert,
      LawfulEqCmp.compare_eq_iff_eq]
    split
    case isTrue => rfl
    case isFalse => exact h.people id'
  owner_iff name o := by
    have hw := Attendance.lookup_eq_none_iff.mp hn
    simp only [Roster.insert, Directory.owner?_claim, Attendance.insert, ExtTreeMap.getElem?_insert,
      LawfulEqCmp.compare_eq_iff_eq]
    by_cases hc : id = o.connection
    case pos =>
      -- The id is new, so whatever it owns is what it has just been given.
      have hl : ¬ r.directory.owner? name = some o := by
        rw [h.owner_iff, ← hc, ExtTreeMap.getElem?_eq_none hi]
        simp
      cases o
      cases who
      split <;> simp_all
    case neg =>
      by_cases hd : who.name = name
      case pos =>
        have := hw o.connection ⟨o.user, name⟩
        cases o
        simp_all
      case neg => simp [hc, hd, h.owner_iff]
  isIn_iff id' room := by
    rw [isIn_insert (h.isLive_iff.not.mpr hi), h.isIn_iff]
    rfl
  member_iff := h.member_iff
  inhabited := h.inhabited

theorem remove (h : r.Depicts a) : (r.remove id).Depicts (a.remove id) where
  people id' := by
    simp only [entry?_remove, Attendance.remove, ExtTreeMap.getElem?_erase, LawfulEqCmp.compare_eq_iff_eq]
    split
    case isTrue => rfl
    case isFalse => exact h.people id'
  owner_iff name o := by
    simp only [Attendance.remove, ExtTreeMap.getElem?_erase, LawfulEqCmp.compare_eq_iff_eq]
    cases he : r.entry? id
    case none =>
      have hp : a.people[id]? = none := by rw [← h.people, he, Option.map_none]
      rw [remove_of_not_isLive (not_isLive_iff.mpr he), h.owner_iff]
      split
      case isTrue hd => rw [← hd, hp]
      case isFalse => rfl
    case some e =>
      have hp := h.identity he
      have hk : r.lookup e.identity.name = some id :=
        Directory.lookup_eq_some_iff.mpr ⟨e.identity.user, (h.owner_iff _ _).mpr hp⟩
      rw [directory_remove he, Directory.owner?_release hk]
      by_cases hn : e.identity.name = name
      case pos =>
        have hc (ho : a.people[o.connection]? = some ⟨o.user, name⟩) : id = o.connection :=
          h.name_inj hp ho hn
        simp only [hn, if_true, reduceCtorEq, false_iff]
        split
        case isTrue => simp
        case isFalse hd => exact fun ho => hd (hc ho)
      case neg =>
        simp only [hn, if_false, h.owner_iff]
        split
        case isTrue hd =>
          rw [← hd, hp]
          simp only [Option.some.injEq, reduceCtorEq, iff_false]
          exact fun hi => hn (congrArg Identity.name hi)
        case isFalse => rfl
  isIn_iff id' room := by rw [isIn_remove, h.isIn_iff, Attendance.mem_remove]
  member_iff room id' := by
    have hi room : r.HasMember room id → r.IsIn id room := by simp [h.member_iff, h.isIn_iff]
    rw [hasMember_remove hi, h.member_iff, Attendance.mem_remove]
  inhabited room m hm :=
    have ⟨_, _, _, hi⟩ := of_room?_remove h.inhabited hm
    hi

theorem join (h : r.Depicts a) (id : ConnectionId) (room : String) :
    (r.join id room).1 = (a.join id room).1 ∧ (r.join id room).2.Depicts (a.join id room).2 := by
  cases he : r.entry? id
  case none =>
    have hn : id ∉ a.people := h.isLive_iff.not.mp (not_isLive_iff.mpr he)
    simpa [Roster.join, he, Attendance.join, hn] using h
  case some e =>
    have hl : id ∈ a.people := h.isLive_iff.mp (.of_some he)
    by_cases hm : room ∈ e.rooms
    case pos =>
      have hp := (h.mem_rooms he).mp hm
      simpa [join_of_mem he hm, Attendance.join, hl, hp] using h
    case neg =>
      have hp : (id, room) ∉ a.places := (h.mem_rooms he).not.mp hm
      have hj : a.join id room = (.joined, { a with places := Insert.insert (id, room) a.places }) := by
        simp [Attendance.join, hl, hp]
      rw [hj]
      refine ⟨by rw [join_joined he hm], ?people, ?owner_iff, ?isIn_iff, ?member_iff, ?inhabited⟩
      case people => exact fun id' => (map_entry?_join _ fun _ _ => rfl).trans (h.people id')
      case owner_iff =>
        intro name o
        rw [directory_join]
        exact h.owner_iff name o
      case isIn_iff =>
        intro id' room'
        simp [isIn_join he hm, h.isIn_iff, eq_comm]
      case member_iff =>
        intro room' id'
        simp [hasMember_join he hm, h.member_iff, eq_comm]
      case inhabited => exact fun _ _ => inhabited_join h.inhabited he hm

-- Those who are left in a room are counted there, if it is still one.
theorem left_eq (h : r.Depicts a) (he : r.entry? id = some e) (hm : room ∈ e.rooms) :
    (r.leave id room).1 = .left ((a.members room).erase id).card := by
  have ⟨m, hr, _⟩ := (h.member_iff room id).mpr ((h.mem_rooms he).mp hm)
  have hx : (expel r.rooms room id)[room]? = m.without id := by
    change r.rooms[room]? = some m at hr
    simp [getElem?_expel, hr]
  have hs : (m.leave id).members.toList.toFinset = (a.members room).erase id := by
    ext id'
    rw [← h.toFinset_members hr]
    simp [Room.mem_leave, eq_comm]
  rw [leave_left he hm, hx, Room.getD_count_without, ← hs, Room.card_members]

theorem leave (h : r.Depicts a) (id : ConnectionId) (room : String) :
    (r.leave id room).1 = (a.leave id room).1 ∧ (r.leave id room).2.Depicts (a.leave id room).2 := by
  cases he : r.entry? id
  case none =>
    have hn : id ∉ a.people := h.isLive_iff.not.mp (not_isLive_iff.mpr he)
    simpa [Roster.leave, he, Attendance.leave, hn] using h
  case some e =>
    have hl : id ∈ a.people := h.isLive_iff.mp (.of_some he)
    by_cases hm : room ∈ e.rooms
    case neg =>
      have hp : (id, room) ∉ a.places := (h.mem_rooms he).not.mp hm
      simpa [leave_of_not_mem he hm, Attendance.leave, hl, hp] using h
    case pos =>
      have hp := (h.mem_rooms he).mp hm
      have hj : a.leave id room =
          (.left ((a.members room).erase id).card, { a with places := a.places.erase (id, room) }) := by
        simp [Attendance.leave, hl, hp]
      rw [hj]
      refine ⟨h.left_eq he hm, ?people, ?owner_iff, ?isIn_iff, ?member_iff, ?inhabited⟩
      case people => exact fun id' => (map_entry?_leave _ fun _ _ => rfl).trans (h.people id')
      case owner_iff =>
        intro name o
        rw [directory_leave]
        exact h.owner_iff name o
      case isIn_iff =>
        intro id' room'
        simp [isIn_leave he hm, h.isIn_iff, eq_comm]
      case member_iff =>
        intro room' id'
        simp [hasMember_leave he hm, h.member_iff, eq_comm]
      case inhabited =>
        intro room' m hm'
        obtain ⟨_, _, _, hi⟩ := of_room?_leave h.inhabited he hm hm'
        exact hi

theorem mem_people (h : r.Depicts a) (hp : (id, room) ∈ a.places) : id ∈ a.people :=
  h.isLive_iff.mp ((h.isIn_iff id room).mpr hp).isLive

theorem join_eq (h : r.Depicts a) :
    (r.join id room).1 =
      if (id, room) ∈ a.places then .alreadyMember
      else if id ∈ a.people then .joined else .unknownConnection := by
  rw [(h.join id room).1, Attendance.join]
  by_cases hp : (id, room) ∈ a.places
  case pos => simp [hp, h.mem_people hp]
  case neg => by_cases hl : id ∈ a.people <;> simp [hp, hl]

theorem leave_eq (h : r.Depicts a) :
    (r.leave id room).1 =
      if (id, room) ∈ a.places then .left ((a.members room).erase id).card
      else if id ∈ a.people then .notMember else .unknownConnection := by
  rw [(h.leave id room).1, Attendance.leave]
  by_cases hp : (id, room) ∈ a.places
  case pos => simp [hp, h.mem_people hp]
  case neg => by_cases hl : id ∈ a.people <;> simp [hp, hl]

end Depicts

variable {r : Roster} {a : Attendance} {d : Deed} {ds : List Deed}

-- What is done to both, and asked of both, has the same answer, and keeps them alike.
theorem Depicts.act (h : r.Depicts a) (hp : a.Permits d) :
    (r.act d).1 = (a.act d).1 ∧ (r.act d).2.Depicts (a.act d).2 := by
  cases d
  case insert id who box => exact ⟨rfl, h.insert hp.1 hp.2⟩
  case remove id => exact ⟨congrArg _ h.account_eq, h.remove⟩
  case join id room =>
    have ⟨ho, hd⟩ := h.join id room
    exact ⟨congrArg _ ho, hd⟩
  case leave id room =>
    have ⟨ho, hd⟩ := h.leave id room
    exact ⟨congrArg _ ho, hd⟩
  case entry id => exact ⟨congrArg _ h.account_eq, h⟩
  case lookup name => exact ⟨congrArg _ h.lookup_eq, h⟩
  case room room => exact ⟨congrArg _ h.room_eq, h⟩

theorem Depicts.run (h : r.Depicts a) (hp : a.Admits ds) :
    (r.run ds).1 = (a.run ds).1 ∧ (r.run ds).2.Depicts (a.run ds).2 := by
  induction ds generalizing r a
  case nil => exact ⟨rfl, h⟩
  case cons d ds ih =>
    have ⟨hd, hp⟩ := hp
    have ⟨hf, h⟩ := h.act hd
    have ⟨hfs, h⟩ := ih h hp
    exact ⟨by simp [Roster.run, Attendance.run, hf, hfs], h⟩

theorem join_unchanged {id : ConnectionId} {room : String} (h : (r.join id room).1 ≠ .joined) :
    (r.join id room).2 = r := by
  cases he : r.entry? id
  case none => simp [join, he]
  case some e =>
    by_cases hm : room ∈ e.rooms
    case pos => rw [join_of_mem he hm]
    case neg => simp [join_joined he hm] at h

theorem leave_unchanged {id : ConnectionId} {room : String} (h : ∀ n, (r.leave id room).1 ≠ .left n) :
    (r.leave id room).2 = r := by
  cases he : r.entry? id
  case none => simp [leave, he]
  case some e =>
    by_cases hm : room ∈ e.rooms
    case neg => rw [leave_of_not_mem he hm]
    case pos => simp [leave_left he hm] at h

-- Whatever is done to a roster and asked of it, in whatever order, it answers as the attendance does: with
-- one set of people and one set of pairs, to which a join adds a pair, from which a leave takes one away,
-- and from which a removal takes all the pairs of a connection.
theorem refines (hp : Attendance.empty.Admits ds) :
    let r := (empty.run ds).2
    let a := (Attendance.empty.run ds).2
    (empty.run ds).1 = (Attendance.empty.run ds).1 ∧ r.Depicts a ∧
    ∀ id room,
      ((r.join id room).1 = .joined ↔ id ∈ a.people ∧ (id, room) ∉ a.places) ∧
      ((r.join id room).1 = .alreadyMember ↔ (id, room) ∈ a.places) ∧
      ((r.join id room).1 = .unknownConnection ↔ id ∉ a.people) ∧
      (∀ n, (r.leave id room).1 = .left n ↔
        (id, room) ∈ a.places ∧ n = ((a.members room).erase id).card) ∧
      ((r.leave id room).1 = .notMember ↔ id ∈ a.people ∧ (id, room) ∉ a.places) ∧
      ((r.leave id room).1 = .unknownConnection ↔ id ∉ a.people) ∧
      ((r.join id room).1 ≠ .joined → (r.join id room).2 = r) ∧
      ((∀ n, (r.leave id room).1 ≠ .left n) → (r.leave id room).2 = r) ∧
      (r.account id = none → r.remove id = r) ∧
      ((r.room? room).isSome ↔ ∃ id, (id, room) ∈ a.places) := by
  have ⟨hf, h⟩ := depicts_empty.run hp
  refine ⟨hf, h, fun id room => ?_⟩
  have hl : (id, room) ∈ (Attendance.empty.run ds).2.places → id ∈ (Attendance.empty.run ds).2.people :=
    h.mem_people
  have hr (hn : (empty.run ds).2.account id = none) : ¬ (empty.run ds).2.IsLive id :=
    not_isLive_iff.mpr (Option.map_eq_none_iff.mp hn)
  refine ⟨?joined, ?already, ?unknown, ?left, ?absent, ?unknown', join_unchanged, leave_unchanged,
    fun hn => remove_of_not_isLive (hr hn), h.room?_isSome_iff⟩
  case joined => rw [h.join_eq]; grind
  case already => rw [h.join_eq]; grind
  case unknown => rw [h.join_eq]; grind
  case left => intro n; rw [h.leave_eq]; grind
  case absent => rw [h.leave_eq]; grind
  case unknown' => rw [h.leave_eq]; grind

-- One who comes, joins a room twice and goes again.
theorem refines_visitor :
    let ds : List Deed :=
      [.insert ⟨1⟩ ⟨7, "ada"⟩ 0, .join ⟨1⟩ "hall", .join ⟨1⟩ "hall", .leave ⟨1⟩ "hall",
        .leave ⟨1⟩ "hall", .remove ⟨1⟩, .lookup "ada"]
    Attendance.empty.Admits ds ∧ (empty.run ds).1 =
      [.done, .joined .joined, .joined .alreadyMember, .left (.left 0), .left .notMember,
        .entry (some ⟨⟨7, "ada"⟩, ∅⟩), .owner none] := by
  intro ds
  have hp : Attendance.empty.Admits ds := by
    simp [ds, Attendance.Admits, Attendance.Permits, Attendance.empty, Attendance.lookup]
  have hf : (Attendance.empty.run ds).1 =
      [.done, .joined .joined, .joined .alreadyMember, .left (.left 0), .left .notMember,
        .entry (some ⟨⟨7, "ada"⟩, ∅⟩), .owner none] := by
    decide +kernel
  exact ⟨hp, (refines hp).1.trans hf⟩

end Roster
end Parley
