import Parley.Proofs.Roster.Lookup
import Parley.Roster.RoomName

namespace Parley

open Std

namespace RoomName

theorem fault?_eq_none_iff {name : String} :
    fault? name = none ↔
      name ≠ "" ∧ name.utf8ByteSize ≤ sizeLimit ∧ ∀ c ∈ name.toList, ¬ Text.IsControl c := by
  simp only [fault?]
  split
  case isTrue h => simp [h]
  case isFalse h =>
    split
    case isTrue hs => simp [Nat.not_le.mpr hs]
    case isFalse hs =>
      split
      case isTrue hc =>
        have ⟨c, hm, hc⟩ := List.any_eq_true.mp hc
        simp only [reduceCtorEq, false_iff, not_and]
        exact fun _ _ hn => hn c hm (of_decide_eq_true hc)
      case isFalse hc =>
        simp only [List.any_eq_true, decide_eq_true_eq, not_exists, not_and] at hc
        exact ⟨fun _ => ⟨h, Nat.le_of_not_lt hs, hc⟩, fun _ => rfl⟩

end RoomName

namespace Roster

-- Membership as the room has it.
def HasMember (r : Roster) (room : String) (id : ConnectionId) : Prop :=
  ∃ m, r.room? room = some m ∧ id ∈ m.members

-- Membership as the connection has it.
def IsIn (r : Roster) (id : ConnectionId) (room : String) : Prop :=
  ∃ e, r.entry? id = some e ∧ room ∈ e.rooms

-- The parts of a roster agree: rooms and connections tell the same of who is where, names belong to exactly one
-- connection each, and no room is empty.
structure Consistent (r : Roster) : Prop where
  member_iff : ∀ room id, r.HasMember room id ↔ r.IsIn id room
  inhabited  : ∀ room m, r.room? room = some m → ∃ id, id ∈ m.members
  named      : ∀ room m, r.room? room = some m → m.name = room ∧ RoomName.fault? room = none
  owner_iff  : ∀ name o, r.directory.owner? name = some o ↔
    ∃ e, r.entry? o.connection = some e ∧ e.identity = ⟨o.user, name⟩
  count_eq   : r.directory.count = r.count

variable {r s : Roster} {id id' : ConnectionId} {e e' : Entry} {who : Identity} {box : Nat}
  {room room' name : String}

theorem IsIn.isLive (h : r.IsIn id room) : r.IsLive id :=
  have ⟨_, he, _⟩ := h
  .of_some he

theorem consistent_empty : Consistent empty where
  member_iff _ _ := by simp [HasMember, IsIn, room?, entry?, empty]
  inhabited _ _ h := by simp [room?, empty] at h
  named _ _ h := by simp [room?, empty] at h
  owner_iff _ _ := by simp [Directory.owner?, Directory.empty, entry?, empty]
  count_eq := rfl

theorem isIn_insert (hi : ¬ r.IsLive id) : (r.insert id who box).IsIn id' room ↔ r.IsIn id' room := by
  simp only [IsIn, entry?_insert]
  split
  case isTrue hd => simp [← hd, not_isLive_iff.mp hi]
  case isFalse => rfl

theorem hasMember_insert : (r.insert id who box).HasMember room id' ↔ r.HasMember room id' :=
  .rfl

theorem isIn_remove : (r.remove id).IsIn id' room ↔ id ≠ id' ∧ r.IsIn id' room := by
  simp only [IsIn, entry?_remove]
  split <;> simp_all

-- What is left of a room when one who is in it, or not, goes away.
theorem hasMember_remove (h : ∀ room, r.HasMember room id → r.IsIn id room) :
    (r.remove id).HasMember room id' ↔ id ≠ id' ∧ r.HasMember room id' := by
  -- Nobody who is not in a room is a member of it.
  have hne (hn : ¬ r.IsIn id room) (hm : r.HasMember room id') : id ≠ id' := by
    rintro rfl
    exact hn (h room hm)
  cases he : r.entry? id
  case none =>
    have hn : ¬ r.IsIn id room := by simp [IsIn, he]
    rw [remove_of_not_isLive (not_isLive_iff.mpr he)]
    exact ⟨fun hm => ⟨hne hn hm, hm⟩, And.right⟩
  case some e =>
    simp only [HasMember, room?_remove he]
    split
    case isTrue => exact Room.exists_mem_bind_without
    case isFalse hr =>
      have hn : ¬ r.IsIn id room := by simpa [IsIn, he] using hr
      exact ⟨fun hm => ⟨hne hn hm, hm⟩, And.right⟩

theorem isIn_join (he : r.entry? id = some e) (hm : room ∉ e.rooms) :
    (r.join id room).2.IsIn id' room' ↔ (id = id' ∧ room = room') ∨ r.IsIn id' room' := by
  simp only [IsIn, entry?_join he hm]
  by_cases hd : id = id'
  case pos => subst hd; simp [he, ExtTreeSet.mem_insert]
  case neg => simp [hd]

theorem hasMember_join (he : r.entry? id = some e) (hm : room ∉ e.rooms) :
    (r.join id room).2.HasMember room' id' ↔ (id = id' ∧ room = room') ∨ r.HasMember room' id' := by
  simp only [HasMember, room?_join he hm]
  by_cases hn : room = room'
  case neg => simp [hn]
  case pos =>
    subst hn
    cases r.room? room <;> simp [Room.mem_join, Room.new]

theorem isIn_leave (he : r.entry? id = some e) (hm : room ∈ e.rooms) :
    (r.leave id room).2.IsIn id' room' ↔ ¬ (id = id' ∧ room = room') ∧ r.IsIn id' room' := by
  simp only [IsIn, entry?_leave he hm]
  by_cases hd : id = id'
  case pos => subst hd; simp [he, ExtTreeSet.mem_erase]
  case neg => simp [hd]

theorem hasMember_leave (he : r.entry? id = some e) (hm : room ∈ e.rooms) :
    (r.leave id room).2.HasMember room' id' ↔ ¬ (id = id' ∧ room = room') ∧ r.HasMember room' id' := by
  simp only [HasMember, room?_leave he hm]
  by_cases hn : room = room'
  case pos => subst hn; simp [Room.exists_mem_bind_without]
  case neg => simp [hn]

-- Somebody is counted in a room that was left if and only if somebody is still there.
theorem remaining_pos_iff (he : r.entry? id = some e) (hm : room ∈ e.rooms) :
    0 < ((expel r.rooms room id)[room]?.map Room.count).getD 0 ↔ ∃ v, (r.leave id room).2.HasMember room v := by
  have hx : (r.leave id room).2.room? room = (expel r.rooms room id)[room]? := by
    rw [leave_left he hm]
    rfl
  simp only [HasMember, hx]
  cases (expel r.rooms room id)[room]?
  case none => simp
  case some m =>
    have hc : 0 < m.count ↔ ∃ v, v ∈ m.members := by
      rw [Nat.pos_iff_ne_zero, ne_eq, Room.count_eq_zero_iff]
      simp
    simpa using hc

-- What is left of a room was there before, under the same name, and somebody is in it.
theorem of_room?_remove (h : ∀ room m, r.room? room = some m → ∃ id, id ∈ m.members) {m : Room}
    (hm : (r.remove id).room? room = some m) :
    ∃ m', r.room? room = some m' ∧ m'.name = m.name ∧ ∃ id, id ∈ m.members := by
  cases he : r.entry? id
  case none =>
    rw [remove_of_not_isLive (not_isLive_iff.mpr he)] at hm
    exact ⟨m, hm, rfl, h _ _ hm⟩
  case some e =>
    rw [room?_remove he] at hm
    split at hm
    case isTrue =>
      have ⟨m', hm', hl, hi⟩ := Room.of_bind_without hm
      exact ⟨m', hm', hl ▸ rfl, hi⟩
    case isFalse => exact ⟨m, hm, rfl, h _ _ hm⟩

theorem of_room?_leave (h : ∀ room m, r.room? room = some m → ∃ id, id ∈ m.members) {m : Room}
    (he : r.entry? id = some e) (hi : room ∈ e.rooms) (hm : (r.leave id room).2.room? room' = some m) :
    ∃ m', r.room? room' = some m' ∧ m'.name = m.name ∧ ∃ id, id ∈ m.members := by
  rw [room?_leave he hi] at hm
  split at hm
  case isTrue hn =>
    have ⟨m', hm', hl, hi⟩ := Room.of_bind_without hm
    exact ⟨m', hn ▸ hm', hl ▸ rfl, hi⟩
  case isFalse => exact ⟨m, hm, rfl, h _ _ hm⟩

-- Somebody is in a room that has just been joined.
theorem inhabited_join (h : ∀ room m, r.room? room = some m → ∃ id, id ∈ m.members) {m : Room}
    (he : r.entry? id = some e) (hi : room ∉ e.rooms) (hm : (r.join id room).2.room? room' = some m) :
    ∃ id, id ∈ m.members := by
  rw [room?_join he hi] at hm
  split at hm
  case isTrue => exact ⟨id, Option.some.inj hm ▸ Room.mem_join.mpr (.inl rfl)⟩
  case isFalse => exact h _ _ hm

namespace Consistent

theorem lookup_eq_some_iff (h : r.Consistent) :
    r.lookup name = some id ↔ ∃ e, r.entry? id = some e ∧ e.identity.name = name := by
  simp only [lookup, Directory.lookup_eq_some_iff, h.owner_iff]
  constructor
  case mp =>
    rintro ⟨u, e, he, hi⟩
    exact ⟨e, he, congrArg Identity.name hi⟩
  case mpr =>
    rintro ⟨e, he, rfl⟩
    exact ⟨e.identity.user, e, he, rfl⟩

theorem lookup_name (h : r.Consistent) (he : r.entry? id = some e) :
    r.lookup e.identity.name = some id :=
  h.lookup_eq_some_iff.mpr ⟨e, he, rfl⟩

-- Names tell connections apart.
theorem name_inj (h : r.Consistent) (he : r.entry? id = some e) (he' : r.entry? id' = some e')
    (hn : e.identity.name = e'.identity.name) : id = id' :=
  Option.some.inj <| (h.lookup_name he).symm.trans <| hn ▸ h.lookup_name he'

theorem lookup_eq_none (h : r.lookup name = none) : r.directory.owner? name = none :=
  Option.map_eq_none_iff.mp h

theorem insert (h : r.Consistent) (hi : ¬ r.IsLive id) (hn : r.lookup who.name = none) :
    (r.insert id who box).Consistent where
  member_iff room id' := by rw [hasMember_insert, isIn_insert hi, h.member_iff]
  inhabited := h.inhabited
  named := h.named
  owner_iff name o := by
    have ho := lookup_eq_none hn
    simp only [Roster.insert, Directory.owner?_claim]
    change _ ↔ ∃ e, Roster.entry? (r.insert id who box) o.connection = some e ∧ _
    rw [entry?_insert]
    by_cases hc : id = o.connection
    case pos =>
      -- The id is new, so whatever it owns is what it has just been given.
      have hl : ¬ r.directory.owner? name = some o := by
        simp [h.owner_iff, ← hc, not_isLive_iff.mp hi]
      cases o
      cases who
      split <;> simp_all
    case neg =>
      by_cases hw : who.name = name
      case pos =>
        have := h.owner_iff name o
        cases o
        simp_all
      case neg => simp [hc, hw, h.owner_iff]
  count_eq := by
    rw [count_insert hi, ← h.count_eq]
    exact Directory.count_claim (lookup_eq_none hn)

theorem remove (h : r.Consistent) : (r.remove id).Consistent := by
  by_cases hl : r.IsLive id
  case neg => exact (remove_of_not_isLive hl).symm ▸ h
  case pos =>
    have ⟨e, he⟩ := isLive_iff.mp hl
    have hk := h.lookup_name he
    refine ⟨?member_iff, ?inhabited, ?named, ?owner_iff, ?count_eq⟩
    case member_iff =>
      intro room id'
      rw [hasMember_remove fun room => (h.member_iff room id).mp, h.member_iff, isIn_remove]
    case inhabited =>
      intro room m hm
      have ⟨_, _, _, hi⟩ := of_room?_remove h.inhabited hm
      exact hi
    case named =>
      intro room m hm
      have ⟨m', hm', hn, _⟩ := of_room?_remove h.inhabited hm
      exact hn ▸ h.named _ _ hm'
    case owner_iff =>
      intro name o
      rw [directory_remove he, Directory.owner?_release hk, entry?_remove]
      by_cases hn : e.identity.name = name
      case pos =>
        have hc {e'} (he' : r.entry? o.connection = some e') (hi : e'.identity = ⟨o.user, name⟩) :
            id = o.connection :=
          h.name_inj he he' (by simp [hi, hn])
        simp only [hn, if_true, reduceCtorEq, false_iff]
        rintro ⟨e', he', hi⟩
        split at he'
        case isTrue => cases he'
        case isFalse hd => exact hd (hc he' hi)
      case neg =>
        simp only [hn, if_false, h.owner_iff]
        split
        case isTrue hd =>
          simp only [← hd, he, Option.some.injEq, reduceCtorEq, false_and, exists_false, iff_false]
          rintro ⟨_, rfl, hi⟩
          exact hn (congrArg Identity.name hi)
        case isFalse => rfl
    case count_eq =>
      rw [directory_remove he, Directory.count_release hk, count_remove hl, h.count_eq]

-- Whoever moves between rooms keeps its name.
theorem owner_iff_of_map_identity (h : r.Consistent) (hd : s.directory = r.directory)
    (hi : ∀ id, (s.entry? id).map (·.identity) = (r.entry? id).map (·.identity)) (name : String)
    (o : Owner) :
    s.directory.owner? name = some o ↔
      ∃ e, s.entry? o.connection = some e ∧ e.identity = ⟨o.user, name⟩ := by
  rw [hd, h.owner_iff, ← Option.map_eq_some_iff, ← Option.map_eq_some_iff, hi]

theorem join (h : r.Consistent) (hf : RoomName.fault? room = none) :
    (r.join id room).2.Consistent := by
  cases he : r.entry? id
  case none => simpa [Roster.join, he] using h
  case some e =>
    by_cases hm : room ∈ e.rooms
    case pos => exact (join_of_mem he hm).symm ▸ h
    case neg =>
      refine ⟨?member_iff, ?inhabited, ?named, ?owner_iff, ?count_eq⟩
      case member_iff =>
        intro room' id'
        rw [hasMember_join he hm, isIn_join he hm, h.member_iff]
      case inhabited => exact fun _ _ => inhabited_join h.inhabited he hm
      case named =>
        intro room' m hm'
        rw [room?_join he hm] at hm'
        split at hm'
        case isTrue hn =>
          subst hn
          refine ⟨?_, hf⟩
          rw [← Option.some.inj hm']
          cases hr : r.room? room
          case none => rfl
          case some m' => exact (h.named _ _ hr).1
        case isFalse => exact h.named _ _ hm'
      case owner_iff =>
        exact h.owner_iff_of_map_identity directory_join fun _ => map_entry?_join _ fun _ _ => rfl
      case count_eq => rw [directory_join, count_join, h.count_eq]

theorem leave (h : r.Consistent) : (r.leave id room).2.Consistent := by
  cases he : r.entry? id
  case none => simpa [Roster.leave, he] using h
  case some e =>
    by_cases hm : room ∈ e.rooms
    case neg => exact (leave_of_not_mem he hm).symm ▸ h
    case pos =>
      refine ⟨?member_iff, ?inhabited, ?named, ?owner_iff, ?count_eq⟩
      case member_iff =>
        intro room' id'
        rw [hasMember_leave he hm, isIn_leave he hm, h.member_iff]
      case inhabited =>
        intro room' m hm'
        obtain ⟨_, _, _, hi⟩ := of_room?_leave h.inhabited he hm hm'
        exact hi
      case named =>
        intro room' m hm'
        obtain ⟨m', hr, hn, _⟩ := of_room?_leave h.inhabited he hm hm'
        exact hn ▸ h.named _ _ hr
      case owner_iff =>
        exact h.owner_iff_of_map_identity directory_leave fun _ => map_entry?_leave _ fun _ _ => rfl
      case count_eq => rw [directory_leave, count_leave, h.count_eq]

-- A room is where its members say that they are, and goes by the name under which it is known.
theorem room?_le (h₁ : r.Consistent) (h₂ : s.Consistent) (he : ∀ id, r.entry? id = s.entry? id)
    {m : Room} (hm : r.room? room = some m) : s.room? room = some m := by
  have hi id : r.HasMember room id ↔ s.HasMember room id := by
    simp only [h₁.member_iff, h₂.member_iff, IsIn, he]
  have ⟨id, hid⟩ := h₁.inhabited _ _ hm
  have ⟨m', hm', _⟩ := (hi id).mp ⟨m, hm, hid⟩
  have hn : m'.name = m.name := (h₂.named _ _ hm').1.trans (h₁.named _ _ hm).1.symm
  have hs : m'.members = m.members := by
    apply ExtTreeSet.ext_mem
    intro id
    simpa [HasMember, hm, hm'] using (hi id).symm
  cases m; cases m'
  simp_all

theorem eq_of_entries (h₁ : r.Consistent) (h₂ : s.Consistent)
    (he : ∀ id, r.entry? id = s.entry? id) : r = s := by
  apply Roster.ext he
  case hd =>
    apply Directory.ext
    intro name
    apply Option.ext
    intro o
    simp only [h₁.owner_iff, h₂.owner_iff, he]
  case hr =>
    intro room
    apply Option.ext
    intro m
    exact ⟨h₁.room?_le h₂ he, h₂.room?_le h₁ fun id => (he id).symm⟩

end Consistent
end Roster
end Parley
