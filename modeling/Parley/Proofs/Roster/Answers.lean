import Mathlib.Data.List.Nodup
import Parley.Proofs.Roster.Consistent

namespace Parley

open Std

theorem compare_eq_lt_iff {s t : String} : compare s t = .lt ↔ s < t :=
  compareOfLessAndEq_eq_lt

namespace Roster

-- The name that a connection goes by.
def name? (r : Roster) (id : ConnectionId) : Option String := (r.entry? id).map (·.identity.name)

variable {r : Roster} {id id' : ConnectionId} {room name : String} {rooms names : List String} {u : UserInfo}

theorem pairwise_onlineUsers : r.onlineUsers.Pairwise (·.name < ·.name) := by
  rw [onlineUsers, Directory.users, List.pairwise_map]
  exact ExtTreeMap.ordered_keys_toList.imp compare_eq_lt_iff.mp

theorem length_onlineUsers : r.onlineUsers.length = r.directory.count := by
  rw [onlineUsers, Directory.users, List.length_map, ExtTreeMap.length_toList, Directory.count]

theorem isSome_connectionRooms_iff : (r.connectionRooms id).isSome ↔ r.IsLive id := by
  rw [connectionRooms, Option.isSome_map, isLive_iff, Option.isSome_iff_exists]

theorem pairwise_of_connectionRooms (h : r.connectionRooms id = some rooms) : rooms.Pairwise (· < ·) := by
  obtain ⟨e, _, rfl⟩ := Option.map_eq_some_iff.mp h
  exact ExtTreeSet.ordered_toList.imp compare_eq_lt_iff.mp

theorem exists_connectionRooms_iff : (∃ rooms, r.connectionRooms id = some rooms ∧ room ∈ rooms) ↔ r.IsIn id room := by
  simp [connectionRooms, IsIn]

namespace Consistent

variable (h : r.Consistent)

include h

theorem exists_of_mem_onlineUsers (hu : u ∈ r.onlineUsers) :
    ∃ v e, r.entry? v = some e ∧ u = .online e.identity := by
  have ⟨(name, o), ho, hu⟩ := List.mem_map.mp hu
  have ho := ExtTreeMap.mem_toList_iff_getElem?_eq_some.mp ho
  have ⟨e, he, hi⟩ := (h.owner_iff name o).mp ho
  exact ⟨o.connection, e, he, hi ▸ hu.symm⟩

theorem name?_inj (hn : r.name? id = some name) (hn' : r.name? id' = some name) : id = id' := by
  have ⟨_, he, hn⟩ := Option.map_eq_some_iff.mp hn
  have ⟨_, he', hn'⟩ := Option.map_eq_some_iff.mp hn'
  exact h.name_inj he he' (hn.trans hn'.symm)

theorem isSome_room?_iff : (r.room? room).isSome ↔ ∃ id, r.HasMember room id := by
  constructor
  case mp =>
    intro hr
    have ⟨m, hm⟩ := Option.isSome_iff_exists.mp hr
    have ⟨id, hi⟩ := h.inhabited room m hm
    exact ⟨id, m, hm, hi⟩
  case mpr =>
    rintro ⟨_, m, hm, _⟩
    exact Option.isSome_of_eq_some hm

theorem mem_rooms_iff : room ∈ r.rooms.keys ↔ ∃ v, r.HasMember room v := by
  rw [ExtTreeMap.mem_keys, ExtTreeMap.mem_iff_isSome_getElem?]
  exact h.isSome_room?_iff

theorem isSome_roomMembers_iff : (r.roomMembers room).isSome ↔ ∃ id, r.IsIn id room := by
  rw [roomMembers, Option.isSome_map, h.isSome_room?_iff]
  exact exists_congr fun id => h.member_iff room id

-- The names in a room are those of the connections in it: nobody is passed over, and nobody is named twice.
theorem exists_members (hr : r.roomMembers room = some names) :
    ∃ ids : List ConnectionId, ids.Nodup ∧ (∀ id, id ∈ ids ↔ r.IsIn id room) ∧
      (names.map some).Perm (ids.map r.name?) := by
  have ⟨m, hm, hn⟩ := Option.map_eq_some_iff.mp hr
  have hmem id : id ∈ m.ids ↔ r.IsIn id room := by
    rw [← h.member_iff, Room.ids, ExtTreeSet.mem_toList]
    simp [HasMember, hm]
  refine ⟨m.ids, ?nodup, hmem, ?perm⟩
  case nodup => exact ExtTreeSet.distinct_toList.imp fun hc he => hc (LawfulEqCmp.compare_eq_iff_eq.mpr he)
  case perm =>
    have hsome : ∀ id ∈ m.ids, (r.name? id).isSome := fun id hi => by
      obtain ⟨e, he, _⟩ := (hmem id).mp hi
      simp [name?, he]
    have heq : (m.ids.filterMap r.name?).map some = m.ids.map r.name? := by
      rw [List.map_filterMap_some_eq_filter_map_isSome, List.filter_eq_self, List.forall_mem_map]
      exact hsome
    rw [← heq, ← hn]
    exact (List.mergeSort_perm ..).map some

theorem exists_of_mem_roomMembers (hr : r.roomMembers room = some names) (hm : name ∈ names) :
    ∃ v e, r.entry? v = some e ∧ room ∈ e.rooms ∧ e.identity.name = name := by
  obtain ⟨ids, _, hi, hp⟩ := h.exists_members hr
  obtain ⟨v, hv, hn⟩ := List.mem_map.mp (hp.mem_iff.mp (List.mem_map_of_mem hm))
  obtain ⟨e, he, hr⟩ := (hi v).mp hv
  refine ⟨v, e, he, hr, ?_⟩
  simpa [name?, he] using hn

theorem pairwise_of_roomMembers (hr : r.roomMembers room = some names) : names.Pairwise (· < ·) := by
  have hle : names.Pairwise (· ≤ ·) := by
    obtain ⟨m, _, rfl⟩ := Option.map_eq_some_iff.mp hr
    have hsort (l : List String) : l.mergeSort.Pairwise fun s t => decide (s ≤ t) = true :=
      List.pairwise_mergeSort (by simpa using fun _ _ _ => String.le_trans) (by simpa using String.le_total) l
    exact (hsort _).imp of_decide_eq_true
  have hne : names.Nodup := by
    obtain ⟨ids, hd, hi, hp⟩ := h.exists_members hr
    have hinj : (ids.map r.name?).Nodup := by
      refine hd.map_on fun id hm id' hm' hn => ?_
      obtain ⟨e, he, _⟩ := (hi id).mp hm
      have hs : r.name? id = some e.identity.name := by simp [name?, he]
      exact h.name?_inj hs (hn ▸ hs)
    exact (hp.nodup_iff.mpr hinj).of_map some
  exact hle.imp₂ (fun _ _ => Std.lt_of_le_of_ne) hne

end Consistent
end Roster
end Parley
