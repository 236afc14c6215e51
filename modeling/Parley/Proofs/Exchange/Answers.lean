import Parley.Proofs.Exchange.Run
import Parley.Proofs.Roster.Answers

namespace Parley.Exchange

open Std

-- A connection is told that it is in a room, if it asks.
def Frequents (x : Exchange) (id : ConnectionId) (room : String) : Prop :=
  ∃ rooms, x.answer (.connectionRooms id) = .names (some rooms) ∧ room ∈ rooms

variable {x : Exchange} {id : ConnectionId} {room : String}

theorem frequents_iff : x.Frequents id room ↔ x.roster.IsIn id room := by
  rw [← Roster.exists_connectionRooms_iff]
  simp [Frequents, answer]

-- The users that are online are as many as the connections that are counted.  There are members of a room if some
-- connection is told that it is in that room, and then their names are those of all such connections, each of them
-- once.  Live connections, and no others, are told in which rooms they are, and as many rooms are counted as are told
-- to any of them.  All of this comes in ascending order.
theorem Run.answers_agree (run : Run Admits .empty x) :
    ∃ us st, x.answer .onlineUsers = .users us ∧ x.answer .stats = .stats st ∧
      us.Pairwise (·.name < ·.name) ∧ us.length = st.connections ∧
      (∀ room, ∃ ns, x.answer (.roomMembers room) = .names ns ∧ (ns.isSome ↔ ∃ id, x.Frequents id room) ∧
        ∀ names ∈ ns, names.Pairwise (· < ·) ∧ ∃ ids : List ConnectionId, ids.Nodup ∧
          (∀ id, id ∈ ids ↔ x.Frequents id room) ∧ (names.map some).Perm (ids.map x.roster.name?)) ∧
      (∀ id, ∃ rs, x.answer (.connectionRooms id) = .names rs ∧ (rs.isSome ↔ x.roster.IsLive id) ∧
        ∀ rooms ∈ rs, rooms.Pairwise (· < ·)) ∧
      ∃ rooms : List String, rooms.Nodup ∧ st.rooms = rooms.length ∧
        ∀ room, room ∈ rooms ↔ ∃ id, x.Frequents id room := by
  have h := run.consistent Roster.consistent_empty
  simp only [frequents_iff]
  refine ⟨_, _, rfl, rfl, Roster.pairwise_onlineUsers, ?count, fun room => ⟨_, rfl, h.isSome_roomMembers_iff, ?members⟩,
    fun id => ⟨_, rfl, Roster.isSome_connectionRooms_iff, fun _ => Roster.pairwise_of_connectionRooms⟩,
    x.roster.rooms.keys, ExtTreeMap.nodup_keys, ExtTreeMap.length_keys.symm, fun room => ?rooms⟩
  case count => exact Roster.length_onlineUsers.trans h.count_eq
  case members => exact fun names hn => ⟨h.pairwise_of_roomMembers hn, h.exists_members hn⟩
  case rooms =>
    rw [h.mem_rooms_iff]
    exact exists_congr fun id => h.member_iff room id

end Parley.Exchange
