import Parley.Roster

namespace Parley

open Std

namespace Directory

variable {d : Directory} {name n : String} {id : ConnectionId} {o : Owner}

theorem ext {d₁ d₂ : Directory} (h : ∀ name, d₁.owner? name = d₂.owner? name) : d₁ = d₂ := by
  cases d₁; cases d₂
  exact congrArg _ (ExtTreeMap.ext_getElem? fun name => h name)

theorem owner?_claim : (d.claim name o).owner? n = if name = n then some o else d.owner? n := by
  simp [claim, owner?, ExtTreeMap.getElem?_insert]

theorem lookup_eq_some_iff : d.lookup name = some id ↔ ∃ u, d.owner? name = some ⟨id, u⟩ := by
  simp only [lookup, Option.map_eq_some_iff]
  constructor
  case mp =>
    rintro ⟨⟨_, u⟩, ho, rfl⟩
    exact ⟨u, ho⟩
  case mpr =>
    rintro ⟨u, ho⟩
    exact ⟨_, ho, rfl⟩

theorem owner?_release (h : d.lookup name = some id) :
    (d.release name id).owner? n = if name = n then none else d.owner? n := by
  simp [release, h, owner?, ExtTreeMap.getElem?_erase]

theorem count_claim (h : d.owner? name = none) : (d.claim name o).count = d.count + 1 := by
  have hn : name ∉ d.owners := by
    rw [← ExtTreeMap.isSome_getElem?_iff_mem]
    exact Option.not_isSome_iff_eq_none.mpr h
  simp [claim, count, ExtTreeMap.size_insert, hn]

theorem count_release (h : d.lookup name = some id) : (d.release name id).count = d.count - 1 := by
  have ⟨_, ho⟩ := lookup_eq_some_iff.mp h
  have hn : name ∈ d.owners := ExtTreeMap.isSome_getElem?_iff_mem.mp (Option.isSome_of_eq_some ho)
  simp [release, h, count, ExtTreeMap.size_erase, hn]

end Directory

namespace Room

-- A room left by a connection; none if nobody is left in it.
def without (id : ConnectionId) (r : Room) : Option Room :=
  if (r.leave id).count = 0 then none else some (r.leave id)

variable {r r' : Room} {id id' : ConnectionId}

theorem mem_leave : id' ∈ (r.leave id).members ↔ id ≠ id' ∧ id' ∈ r.members := by
  simp [leave, ExtTreeSet.mem_erase]

theorem mem_join : id' ∈ (r.join id).members ↔ id = id' ∨ id' ∈ r.members := by
  simp [join, ExtTreeSet.mem_insert]

theorem count_eq_zero_iff : r.count = 0 ↔ ∀ id, id ∉ r.members := by
  rw [count, ← ExtTreeSet.eq_empty_iff_size_eq_zero, ExtTreeSet.eq_empty_iff_forall_not_mem]

theorem without_eq_some_iff :
    r.without id = some r' ↔ r' = r.leave id ∧ ∃ id', id' ∈ r'.members := by
  have hc : (¬ (r.leave id).count = 0) ↔ ∃ id', id' ∈ (r.leave id).members := by
    simp [count_eq_zero_iff]
  simp only [without]
  split
  case isTrue h => simp_all
  case isFalse h =>
    simp only [Option.some.injEq]
    constructor
    case mp => rintro rfl; exact ⟨rfl, hc.mp h⟩
    case mpr => rintro ⟨rfl, _⟩; rfl

-- Leaving a room again changes nothing.
theorem without_bind_without : (r.without id).bind (without id) = r.without id := by
  have hm : (r.members.erase id).erase id = r.members.erase id := by
    apply ExtTreeSet.ext_mem
    simp [ExtTreeSet.mem_erase]
  have hl : (r.leave id).leave id = r.leave id := by
    simp [leave, hm]
  simp only [without]
  split
  case isTrue => rfl
  case isFalse h => simp [without, hl, h]

theorem of_bind_without {o : Option Room} (h : o.bind (without id) = some r) :
    ∃ r', o = some r' ∧ r = r'.leave id ∧ ∃ id', id' ∈ r.members :=
  have ⟨r', ho, hw⟩ := Option.bind_eq_some_iff.mp h
  have ⟨hl, hi⟩ := without_eq_some_iff.mp hw
  ⟨r', ho, hl, hi⟩

theorem exists_mem_bind_without {o : Option Room} :
    (∃ r, o.bind (without id) = some r ∧ id' ∈ r.members) ↔
      id ≠ id' ∧ ∃ r, o = some r ∧ id' ∈ r.members := by
  constructor
  case mp =>
    rintro ⟨r, hb, hi⟩
    have ⟨r', ho, hl, _⟩ := of_bind_without hb
    have ⟨hne, hi⟩ := mem_leave.mp (hl ▸ hi)
    exact ⟨hne, r', ho, hi⟩
  case mpr =>
    rintro ⟨hne, r, ho, hi⟩
    have hl : id' ∈ (r.leave id).members := mem_leave.mpr ⟨hne, hi⟩
    have hw := without_eq_some_iff.mpr ⟨rfl, id', hl⟩
    exact ⟨r.leave id, by simp [ho, hw], hl⟩

end Room

namespace Roster

variable {r : Roster} {id id' : ConnectionId} {e : Entry} {who : Identity} {box : Nat}
  {room room' : String}

theorem ext {r₁ r₂ : Roster} (he : ∀ id, r₁.entry? id = r₂.entry? id)
    (hd : r₁.directory = r₂.directory) (hr : ∀ room, r₁.room? room = r₂.room? room) : r₁ = r₂ := by
  cases r₁; cases r₂
  cases hd
  congr
  · exact ExtTreeMap.ext_getElem? he
  · exact ExtTreeMap.ext_getElem? hr

theorem isLive_iff : r.IsLive id ↔ ∃ e, r.entry? id = some e := by
  rw [IsLive, ← ExtTreeMap.isSome_getElem?_iff_mem, Option.isSome_iff_exists]
  rfl

theorem not_isLive_iff : ¬ r.IsLive id ↔ r.entry? id = none := by
  rw [isLive_iff, Option.eq_none_iff_forall_ne_some, not_exists]

theorem IsLive.of_some (h : r.entry? id = some e) : r.IsLive id :=
  isLive_iff.mpr ⟨e, h⟩

theorem mem_ids : id ∈ r.ids ↔ r.IsLive id :=
  ExtTreeMap.mem_keys

theorem nodup_ids : r.ids.Nodup :=
  ExtTreeMap.nodup_keys

theorem entry?_empty : Roster.entry? .empty id = none := by
  simp [empty, entry?]

theorem entry?_insert :
    Roster.entry? (r.insert id who box) id' = if id = id' then some ⟨who, box, ∅⟩ else r.entry? id' := by
  simp [insert, entry?, ExtTreeMap.getElem?_insert]

theorem entry?_remove : Roster.entry? (r.remove id) id' = if id = id' then none else r.entry? id' := by
  simp only [remove]
  split
  case h_1 h =>
    split
    case isTrue hi => exact hi ▸ h
    case isFalse => rfl
  case h_2 => simp [Roster.entry?, ExtTreeMap.getElem?_erase]

theorem remove_of_not_isLive (h : ¬ r.IsLive id) : r.remove id = r := by
  simp [remove, not_isLive_iff.mp h]

theorem isLive_remove : (r.remove id).IsLive id' ↔ id ≠ id' ∧ r.IsLive id' := by
  simp only [isLive_iff, entry?_remove]
  split <;> simp_all

theorem isLive_insert : (r.insert id who box).IsLive id' ↔ id = id' ∨ r.IsLive id' := by
  simp only [isLive_iff, entry?_insert]
  split <;> simp_all

theorem getElem?_expel {rooms : ExtTreeMap String Room} :
    (expel rooms room id)[room']? =
      if room = room' then rooms[room]?.bind (Room.without id) else rooms[room']? := by
  simp only [expel, ExtTreeMap.getElem?_alter, LawfulEqCmp.compare_eq_iff_eq]
  congr 1
  cases rooms[room]? <;> rfl

theorem getElem?_foldl_expel {names : List String} {rooms : ExtTreeMap String Room} :
    (names.foldl (fun rooms room => expel rooms room id) rooms)[room]? =
      if room ∈ names then rooms[room]?.bind (Room.without id) else rooms[room]? := by
  induction names generalizing rooms
  case nil => rfl
  case cons name names ih =>
    simp only [List.foldl_cons, ih, getElem?_expel, List.mem_cons]
    by_cases hn : name = room
    case pos =>
      subst hn
      have hw : (rooms[name]?.bind (Room.without id)).bind (Room.without id) =
          rooms[name]?.bind (Room.without id) := by
        cases rooms[name]?
        case none => rfl
        case some m => exact Room.without_bind_without
      simp [hw]
    case neg => simp [hn, Ne.symm hn]

theorem room?_remove (h : r.entry? id = some e) :
    (r.remove id).room? room =
      if room ∈ e.rooms then (r.room? room).bind (Room.without id) else r.room? room := by
  simp only [remove, h, room?, getElem?_foldl_expel, ExtTreeSet.mem_toList]

theorem directory_remove (h : r.entry? id = some e) :
    (r.remove id).directory = r.directory.release e.identity.name id := by
  simp [remove, h]

theorem count_insert (h : ¬ r.IsLive id) : (r.insert id who box).count = r.count + 1 := by
  have hn : id ∉ r.entries := h
  simp [insert, count, ExtTreeMap.size_insert, hn]

theorem count_remove (h : r.IsLive id) : (r.remove id).count = r.count - 1 := by
  have hm : id ∈ r.entries := h
  have ⟨_, he⟩ := isLive_iff.mp h
  simp [remove, he, count, ExtTreeMap.size_erase, hm]

theorem entry?_setRooms {rooms : ExtTreeSet String} :
    Roster.entry? (r.setRooms id e rooms) id' = if id = id' then some { e with rooms } else r.entry? id' := by
  simp [setRooms, entry?, ExtTreeMap.getElem?_insert]

theorem count_setRooms (h : r.IsLive id) {rooms : ExtTreeSet String} :
    (r.setRooms id e rooms).count = r.count := by
  have hm : id ∈ r.entries := h
  simp [setRooms, count, ExtTreeMap.size_insert, hm]

-- The roster after a connection that was not in a room has entered it.
theorem join_joined (he : r.entry? id = some e) (hn : room ∉ e.rooms) :
    r.join id room =
      (.joined,
        { r.setRooms id e (e.rooms.insert room) with
          rooms := r.rooms.alter room fun old => some ((old.getD (.new room)).join id) }) := by
  simp [join, he, hn]

theorem join_of_mem (he : r.entry? id = some e) (hm : room ∈ e.rooms) :
    r.join id room = (.alreadyMember, r) := by
  simp [join, he, hm]

theorem leave_of_not_mem (he : r.entry? id = some e) (hn : room ∉ e.rooms) :
    r.leave id room = (.notMember, r) := by
  simp [leave, he, hn]

theorem entry?_join (he : r.entry? id = some e) (hn : room ∉ e.rooms) :
    Roster.entry? (r.join id room).2 id' =
      if id = id' then some { e with rooms := e.rooms.insert room } else r.entry? id' := by
  rw [join_joined he hn]
  exact entry?_setRooms

theorem room?_join (he : r.entry? id = some e) (hn : room ∉ e.rooms) :
    (r.join id room).2.room? room' =
      if room = room' then some (((r.room? room).getD (.new room)).join id) else r.room? room' := by
  simp only [join_joined he hn, room?, ExtTreeMap.getElem?_alter, LawfulEqCmp.compare_eq_iff_eq]

theorem map_entry?_join {β : Type} (f : Entry → β) (hf : ∀ e rooms, f { e with rooms } = f e) :
    (Roster.entry? (r.join id room).2 id').map f = (r.entry? id').map f := by
  cases he : r.entry? id
  case none => simp [join, he]
  case some e =>
    by_cases hm : room ∈ e.rooms
    case pos => rw [join_of_mem he hm]
    case neg =>
      rw [entry?_join he hm]
      split
      case isTrue hd => simp [← hd, he, hf]
      case isFalse => rfl

theorem count_join : (r.join id room).2.count = r.count := by
  simp only [join]
  split
  case h_1 => rfl
  case h_2 he =>
    split
    case isTrue => rfl
    case isFalse => exact count_setRooms (.of_some he)

theorem directory_join : (r.join id room).2.directory = r.directory := by
  simp only [join]
  split
  case h_1 => rfl
  case h_2 => split <;> rfl

theorem leave_left (he : r.entry? id = some e) (hm : room ∈ e.rooms) :
    r.leave id room =
      (.left (((expel r.rooms room id)[room]?.map Room.count).getD 0),
        { r.setRooms id e (e.rooms.erase room) with rooms := expel r.rooms room id }) := by
  simp [leave, he, hm]

theorem entry?_leave (he : r.entry? id = some e) (hm : room ∈ e.rooms) :
    Roster.entry? (r.leave id room).2 id' =
      if id = id' then some { e with rooms := e.rooms.erase room } else r.entry? id' := by
  rw [leave_left he hm]
  exact entry?_setRooms

theorem room?_leave (he : r.entry? id = some e) (hm : room ∈ e.rooms) :
    (r.leave id room).2.room? room' =
      if room = room' then (r.room? room).bind (Room.without id) else r.room? room' := by
  rw [leave_left he hm]
  exact getElem?_expel

-- Whoever moves between rooms stays the same otherwise.
theorem map_entry?_leave {β : Type} (f : Entry → β) (hf : ∀ e rooms, f { e with rooms } = f e) :
    (Roster.entry? (r.leave id room).2 id').map f = (r.entry? id').map f := by
  cases he : r.entry? id
  case none => simp [leave, he]
  case some e =>
    by_cases hm : room ∈ e.rooms
    case neg => rw [leave_of_not_mem he hm]
    case pos =>
      rw [entry?_leave he hm]
      split
      case isTrue hd => simp [← hd, he, hf]
      case isFalse => rfl

theorem count_leave : (r.leave id room).2.count = r.count := by
  simp only [leave]
  split
  case h_1 => rfl
  case h_2 he =>
    split
    case isTrue => rfl
    case isFalse => exact count_setRooms (.of_some he)

theorem directory_leave : (r.leave id room).2.directory = r.directory := by
  simp only [leave]
  split
  case h_1 => rfl
  case h_2 => split <;> rfl

end Roster
end Parley
