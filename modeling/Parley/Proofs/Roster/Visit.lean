import Parley.Proofs.Roster.Attendance

namespace Parley

open Std

theorem Directory.lookup_eq_none_iff {d : Directory} {name : String} : d.lookup name = none ↔ d.owner? name = none :=
  Option.map_eq_none_iff

-- A name is given up by whoever has it, and by nobody else.
theorem Directory.owner?_release_cases {d : Directory} {name n : String} {id : ConnectionId} :
    (d.release name id).owner? n = if d.lookup name = some id ∧ name = n then none else d.owner? n := by
  by_cases h : d.lookup name = some id
  case pos => simp [owner?_release h, h]
  case neg => simp [release, h]

namespace Room

variable {m m' : Room} {o : Option Room} {id id' : ConnectionId} {room : String}

theorem ext {m m' : Room} (hn : m.name = m'.name) (hm : ∀ id, id ∈ m.members ↔ id ∈ m'.members) : m = m' := by
  cases m; cases m'
  cases hn
  exact congrArg _ (ExtTreeSet.ext_mem @hm)

theorem leave_comm : (m.leave id).leave id' = (m.leave id').leave id :=
  ext rfl fun _ => by simp only [mem_leave]; tauto

theorem leave_join_self : (m.join id).leave id = m.leave id :=
  ext rfl fun _ => by simp only [mem_leave, mem_join]; tauto

-- A room that somebody is in stays as it is when one leaves who is not in it.
theorem without_eq_self (hn : id ∉ m.members) (hi : ∃ id', id' ∈ m.members) : m.without id = some m := by
  have hl : m.leave id = m := ext rfl fun id' => by
    rw [mem_leave, and_iff_right_iff_imp]
    rintro hm rfl
    exact hn hm
  exact without_eq_some_iff.mpr ⟨hl.symm, hi⟩

theorem bind_without_eq_some_iff :
    o.bind (without id) = some m ↔ ∃ m', o = some m' ∧ m = m'.leave id ∧ ∃ id', id' ∈ m.members := by
  simp only [Option.bind_eq_some_iff, without_eq_some_iff]

-- Leaving a room again changes nothing.
theorem bind_without_self : (o.bind (without id)).bind (without id) = o.bind (without id) := by
  cases o
  case none => rfl
  case some m => exact without_bind_without

-- It does not matter who leaves first.
theorem bind_without_comm : (o.bind (without id)).bind (without id') = (o.bind (without id')).bind (without id) := by
  have hle {a b : ConnectionId} {m : Room} (h : (o.bind (without a)).bind (without b) = some m) :
      (o.bind (without b)).bind (without a) = some m := by
    obtain ⟨m₁, h₁, rfl, x, hx⟩ := bind_without_eq_some_iff.mp h
    obtain ⟨m', rfl, rfl, _⟩ := bind_without_eq_some_iff.mp h₁
    rw [leave_comm] at hx ⊢
    have hb : (some m').bind (without b) = some (m'.leave b) :=
      bind_without_eq_some_iff.mpr ⟨m', rfl, rfl, x, (mem_leave.mp hx).2⟩
    exact hb ▸ bind_without_eq_some_iff.mpr ⟨_, rfl, rfl, x, hx⟩
  exact Option.ext fun _ => ⟨hle, hle⟩

-- Whoever leaves a room that it has entered leaves it as it was, also if it had to be opened first.
theorem without_join_self : ((o.getD (.new room)).join id).without id = o.bind (without id) := by
  cases o
  case some => simp [without, leave_join_self]
  case none =>
    refine Option.eq_none_iff_forall_ne_some.mpr fun m hm => ?_
    obtain ⟨rfl, id', hi⟩ := without_eq_some_iff.mp hm
    simp [mem_leave, mem_join, new] at hi

theorem mem_getD_bind_without :
    id' ∈ ((o.bind (without id)).getD (.new room)).members ↔ id ≠ id' ∧ id' ∈ (o.getD (.new room)).members := by
  cases o
  case none => simp [new]
  case some m =>
    change id' ∈ ((m.without id).getD (.new room)).members ↔ id ≠ id' ∧ id' ∈ m.members
    rw [← mem_leave]
    by_cases hi : ∃ id', id' ∈ (m.leave id).members
    case pos => rw [without_eq_some_iff.mpr ⟨rfl, hi⟩, Option.getD_some]
    case neg =>
      have hn : m.without id = none := by
        refine Option.eq_none_iff_forall_ne_some.mpr fun m' hm' => ?_
        obtain ⟨rfl, hi'⟩ := without_eq_some_iff.mp hm'
        exact hi hi'
      simpa [hn, new] using fun hm => hi ⟨id', hm⟩

-- One enters a room that another one leaves: it does not matter who is first, also if the room is closed in between.
theorem without_join (hne : id ≠ id') (hn : ∀ m, o = some m → m.name = room) :
    ((o.getD (.new room)).join id').without id = some (((o.bind (without id)).getD (.new room)).join id') := by
  refine without_eq_some_iff.mpr ⟨ext ?name fun x => ?members, id', mem_join.mpr (.inl rfl)⟩
  case members =>
    rw [mem_leave, mem_join, mem_join, mem_getD_bind_without]
    constructor
    · rintro (rfl | ⟨hx, hm⟩)
      · exact ⟨hne, .inl rfl⟩
      · exact ⟨hx, .inr hm⟩
    · rintro ⟨hx, rfl | hm⟩
      · exact .inl rfl
      · exact .inr ⟨hx, hm⟩
  case name =>
    change ((o.bind (without id)).getD (.new room)).name = (o.getD (.new room)).name
    cases o
    case none => rfl
    case some m =>
      cases hw : (some m).bind (without id)
      case none => exact (hn m rfl).symm
      case some m' =>
        obtain ⟨_, h, rfl, _⟩ := bind_without_eq_some_iff.mp hw
        cases h
        rfl

end Room

namespace Roster

-- The parts of a roster agree, whatever its rooms are called.
structure Coherent (r : Roster) : Prop where
  member_iff : ∀ room id, r.HasMember room id ↔ r.IsIn id room
  inhabited  : ∀ room m, r.room? room = some m → ∃ id, id ∈ m.members
  named      : ∀ room m, r.room? room = some m → m.name = room
  owned      : ∀ id e, r.entry? id = some e → r.lookup e.identity.name = some id
  count_eq   : r.directory.count = r.count

-- What a roster knows of a visitor, who goes by a name while it is there.
structure Hosts (r : Roster) (v : ConnectionId) (name : String) : Prop where
  named     : ∀ e, r.entry? v = some e → e.identity.name = name
  lookup    : r.lookup name = (r.entry? v).map fun _ => v
  member    : ∀ room, r.HasMember room v → r.IsIn v room
  inhabited : ∀ room m, r.room? room = some m → ∃ id, id ∈ m.members
  rooms     : ∀ room m, r.room? room = some m → m.name = room

-- Two rosters that differ in nothing but a visitor, whom only the first knows of.
structure Hides (r s : Roster) (v : ConnectionId) (name : String) : Prop where
  hosts   : r.Hosts v name
  absent  : s.entry? v = none
  free    : s.lookup name = none
  entries : ∀ id, id ≠ v → r.entry? id = s.entry? id
  owners  : ∀ n, n ≠ name → r.directory.owner? n = s.directory.owner? n
  rooms   : ∀ room, (r.room? room).bind (Room.without v) = s.room? room

variable {r s : Roster} {v id id' : ConnectionId} {name room : String} {who : Identity} {box : Nat} {e : Entry}

theorem Consistent.coherent (h : r.Consistent) : r.Coherent :=
  ⟨h.member_iff, h.inhabited, fun room m hm => (h.named room m hm).1, fun _ _ => h.lookup_name, h.count_eq⟩

theorem lookup_insert : (r.insert id who box).lookup name = if who.name = name then some id else r.lookup name := by
  simp only [lookup, Directory.lookup, insert, Directory.owner?_claim]
  split <;> rfl

theorem owner?_remove (h : r.entry? id = some e) :
    (r.remove id).directory.owner? name =
      if r.lookup e.identity.name = some id ∧ e.identity.name = name then none else r.directory.owner? name := by
  rw [directory_remove h]
  exact Directory.owner?_release_cases

theorem lookup_remove (h : r.entry? id = some e) :
    (r.remove id).lookup name =
      if r.lookup e.identity.name = some id ∧ e.identity.name = name then none else r.lookup name := by
  rw [lookup, Directory.lookup, owner?_remove h, apply_ite (Option.map _)]
  rfl

-- Nobody enters a room by the removal of another one.
theorem HasMember.of_remove (h : (r.remove id).HasMember room id') : r.HasMember room id' := by
  cases he : r.entry? id
  case none => rwa [remove_of_not_isLive (not_isLive_iff.mpr he)] at h
  case some e =>
    simp only [HasMember, room?_remove he] at h
    split at h
    case isTrue => exact (Room.exists_mem_bind_without.mp h).2
    case isFalse => exact h

namespace Hosts

theorem of_coherent (h : r.Coherent) (hv : ¬ r.IsLive v) (hn : r.lookup name = none) : r.Hosts v name where
  named e he := absurd (.of_some he) hv
  lookup := by rw [hn, not_isLive_iff.mp hv, Option.map_none]
  member room := (h.member_iff room v).mp
  inhabited := h.inhabited
  rooms := h.named

variable (h : r.Hosts v name)

include h

-- The name is the visitor's, or nobody's.
theorem lookup_ne (hi : id ≠ v) : r.lookup name ≠ some id := by
  rw [h.lookup]
  cases r.entry? v
  case none => nofun
  case some => exact fun he => hi (Option.some.inj he).symm

theorem insert_other (hi : id ≠ v) (hn : who.name ≠ name) : (r.insert id who box).Hosts v name where
  named e he := h.named e (by rwa [entry?_insert, if_neg hi] at he)
  lookup := by rw [lookup_insert, if_neg hn, entry?_insert, if_neg hi, h.lookup]
  member room hm := by
    simpa only [IsIn, entry?_insert, if_neg hi] using h.member room hm
  inhabited := h.inhabited
  rooms := h.rooms

theorem insert_self (hv : ¬ r.IsLive v) (hn : who.name = name) : (r.insert v who box).Hosts v name where
  named e he := by
    rw [entry?_insert, if_pos rfl] at he
    exact Option.some.inj he ▸ hn
  lookup := by rw [lookup_insert, if_pos hn, entry?_insert, if_pos rfl, Option.map_some]
  member room hm := absurd (h.member room hm).isLive hv
  inhabited := h.inhabited
  rooms := h.rooms

theorem remove (id : ConnectionId) : (r.remove id).Hosts v name := by
  cases he : r.entry? id
  case none => rwa [remove_of_not_isLive (not_isLive_iff.mpr he)]
  case some e =>
    refine ⟨fun e' he' => ?named, ?lookup, fun room hm => ?member, fun room m hm => ?inhabited, fun room m hm => ?rooms⟩
    case named =>
      rw [entry?_remove] at he'
      split at he'
      case isTrue => nomatch he'
      case isFalse => exact h.named e' he'
    case lookup =>
      rw [lookup_remove he, entry?_remove]
      by_cases hi : id = v
      case pos =>
        subst hi
        have hn := h.named e he
        rw [if_pos ⟨by rw [hn, h.lookup, he, Option.map_some], hn⟩, if_pos rfl, Option.map_none]
      case neg =>
        have hc : ¬ (r.lookup e.identity.name = some id ∧ e.identity.name = name) := by
          rintro ⟨hl, rfl⟩
          exact h.lookup_ne hi hl
        rw [if_neg hc, if_neg hi, h.lookup]
    case member =>
      refine isIn_remove.mpr ⟨?_, h.member room hm.of_remove⟩
      rintro rfl
      exact ((hasMember_remove h.member).mp hm).1 rfl
    case inhabited =>
      obtain ⟨_, _, _, hi⟩ := of_room?_remove h.inhabited hm
      exact hi
    case rooms =>
      obtain ⟨m', hm', hn, _⟩ := of_room?_remove h.inhabited hm
      exact hn ▸ h.rooms room m' hm'

-- Someone moves between rooms, and nothing happens to names.
theorem move (hi : (s.entry? v).map (·.identity) = (r.entry? v).map (·.identity)) (hd : s.directory = r.directory)
    (hm : ∀ room, s.HasMember room v → s.IsIn v room)
    (hr : ∀ room m, s.room? room = some m → m.name = room ∧ ∃ id, id ∈ m.members) : s.Hosts v name where
  named e he := by
    rw [he, Option.map_some] at hi
    obtain ⟨e', he', hw⟩ := Option.map_eq_some_iff.mp hi.symm
    exact hw ▸ h.named e' he'
  lookup := by
    have hl := congrArg (Option.map fun _ => v) hi
    rw [Option.map_map, Option.map_map] at hl
    rw [Roster.lookup, hd]
    exact h.lookup.trans hl.symm
  member := hm
  inhabited room m hm := (hr room m hm).2
  rooms room m hm := (hr room m hm).1

theorem join (id : ConnectionId) (room : String) : (r.join id room).2.Hosts v name := by
  cases he : r.entry? id
  case none => simpa [Roster.join, he] using h
  case some e =>
    by_cases hm : room ∈ e.rooms
    case pos => rwa [join_of_mem he hm]
    case neg =>
      refine h.move (map_entry?_join _ fun _ _ => rfl) directory_join (fun room' hm' => ?member) fun room' m hm' =>
        ⟨?rooms, inhabited_join h.inhabited he hm hm'⟩
      case member =>
        rw [hasMember_join he hm] at hm'
        exact (isIn_join he hm).mpr (hm'.imp_right (h.member room'))
      case rooms =>
        rw [room?_join he hm] at hm'
        split at hm'
        case isFalse => exact h.rooms room' m hm'
        case isTrue hn =>
          subst hn
          rw [← Option.some.inj hm']
          cases hr : r.room? room
          case none => rfl
          case some m' => exact h.rooms room m' hr

theorem leave (id : ConnectionId) (room : String) : (r.leave id room).2.Hosts v name := by
  cases he : r.entry? id
  case none => simpa [Roster.leave, he] using h
  case some e =>
    by_cases hm : room ∈ e.rooms
    case neg => rwa [leave_of_not_mem he hm]
    case pos =>
      refine h.move (map_entry?_leave _ fun _ _ => rfl) directory_leave (fun room' hm' => ?member)
        fun room' m hm' => ?rooms
      case member =>
        rw [hasMember_leave he hm] at hm'
        exact (isIn_leave he hm).mpr (hm'.imp_right (h.member room'))
      case rooms =>
        obtain ⟨m', hr, hn, hi⟩ := of_room?_leave h.inhabited he hm hm'
        exact ⟨hn ▸ h.rooms room' m' hr, hi⟩

end Hosts

namespace Hides

theorem of_coherent (h : r.Coherent) (hv : ¬ r.IsLive v) (hn : r.lookup name = none) : r.Hides r v name where
  hosts := .of_coherent h hv hn
  absent := not_isLive_iff.mp hv
  free := hn
  entries _ _ := rfl
  owners _ _ := rfl
  rooms room := by
    cases hm : r.room? room
    case none => rfl
    case some m =>
      refine Room.without_eq_self (fun hi => hv ?_) (h.inhabited room m hm)
      exact ((h.member_iff room v).mp ⟨m, hm, hi⟩).isLive

variable (h : r.Hides s v name)

include h

-- Once the visitor is gone, there is nothing left to tell the two apart.
theorem eq (hv : ¬ r.IsLive v) : r = s := by
  have he := not_isLive_iff.mp hv
  refine Roster.ext (fun id => ?entries) (Directory.ext fun n => ?owners) fun room => ?rooms
  case entries =>
    by_cases hi : id = v
    case pos => rw [hi, he, h.absent]
    case neg => exact h.entries id hi
  case owners =>
    by_cases hn : n = name
    case neg => exact h.owners n hn
    case pos =>
      have hl : r.lookup name = none := by rw [h.hosts.lookup, he, Option.map_none]
      rw [hn, Directory.lookup_eq_none_iff.mp hl, Directory.lookup_eq_none_iff.mp h.free]
  case rooms =>
    rw [← h.rooms room]
    cases hm : r.room? room
    case none => rfl
    case some m =>
      refine (Room.without_eq_self (fun hi => hv ?_) (h.hosts.inhabited room m hm)).symm
      exact (h.hosts.member room ⟨m, hm, hi⟩).isLive

theorem lookup_eq {n : String} (hn : n ≠ name) : r.lookup n = s.lookup n :=
  congrArg (Option.map _) (h.owners n hn)

theorem insert_other (hi : id ≠ v) (hn : who.name ≠ name) :
    (r.insert id who box).Hides (s.insert id who box) v name where
  hosts := h.hosts.insert_other hi hn
  absent := by rw [entry?_insert, if_neg hi, h.absent]
  free := by rw [lookup_insert, if_neg hn, h.free]
  entries id' hi' := by rw [entry?_insert, entry?_insert, h.entries id' hi']
  owners n hn' := by
    simp only [Roster.insert, Directory.owner?_claim, h.owners n hn']
  rooms := h.rooms

theorem remove_other (hi : id ≠ v) : (r.remove id).Hides (s.remove id) v name := by
  have hs := h.entries id hi
  cases he : s.entry? id
  case none =>
    rw [he] at hs
    rwa [remove_of_not_isLive (not_isLive_iff.mpr hs), remove_of_not_isLive (not_isLive_iff.mpr he)]
  case some e =>
    rw [he] at hs
    refine ⟨h.hosts.remove id, ?absent, ?free, fun id' hi' => ?entries, fun n hn => ?owners, fun room => ?rooms⟩
    case absent => rw [entry?_remove, if_neg hi, h.absent]
    case free => rw [lookup_remove he, h.free, ite_self]
    case entries => rw [entry?_remove, entry?_remove, h.entries id' hi']
    case owners =>
      rw [owner?_remove hs, owner?_remove he, h.owners n hn]
      refine if_congr (and_congr_left ?_) rfl rfl
      rintro rfl
      exact iff_of_eq (congrArg (· = some id) (h.lookup_eq hn))
    case rooms =>
      rw [room?_remove hs, room?_remove he, ← h.rooms room]
      split
      case isTrue => exact Room.bind_without_comm
      case isFalse => rfl

-- Someone moves between rooms, and does so in both.
theorem move_other {r' s' : Roster} (hh : r'.Hosts v name) (hi : id ≠ v)
    (hr : ∀ id', r'.entry? id' = if id = id' then some e else r.entry? id')
    (hs : ∀ id', s'.entry? id' = if id = id' then some e else s.entry? id')
    (hd : r'.directory = r.directory) (hd' : s'.directory = s.directory)
    (hrooms : ∀ room, (r'.room? room).bind (Room.without v) = s'.room? room) : r'.Hides s' v name where
  hosts := hh
  absent := by rw [hs, if_neg hi, h.absent]
  free := by rw [lookup, hd', ← lookup, h.free]
  entries id' hi' := by rw [hr, hs, h.entries id' hi']
  owners n hn := by rw [hd, hd', h.owners n hn]
  rooms := hrooms

theorem join_other (hi : id ≠ v) (room : String) : (r.join id room).2.Hides (s.join id room).2 v name := by
  have hs := h.entries id hi
  cases he : s.entry? id
  case none => simpa [Roster.join, hs, he] using h
  case some e =>
    rw [he] at hs
    by_cases hm : room ∈ e.rooms
    case pos => rwa [join_of_mem hs hm, join_of_mem he hm]
    case neg =>
      refine h.move_other (h.hosts.join id room) hi (fun _ => entry?_join hs hm) (fun _ => entry?_join he hm)
        directory_join directory_join fun room' => ?_
      rw [room?_join hs hm, room?_join he hm]
      split
      case isTrue => exact h.rooms room ▸ Room.without_join hi.symm (h.hosts.rooms room)
      case isFalse => exact h.rooms room'

theorem leave_other (hi : id ≠ v) (room : String) : (r.leave id room).2.Hides (s.leave id room).2 v name := by
  have hs := h.entries id hi
  cases he : s.entry? id
  case none => simpa [Roster.leave, hs, he] using h
  case some e =>
    rw [he] at hs
    by_cases hm : room ∈ e.rooms
    case neg => rwa [leave_of_not_mem hs hm, leave_of_not_mem he hm]
    case pos =>
      refine h.move_other (h.hosts.leave id room) hi (fun _ => entry?_leave hs hm) (fun _ => entry?_leave he hm)
        directory_leave directory_leave fun room' => ?_
      rw [room?_leave hs hm, room?_leave he hm]
      split
      case isTrue => exact h.rooms room ▸ Room.bind_without_comm
      case isFalse => exact h.rooms room'

-- Nothing that one party alone does shows in the other roster, as long as it touches nobody else.
theorem move_self {r' : Roster} (hh : r'.Hosts v name) (hr : ∀ id, id ≠ v → r'.entry? id = r.entry? id)
    (hd : ∀ n, n ≠ name → r'.directory.owner? n = r.directory.owner? n)
    (hrooms : ∀ room, (r'.room? room).bind (Room.without v) = (r.room? room).bind (Room.without v)) :
    r'.Hides s v name where
  hosts := hh
  absent := h.absent
  free := h.free
  entries id hi := (hr id hi).trans (h.entries id hi)
  owners n hn := (hd n hn).trans (h.owners n hn)
  rooms room := (hrooms room).trans (h.rooms room)

theorem come (hv : ¬ r.IsLive v) (hn : who.name = name) : (r.insert v who box).Hides s v name := by
  refine h.move_self (h.hosts.insert_self hv hn) (fun id hi => ?entries) (fun n hn' => ?owners) fun _ => rfl
  case entries => rw [entry?_insert, if_neg hi.symm]
  case owners =>
    have hne : who.name ≠ n := hn ▸ hn'.symm
    rw [Roster.insert, Directory.owner?_claim, if_neg hne]

theorem enter (room : String) : (r.join v room).2.Hides s v name := by
  cases he : r.entry? v
  case none => simpa [Roster.join, he] using h
  case some e =>
    by_cases hm : room ∈ e.rooms
    case pos => rwa [join_of_mem he hm]
    case neg =>
      refine h.move_self (h.hosts.join v room) (fun id hi => ?entries) (fun _ _ => by rw [directory_join])
        fun room' => ?_
      case entries => rw [entry?_join he hm, if_neg hi.symm]
      rw [room?_join he hm]
      split
      case isTrue hr => exact hr ▸ Room.without_join_self
      case isFalse => rfl

theorem exit (room : String) : (r.leave v room).2.Hides s v name := by
  cases he : r.entry? v
  case none => simpa [Roster.leave, he] using h
  case some e =>
    by_cases hm : room ∈ e.rooms
    case neg => rwa [leave_of_not_mem he hm]
    case pos =>
      refine h.move_self (h.hosts.leave v room) (fun id hi => ?entries) (fun _ _ => by rw [directory_leave])
        fun room' => ?_
      case entries => rw [entry?_leave he hm, if_neg hi.symm]
      rw [room?_leave he hm]
      split
      case isTrue hr => exact hr ▸ Room.bind_without_self
      case isFalse => rfl

theorem go : (r.remove v).Hides s v name := by
  cases he : r.entry? v
  case none => rwa [remove_of_not_isLive (not_isLive_iff.mpr he)]
  case some e =>
    refine h.move_self (h.hosts.remove v) (fun id hi => ?entries) (fun n hn => ?owners) fun room => ?_
    case entries => rw [entry?_remove, if_neg hi.symm]
    case owners =>
      have hc : ¬ (r.lookup e.identity.name = some v ∧ e.identity.name = n) :=
        fun hc => hn (hc.2 ▸ h.hosts.named e he)
      rw [owner?_remove he, if_neg hc]
    rw [room?_remove he]
    split
    case isTrue => exact Room.bind_without_self
    case isFalse => rfl

end Hides

theorem isLive_of_map_identity (hi : (s.entry? id).map (·.identity) = (r.entry? id).map (·.identity)) :
    s.IsLive id ↔ r.IsLive id := by
  have hs := congrArg Option.isSome hi
  rw [Option.isSome_map, Option.isSome_map] at hs
  rw [isLive_iff, isLive_iff, ← Option.isSome_iff_exists, ← Option.isSome_iff_exists, hs]

theorem isLive_join : (r.join id room).2.IsLive id' ↔ r.IsLive id' :=
  isLive_of_map_identity (map_entry?_join _ fun _ _ => rfl)

theorem isLive_leave : (r.leave id room).2.IsLive id' ↔ r.IsLive id' :=
  isLive_of_map_identity (map_entry?_leave _ fun _ _ => rfl)

-- Whose deed it is; nobody's, if something is only asked.
def Deed.doer? : Deed → Option ConnectionId
  | .insert id _ _ | .remove id | .join id _ | .leave id _ => some id
  | .entry _ | .lookup _ | .room _ => none

-- What a visitor does, from when it is away or from when it is here: it comes under its name, joins and leaves what it
-- likes, and goes, and may come again.  In the end it is away.
inductive Visits (v : ConnectionId) (name : String) : Bool → List Deed → Prop where
  | away : Visits v name false []
  | come {ds} (user : UInt64) (box : Nat) :
    Visits v name true ds → Visits v name false (.insert v ⟨user, name⟩ box :: ds)
  | join {ds} (room : String) : Visits v name true ds → Visits v name true (.join v room :: ds)
  | leave {ds} (room : String) : Visits v name true ds → Visits v name true (.leave v room :: ds)
  | go {ds} : Visits v name false ds → Visits v name true (.remove v :: ds)

variable {d : Deed} {ds : List Deed} {here : Bool}

theorem isLive_act_other (hd : d.doer? ≠ some v) : (r.act d).2.IsLive v ↔ r.IsLive v := by
  cases d
  case insert id _ _ => exact isLive_insert.trans (or_iff_right fun hi => hd (congrArg some hi))
  case remove id => exact isLive_remove.trans (and_iff_right fun hi => hd (congrArg some hi))
  case join => exact isLive_join
  case leave => exact isLive_leave
  case entry | lookup | room => rfl

theorem Hides.act_other (h : r.Hides s v name) (hd : d.doer? ≠ some v)
    (hn : ∀ id who box, d = .insert id who box → who.name ≠ name) : (r.act d).2.Hides (s.act d).2 v name := by
  cases d
  case insert id who box => exact h.insert_other (fun hi => hd (congrArg some hi)) (hn id who box rfl)
  case remove id => exact h.remove_other fun hi => hd (congrArg some hi)
  case join id room => exact h.join_other (fun hi => hd (congrArg some hi)) room
  case leave id room => exact h.leave_other (fun hi => hd (congrArg some hi)) room
  case entry | lookup | room => exact h

-- By induction on what everybody does: the others do the same to both rosters, and the visitor does what it does to the
-- first one alone, which goes on hiding no more than the visitor.
theorem Hides.run (h : r.Hides s v name) (hl : r.IsLive v ↔ here)
    (hv : Visits v name here (ds.filter (·.doer? = some v)))
    (hn : ∀ id who box, .insert id who box ∈ ds → id ≠ v → who.name ≠ name) :
    (r.run ds).2 = (s.run (ds.filter (·.doer? ≠ some v))).2 := by
  induction ds generalizing r s here
  case nil =>
    cases hv
    exact h.eq fun hi => Bool.noConfusion (hl.mp hi)
  case cons d ds ih =>
    have hn' id who box (hm : .insert id who box ∈ ds) := hn id who box (.tail _ hm)
    by_cases hd : d.doer? = some v
    case pos =>
      rw [List.filter_cons_of_pos (by simpa using hd)] at hv
      rw [List.filter_cons_of_neg (by simpa using hd)]
      cases hv
      case come user box hv =>
        have hi : ¬ r.IsLive v := fun hi => Bool.noConfusion (hl.mp hi)
        exact ih (h.come hi rfl) (by simp [act, isLive_insert]) hv hn'
      case join room hv => exact ih (h.enter room) (isLive_join.trans hl) hv hn'
      case leave room hv => exact ih (h.exit room) (isLive_leave.trans hl) hv hn'
      case go hv => exact ih h.go (by simp [act, isLive_remove]) hv hn'
    case neg =>
      rw [List.filter_cons_of_neg (by simpa using hd)] at hv
      rw [List.filter_cons_of_pos (by simpa using hd)]
      refine ih (h.act_other hd fun id who box he => ?_) ((isLive_act_other hd).trans hl) hv hn'
      subst he
      exact hn id who box (.head _) fun hi => hd (congrArg some hi)

-- Whoever has come and gone, once or several times, has left nothing behind: the people, their names and the rooms are
-- what the others alone would have made of them.
theorem run_forgets_visits (h : r.Coherent) (hi : ¬ r.IsLive v) (hl : r.lookup name = none)
    (hv : Visits v name false (ds.filter (·.doer? = some v)))
    (hn : ∀ id who box, .insert id who box ∈ ds → id ≠ v → who.name ≠ name) :
    (r.run ds).2 = (r.run (ds.filter (·.doer? ≠ some v))).2 :=
  (Hides.of_coherent h hi hl).run (by simpa using hi) hv hn

-- One visitor joins a room that the only member leaves, and opens another one, which the other one joins.
theorem run_forgets_visits_bob :
    let r := ((empty.insert ⟨1⟩ ⟨7, "ada"⟩ 0).join ⟨1⟩ "hall").2
    let ds : List Deed :=
      [.insert ⟨2⟩ ⟨8, "bob"⟩ 1, .join ⟨2⟩ "hall", .join ⟨2⟩ "loft", .leave ⟨1⟩ "hall", .join ⟨1⟩ "loft",
        .leave ⟨2⟩ "hall", .leave ⟨1⟩ "loft", .remove ⟨2⟩]
    ((r.run (ds.take 3)).2.room? "loft").isSome ∧
      (r.run ds).2 = (r.run [.leave ⟨1⟩ "hall", .join ⟨1⟩ "loft", .leave ⟨1⟩ "loft"]).2 := by
  intro r ds
  have hc : r.Consistent :=
    (consistent_empty.insert (by decide) (by decide)).join (by decide)
  have hv : Visits ⟨2⟩ "bob" false (ds.filter (·.doer? = some ⟨2⟩)) :=
    .come 8 1 (.join "hall" (.join "loft" (.leave "hall" (.go .away))))
  exact ⟨by decide, run_forgets_visits hc.coherent (by decide) (by decide) hv (by simp +contextual [ds])⟩

end Roster
end Parley
