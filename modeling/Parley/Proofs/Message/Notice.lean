import Parley.Message.Notice
import Parley.Proofs.Json.Record
import Parley.Proofs.Time.Instant

namespace Parley

open Json

namespace Json.Shape

variable {α : Type} {c : Context} {a : α} {s : String}

theorem string_ofChars : string c (.string (.ofChars s.toList)) = .ok s :=
  Quoted.text_ofChars

theorem choice_ofChars {known : List (String × α)} (h : known.lookup s = some a) :
    choice known c (.string (.ofChars s.toList)) = .ok a := by
  have hp : choice known c (.string (.ofChars s.toList)) =
      (Quoted.ofChars s.toList).text >>= choice.pick known := rfl
  rw [hp, Quoted.text_ofChars]
  change choice.pick known s = _
  rw [choice.pick, h]

theorem word64_toNat {u : UInt64} : word64 c (.number (some (.whole u.toNat (fits_toNat u)))) = .ok u.toNat := by
  have hu : 0 ≤ (u.toNat : Int) ∧ (u.toNat : Int) < (0x10000000000000000 : Nat) := by
    have := u.toNat_lt
    omega
  simp only [word64, natural, hu, and_self, if_true, Int.toNat_natCast]

end Json.Shape

namespace Notice

variable {n : Notice} {s : String} {c : Context}

theorem Kind.lookup_name (k : Kind) : (all.map fun k => (k.name, k)).lookup k.name = some k := by
  cases k <;> rfl

-- What is written for each field of a notice.
def contents (n : Notice) : List (Option (List Char × Outline × (Notice → Notice))) :=
  let string s set := (stringText s, .string (.ofChars s.toList), set)
  [ some (string n.id fun m => { m with id := n.id }),
    some (string n.kind.name fun m => { m with kind := n.kind }),
    n.content.map fun s => string s fun m => { m with content := some s },
    n.user.map fun u =>
      (wholeText u.toNat, .number (some (.whole u.toNat (fits_toNat u))), fun m => { m with user := some u }),
    some (string n.username fun m => { m with username := n.username }),
    n.room.map fun s => string s fun m => { m with room := some s },
    n.recipient.map fun s => string s fun m => { m with recipient := some s },
    some (string n.time.text fun m => { m with time := n.time }),
    n.data.map fun v => (v.chars, .ofValue v, fun m => { m with data := some v }) ]

def cells (n : Notice) : List (Cell Notice) :=
  List.zipWith Cell.mk record.fields n.contents

theorem fields_eq : record.fields = n.cells.map (·.field) := rfl

theorem filterMap_cons_eq {α β : Type} {f : α → Option β} {a : α} {as : List α} :
    (a :: as).filterMap f = (f a).toList ++ as.filterMap f := by
  rw [List.filterMap_cons]
  cases f a <;> rfl

theorem chars_eq : n.chars = objectText ((n.cells.filterMap Cell.member?).map fun m => (m.1, m.2.1)) := by
  rw [List.map_filterMap]
  simp only [cells, contents, record, List.zipWith_cons_cons, List.zipWith_nil_left, filterMap_cons_eq, Cell.member?,
    Option.map_map, chars, optionalMember, List.append_assoc, List.filterMap_nil, List.append_nil]
  rfl

theorem foldl_fill : n.cells.foldl Cell.fill record.blank = n := by
  simp only [cells, contents, record, List.zipWith_cons_cons, List.zipWith_nil_left, List.foldl_cons, List.foldl_nil,
    Cell.fill]
  obtain ⟨_, _, _ | _, _ | _, _, _ | _, _ | _, _, _ | _⟩ := n <;> rfl

-- A notice whose text says all that there is to it.  Of the levels that a document may have, the notice itself
-- is the first.
structure IsPlain (n : Notice) : Prop where
  year : 0 ≤ n.time.date.year ∧ n.time.date.year ≤ 9999
  nano : n.time.nano < Time.nanosPerSecond
  data : ∀ v, n.data = some v → v ≠ .null ∧ v.Plain 126

theorem timeShape_text {t : Time.Instant} (hy : 0 ≤ t.date.year ∧ t.date.year ≤ 9999)
    (hn : t.nano < Time.nanosPerSecond) : timeShape c (.string (.ofChars t.text.toList)) = .ok t := by
  have ht : t.text.toList = t.chars := String.toList_ofList
  have hr : Time.Instant.read t.text.toList = some t := ht ▸ Time.Instant.read_chars hy hn
  simp only [timeShape, Quoted.text_ofChars, bind, Except.bind, hr]

theorem ofValue_ne_null {v : Value} (h : v ≠ .null) : Outline.ofValue v ≠ .null := by
  cases v <;> simp_all [Outline.ofValue]

theorem IsPlain.legible (h : n.IsPlain) : ∀ cell ∈ n.cells, cell.Legible ⟨127, false⟩ := by
  have hs {s : String} {set : String → Notice → Notice} {name : String} {required : Bool} :
      Reads (stringText s) (.string (.ofChars s.toList)) ∧
      (Field.of name required Shape.string set).read ⟨127, false⟩ (.string (.ofChars s.toList)) =
        .ok (set s) :=
    ⟨reads_string, Shape.read_of Shape.string_ofChars⟩
  have ho {s : String} {set : Option String → Notice → Notice} {name : String} {required : Bool} :
      Reads (stringText s) (.string (.ofChars s.toList)) ∧
      (Field.of name required (Shape.optional Shape.string) set).read ⟨127, false⟩
        (.string (.ofChars s.toList)) = .ok (set (some s)) :=
    ⟨reads_string, Shape.read_of (Shape.optional_eq nofun Shape.string_ofChars)⟩
  simp only [cells, contents, record, List.zipWith_cons_cons, List.zipWith_nil_left, List.forall_mem_cons]
  refine ⟨?id, ?kind, ?content, ?user, ?username, ?room, ?recipient, ?time, ?data, List.forall_mem_nil _⟩
  case id => exact hs
  case kind => exact ⟨reads_string, Shape.read_of (Shape.choice_ofChars (Kind.lookup_name _))⟩
  case content =>
    cases hc : n.content
    case none => rfl
    case some s => exact ho
  case user =>
    cases hc : n.user
    case none => rfl
    case some u =>
      refine ⟨reads_whole (fits_toNat u), ?_⟩
      rw [Shape.read_of (Shape.optional_eq (by simp) Shape.word64_toNat)]
      simp
  case username => exact hs
  case room =>
    cases hc : n.room
    case none => rfl
    case some s => exact ho
  case recipient =>
    cases hc : n.recipient
    case none => rfl
    case some s => exact ho
  case time => exact ⟨reads_string, Shape.read_of (timeShape_text h.year h.nano)⟩
  case data =>
    cases hc : n.data
    case none => rfl
    case some v =>
      obtain ⟨hn, hp⟩ := h.data v hc
      exact ⟨hp.reads, Shape.read_of (Shape.optional_eq (ofValue_ne_null hn) (hp.value (by decide)))⟩

-- What is written can be read, and is what was written: no two notices have the same text.
theorem ofText_text (h : n.IsPlain) : ofText n.text = .ok n := by
  have ht : n.text.toList = n.chars := String.toList_ofList
  have hn : (n.cells.map (·.field.name)).Nodup := by
    change ["id", "type", "content", "user_id", "username", "room_id", "recipient_username", "timestamp",
      "data"].Nodup
    decide
  rw [ofText, ht, Record.read_cells hn fields_eq h.legible chars_eq, foldl_fill]

-- A notice without a recipient, with a number of 64 bits and with nested data, at a fraction of a second.
theorem ofText_text_nested :
    let data : Value := .object [("kinds", .array [.null, .number (.whole (-1) (by decide))]), ("open", .bool true)]
    let n : Notice := ⟨"1", .chatMessage, some "\"hall\"\n\\", some 18446744073709551615, "ann", some "hall", none,
      ⟨⟨1999, 12, 31, by decide, by decide⟩, 86399, 120000000, by decide, by decide⟩, some data⟩
    n.IsPlain ∧ ofText n.text = .ok n := by
  intro data n
  have hd : data.Plain 126 := by
    refine .object (by decide) (List.forall_mem_cons.mpr ⟨?_, List.forall_mem_singleton.mpr .bool⟩)
    exact .array (List.forall_mem_cons.mpr ⟨.null, List.forall_mem_singleton.mpr .whole⟩)
  have hn : n.IsPlain := ⟨by decide, by decide, fun v hv => Option.some.inj hv ▸ ⟨nofun, hd⟩⟩
  exact ⟨hn, ofText_text hn⟩

end Notice
end Parley
