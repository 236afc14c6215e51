import Mathlib.Data.List.Forall2
import Mathlib.Data.List.Nodup
import Parley.Message.Request
import Parley.Proofs.Json.Grammar
import Parley.Proofs.Json.Record

namespace Parley.Request

open Json

-- What there is to a request, with the names of the members.
def members (r : Request) : List (String × Option String) :=
  [("type", some r.kind), ("content", r.content), ("room_id", r.room), ("recipient_username", r.recipient)]

def keys : List String := ["type", "content", "room_id", "recipient_username"]

-- A text for something that may be missing.
def States (value : Option String) (text : List Char) : Prop :=
  match value with
  | some s => Spells s text
  | none   => text = "null".toList

-- Members of an object that say what there is to a request, in any order.  A member of any other name may say
-- anything, and more than once.
structure IsToldBy (r : Request) (entries : List Named) : Prop where
  names    : ∀ e ∈ entries, ∃ name, Spells name e.name.core
  values   : ∀ e ∈ entries, IsValue e.value.core
  once     : entries.Pairwise fun a b => ∀ name ∈ keys, Spells name a.name.core → ¬ Spells name b.name.core
  states   : ∀ e ∈ entries, ∀ m ∈ r.members, Spells m.1 e.name.core → States m.2 e.value.core
  complete : ∀ m ∈ r.members, m.2.isSome → ∃ e ∈ entries, Spells m.1 e.name.core

-- Items of an array, one for each member in its order; those at the end may be left out if there is nothing to them.
inductive AreListed : List (String × Option String) → List Part → Prop
  | cut {ms} (h : ∀ m ∈ ms, m.2 = none) : AreListed ms []
  | item {m ms p ps} (h : States m.2 p.core) (hs : AreListed ms ps) : AreListed (m :: ms) (p :: ps)

-- A text that stands for a request, with blanks wherever they may be.
inductive Represents (r : Request) (text : String) : Prop
  | object {p : Part} {b entries} (ht : text.toList = p.text) (hp : p.core = braced b entries) (hb : IsBlank b)
      (h : r.IsToldBy entries)
  | array {p : Part} {b items} (ht : text.toList = p.text) (hp : p.core = bracketed b items) (hb : IsBlank b)
      (h : AreListed r.members items)

-- Members of an object that represents no request.
def IsFaulty (entries : List Named) : Prop :=
  (∃ name ∈ keys, ∃ a b, [a, b].Sublist entries ∧ Spells name a.name.core ∧ Spells name b.name.core) ∨
  (∀ e ∈ entries, ¬ Spells "type" e.name.core) ∨
  (∃ e ∈ entries, Spells "type" e.name.core ∧ ∀ s, ¬ Spells s e.value.core)

variable {r : Request} {text : String} {cs : List Char} {value : Option String} {name : String} {c : Context}
  {f : Json.Field Request} {m : String × Option String} {ms : List (String × Option String)} {p : Part}
  {b : List Char} {entries : List Named} {items : List Part} {seen : List String} {e : Named}

theorem States.isValue (h : States value cs) : IsValue cs := by
  cases value
  case none => exact h ▸ .null
  case some => exact .string (Spells.isLiteral h)

-- A request of which some members are missing.
def only (r : Request) (seen : List String) : Request where
  kind := if "type" ∈ seen then r.kind else ""
  content := if "content" ∈ seen then r.content else none
  room := if "room_id" ∈ seen then r.room else none
  recipient := if "recipient_username" ∈ seen then r.recipient else none

theorem only_eq (h : ∀ m ∈ r.members, m.2.isSome → m.1 ∈ seen) : r.only seen = r := by
  simp only [members, List.forall_mem_cons, Option.isSome_some, true_implies] at h
  obtain ⟨hkind, hcontent, hroom, hrecipient, -⟩ := h
  have hif {name : String} {v : Option String} (h : v.isSome → name ∈ seen) :
      (if name ∈ seen then v else none) = v := by
    cases v
    case none => exact ite_self _
    case some => exact if_pos (h rfl)
  simp only [only, if_pos hkind, hif hcontent, hif hroom, hif hrecipient]

-- The field in which a member of a request is read.
structure Carries (r : Request) (m : String × Option String) (f : Json.Field Request) : Prop where
  name     : f.name = m.1
  optional : m.2 = none → f.required = false
  read     : ∀ {c cs}, States m.2 cs →
    ∃ set, f.read c (outline cs) = .ok set ∧ ∀ seen, set (r.only seen) = r.only (m.1 :: seen)

theorem string_of_states {s : String} (h : States (some s) cs) : Shape.string c (outline cs) = .ok s :=
  (States.isValue h).string_eq_ok_iff.mpr h

theorem optional_of_states (h : States value cs) : Shape.optional Shape.string c (outline cs) = .ok value := by
  cases value
  case none =>
    have hc : cs = "null".toList := h
    rw [hc, reads_null.outline_eq]
    rfl
  case some s =>
    have hs := string_of_states (c := c) h
    refine Shape.optional_eq (fun hn => ?_) hs
    rw [hn] at hs
    cases hs

theorem carries : List.Forall₂ r.Carries r.members record.fields := by
  refine .cons ⟨rfl, nofun, fun h => ⟨_, Shape.read_of (string_of_states h), fun seen => ?_⟩⟩ <|
    .cons ⟨rfl, fun _ => rfl, fun h => ⟨_, Shape.read_of (optional_of_states h), fun seen => ?_⟩⟩ <|
    .cons ⟨rfl, fun _ => rfl, fun h => ⟨_, Shape.read_of (optional_of_states h), fun seen => ?_⟩⟩ <|
    .cons ⟨rfl, fun _ => rfl, fun h => ⟨_, Shape.read_of (optional_of_states h), fun seen => ?_⟩⟩ .nil
  all_goals simp [only]

theorem exists_carries (hm : m ∈ r.members) : ∃ f ∈ record.fields, r.Carries m f := by
  have ⟨i, hi, he⟩ := List.mem_iff_getElem.mp hm
  have hlt := carries.length_eq ▸ hi
  exact ⟨_, List.getElem_mem hlt, he ▸ carries.get hi hlt⟩

theorem mem_keys_iff : name ∈ keys ↔ ∃ m ∈ r.members, m.1 = name :=
  List.mem_map (f := (·.1)) (l := r.members)

theorem field?_of_mem (h : f ∈ record.fields) : record.field? f.name = some f := by
  simp only [record, List.mem_cons, List.not_mem_nil, or_false] at h
  obtain rfl | rfl | rfl | rfl := h <;> rfl

theorem eq_type_of_required (h : f ∈ record.fields) (hr : f.required = true) : f.name = "type" := by
  simp only [record, List.mem_cons, List.not_mem_nil, or_false] at h
  obtain rfl | rfl | rfl | rfl := h
  case inl => rfl
  all_goals cases hr

theorem field?_eq_none (h : name ∉ keys) : record.field? name = none := by
  refine List.find?_eq_none.mpr fun f hf hn => h ?_
  exact (List.mem_map (l := record.fields)).mpr ⟨f, hf, eq_of_beq hn⟩

theorem isSome_field?_iff : (record.field? name).isSome ↔ name ∈ keys := by
  constructor
  case mp => exact fun h => Decidable.byContradiction fun hn => by simp [field?_eq_none hn] at h
  case mpr =>
    intro h
    have h : name ∈ record.fields.map (·.name) := h
    obtain ⟨f, hf, rfl⟩ := List.mem_map.mp h
    exact Record.isSome_field? hf

-- What is read of the members of an object.
def outlines (entries : List Named) : List (Outline × Outline) :=
  entries.map fun e => (outline e.name.core, outline e.value.core)

theorem ofText_of_reads {o : Outline} (ht : text.toList = p.text) (h : Reads p.core o) :
    ofText text = (record.shape .text o).mapError .text := by
  rw [ofText, ofChars, Json.read, ht, Document.ofChars_eq (Part.yields h)]
  cases record.shape .text o <;> rfl

theorem ofText_braced (ht : text.toList = p.text) (hp : p.core = braced b entries) (hb : IsBlank b)
    (hn : ∀ e ∈ entries, IsLiteral e.name.core) (hv : ∀ e ∈ entries, IsValue e.value.core) :
    ofText text =
      (record.readMembers ⟨127, false⟩ [] record.blank (.ofPairs (outlines entries))).mapError .text := by
  have hr : Reads p.core (.object (.ofPairs (outlines entries))) := by
    rw [hp]
    exact reads_object hb (fun e he => Part.yields (hn e he).sound.reads) fun e he =>
      Part.yields (hv e he).sound.reads
  exact ofText_of_reads ht hr

theorem IsToldBy.literal (h : r.IsToldBy entries) : ∀ e ∈ entries, IsLiteral e.name.core := by
  intro e he
  have ⟨name, hn⟩ := h.names e he
  exact hn.isLiteral

theorem IsToldBy.accepts (h : r.IsToldBy entries) : record.Accepts c [] (outlines entries) where
  each := by
    refine List.forall_mem_map.mpr fun e he => ?_
    have ⟨name, hn⟩ := h.names e he
    refine ⟨name, hn.isLiteral.name_eq_ok_iff.mpr hn, ?_⟩
    by_cases hk : name ∈ keys
    case neg => exact .inl ⟨field?_eq_none hk, (h.values e he).sound.fault⟩
    case pos =>
      obtain ⟨m, hm, rfl⟩ := (mem_keys_iff (r := r)).mp hk
      have ⟨f, hf, hc⟩ := exists_carries hm
      have ⟨set, hs, _⟩ := hc.read (c := c) (h.states e he m hm hn)
      exact .inr ⟨f, set, hc.name ▸ field?_of_mem hf, hs⟩
  once := by
    refine List.pairwise_map.mpr (h.once.imp_of_mem fun {a b} ha hb' hn name hk hna hnb => ?_)
    have hna := (h.literal a ha).name_eq_ok_iff.mp hna
    have hnb := (h.literal b hb').name_eq_ok_iff.mp hnb
    exact hn name (isSome_field?_iff.mp hk) hna hnb
  fresh := nofun
  complete := by
    intro f hf hr
    have ⟨e, he, hn⟩ := h.complete ("type", some r.kind) List.mem_cons_self rfl
    refine .inr ⟨_, List.mem_map_of_mem he, ?_⟩
    rw [eq_type_of_required hf hr]
    exact hn.isLiteral.name_eq_ok_iff.mpr hn

theorem IsToldBy.sets (h : r.IsToldBy entries) {m : Outline × Outline} {set : Request → Request}
    (hm : m ∈ outlines entries) (hn : m.1.name = .ok name) (hf : record.field? name = some f)
    (hs : f.read c m.2 = .ok set) (seen : List String) : set (r.only seen) = r.only (name :: seen) := by
  obtain ⟨e, he, rfl⟩ := List.mem_map.mp hm
  have hn := (h.literal e he).name_eq_ok_iff.mp hn
  have hk : name ∈ keys := isSome_field?_iff.mp (by rw [hf]; rfl)
  obtain ⟨m, hm, rfl⟩ := (mem_keys_iff (r := r)).mp hk
  have ⟨f', hf', hc⟩ := exists_carries hm
  have ⟨set', hs', hset⟩ := hc.read (c := c) (h.states e he m hm hn)
  cases hf.symm.trans (hc.name ▸ field?_of_mem hf')
  cases hs.symm.trans hs'
  exact hset seen

theorem ofText_object (ht : text.toList = p.text) (hp : p.core = braced b entries) (hb : IsBlank b)
    (h : r.IsToldBy entries) : ofText text = .ok r := by
  have ⟨seen, hr, _, hall⟩ := (h.accepts (c := ⟨127, false⟩)).readMembers_eq r.only fun _ hm _ _ _ => h.sets hm
  have hblank : r.only [] = record.blank := by simp [only, record]
  have honly : r.only seen = r := by
    refine only_eq fun m hm hs => ?_
    have ⟨e, he, hn⟩ := h.complete m hm hs
    exact hall _ (List.mem_map_of_mem he) m.1 (hn.isLiteral.name_eq_ok_iff.mpr hn)
      (isSome_field?_iff.mpr (mem_keys_iff.mpr ⟨m, hm, rfl⟩))
  rw [ofText_braced ht hp hb h.literal h.values, ← hblank, hr, honly]
  rfl

theorem AreListed.readItems (h : AreListed ms items) {fields : List (Json.Field Request)}
    (hf : List.Forall₂ r.Carries ms fields) (c : Context) (seen : List String) (n : Nat) :
    ∃ seen', record.readItems c n (r.only seen) fields (.ofList (items.map fun p => outline p.core)) =
        .ok (r.only seen') ∧ (∀ name ∈ seen, name ∈ seen') ∧ ∀ m ∈ ms, m.2.isSome → m.1 ∈ seen' := by
  induction h generalizing fields seen n
  -- What was left out is not needed by its field.
  case cut ms h =>
    have hr : ∀ f ∈ fields, f.required = false := by
      induction hf
      case nil => exact List.forall_mem_nil _
      case cons hc _ hi =>
        have ⟨hm, hms⟩ := List.forall_mem_cons.mp h
        exact List.forall_mem_cons.mpr ⟨hc.optional hm, hi hms⟩
    refine ⟨seen, Record.readItems_closed hr, fun _ => id, fun m hm hs => ?_⟩
    rw [h m hm] at hs
    cases hs
  case item m ms p ps h _ hi =>
    cases hf
    case cons f fields hc hf =>
      have ⟨set, hs, hset⟩ := hc.read (c := c) h
      have ⟨seen', hr, hsub, hall⟩ := hi hf (m.1 :: seen) (n + 1)
      refine ⟨seen', ?_, fun name hn => hsub name (List.mem_cons_of_mem _ hn), ?_⟩
      case refine_1 =>
        rw [List.map_cons, Items.ofList, Record.readItems, hs]
        change record.readItems c (n + 1) (set (r.only seen)) fields _ = _
        rw [hset, hr]
      case refine_2 => exact List.forall_mem_cons.mpr ⟨fun _ => hsub m.1 List.mem_cons_self, hall⟩

theorem AreListed.isValue (h : AreListed ms items) : ∀ p ∈ items, IsValue p.core := by
  induction h
  case cut => exact List.forall_mem_nil _
  case item h _ hi => exact List.forall_mem_cons.mpr ⟨h.isValue, hi⟩

theorem ofText_array (ht : text.toList = p.text) (hp : p.core = bracketed b items) (hb : IsBlank b)
    (h : AreListed r.members items) : ofText text = .ok r := by
  have hr : Reads p.core (.array (.ofList (items.map fun p => outline p.core))) :=
    hp ▸ reads_array hb fun p hp => Part.yields (h.isValue p hp).sound.reads
  have ⟨seen, hs, _, hall⟩ := h.readItems carries ⟨127, false⟩ [] 0
  have hblank : r.only [] = record.blank := by simp [only, record]
  have hshape : record.shape .text (.array (.ofList (items.map fun p => outline p.core))) = .ok r := by
    change record.readItems ⟨127, false⟩ 0 record.blank record.fields _ = _
    rw [← hblank, hs, only_eq hall]
  rw [ofText_of_reads ht hr, hshape]
  rfl

theorem not_accepts (hn : ∀ e ∈ entries, IsLiteral e.name.core) (hv : ∀ e ∈ entries, IsValue e.value.core)
    (h : IsFaulty entries) : ¬ record.Accepts c [] (outlines entries) := by
  intro ha
  obtain ⟨name, hk, a, b, hs, hna, hnb⟩ | hmissing | ⟨e, he, hne, hvalue⟩ := h
  case inl =>
    have ha : (outlines [a, b]).Pairwise _ := ha.once.sublist (hs.map _)
    have hne := List.pairwise_pair.mp ha name (isSome_field?_iff.mpr hk) (hna.isLiteral.name_eq_ok_iff.mpr hna)
    exact hne (hnb.isLiteral.name_eq_ok_iff.mpr hnb)
  case inr.inl =>
    have ⟨_, hm, htype⟩ := (ha.complete _ List.mem_cons_self rfl).resolve_left nofun
    obtain ⟨e, he, rfl⟩ := List.mem_map.mp hm
    exact hmissing e he ((hn e he).name_eq_ok_iff.mp htype)
  case inr.inr =>
    have ⟨name, hname, hread⟩ := ha.each _ (List.mem_map_of_mem he)
    cases ((hn e he).name_eq_ok_iff.mp hname).eq hne
    obtain ⟨hf, _⟩ | ⟨f, set, hf, hs⟩ := hread
    case inl => cases hf
    case inr =>
      cases hf
      have ⟨s, hs, _⟩ := exists_of_map_eq_ok hs
      exact hvalue s ((hv e he).string_eq_ok_iff.mp hs)

theorem ofText_faulty (ht : text.toList = p.text) (hp : p.core = braced b entries) (hb : IsBlank b)
    (hn : ∀ e ∈ entries, IsLiteral e.name.core) (hv : ∀ e ∈ entries, IsValue e.value.core) (h : IsFaulty entries) :
    ∃ error, ofText text = .error (.text error) := by
  rw [ofText_braced ht hp hb hn hv]
  cases hr : record.readMembers ⟨127, false⟩ [] record.blank (.ofPairs (outlines entries))
  case error error => exact ⟨error, rfl⟩
  case ok => exact absurd (.of_readMembers_eq_ok hr) (not_accepts hn hv h)

def bare (cs : List Char) : Part := ⟨[], cs, [], List.forall_mem_nil _, List.forall_mem_nil _⟩

-- A member as it is printed, if it is.
def printed? (m : String × Option String) : Option Named :=
  m.2.map fun s => ⟨bare (stringText m.1), bare (stringText s)⟩

@[simp] theorem text_bare : (bare cs).text = cs := by
  simp [Part.text, bare]

theorem braced_entries : braced [] (ms.filterMap printed?) =
    objectText (ms.filterMap fun m => m.2.map fun s => (m.1, stringText s)) := by
  have ht (m : String × Option String) : (printed? m).map Named.text =
      (m.2.map fun s => (m.1, stringText s)).map fun t => stringText t.1 ++ ':' :: t.2 := by
    simp only [printed?, Option.map_map]
    congr 1
    funext s
    simp [Named.text]
  simp only [braced, objectText, List.map_filterMap, ht]
  rfl

theorem chars_eq : r.chars = braced [] (r.members.filterMap printed?) := by
  rw [braced_entries]
  obtain ⟨_, _ | _, _ | _, _ | _⟩ := r <;> rfl

theorem nodup_keys : (r.members.map (·.1)).Nodup := by
  change keys.Nodup
  decide

theorem exists_member (h : e ∈ r.members.filterMap printed?) :
    ∃ m ∈ r.members, ∃ s, m.2 = some s ∧ e.name.core = stringText m.1 ∧ e.value.core = stringText s := by
  have ⟨m, hm, he⟩ := List.mem_filterMap.mp h
  obtain ⟨s, hs, rfl⟩ := Option.map_eq_some_iff.mp he
  exact ⟨m, hm, s, hs, rfl, rfl⟩

theorem isToldBy_printed : r.IsToldBy (r.members.filterMap printed?) where
  names e he := by
    have ⟨m, _, _, _, hn, _⟩ := exists_member he
    exact ⟨m.1, hn ▸ spells_stringText⟩
  values e he := by
    have ⟨_, _, _, _, _, hv⟩ := exists_member he
    exact hv ▸ .string spells_stringText.isLiteral
  once := by
    have hne : r.members.Pairwise fun a b => a.1 ≠ b.1 := List.pairwise_map.mp nodup_keys
    refine hne.filterMap printed? fun a b hab e he e' he' name _ hn hn' => hab ?_
    obtain ⟨_, _, rfl⟩ := Option.map_eq_some_iff.mp he
    obtain ⟨_, _, rfl⟩ := Option.map_eq_some_iff.mp he'
    exact (spells_stringText.eq hn).trans (hn'.eq spells_stringText)
  states e he m hm hn := by
    have ⟨m', hm', s, hs, hn', hv⟩ := exists_member he
    rw [hn'] at hn
    cases List.inj_on_of_nodup_map nodup_keys hm hm' (hn.eq spells_stringText)
    rw [hs, hv]
    exact spells_stringText
  complete m hm hs := by
    have ⟨s, hs⟩ := Option.isSome_iff_exists.mp hs
    refine ⟨⟨bare (stringText m.1), bare (stringText s)⟩, ?_, spells_stringText⟩
    exact List.mem_filterMap.mpr ⟨m, hm, by rw [printed?, hs]; rfl⟩

theorem represents_text : r.Represents r.text := by
  refine .object (p := bare r.chars) ?_ chars_eq (List.forall_mem_nil _) isToldBy_printed
  rw [text_bare]
  exact String.toList_ofList

theorem Represents.ofText_eq (h : r.Represents text) : ofText text = .ok r := by
  cases h
  case object ht hp hb h => exact ofText_object ht hp hb h
  case array ht hp hb h => exact ofText_array ht hp hb h

-- What stands for a request is read as just that request, and what is printed stands for it.  An object that says
-- something twice, or has no type that is a string, is refused, whatever else is in it.
theorem every_form_is_read :
    (∀ (r : Request) (text : String), r.Represents text → ofText text = .ok r) ∧
    (∀ r : Request, r.Represents r.text) ∧
    (∀ (text : String) (p : Part) (b : List Char) (entries : List Named), text.toList = p.text →
      p.core = braced b entries → IsBlank b → (∀ e ∈ entries, IsLiteral e.name.core) →
      (∀ e ∈ entries, IsValue e.value.core) → IsFaulty entries → ∃ error, ofText text = .error (.text error)) :=
  ⟨fun _ _ => Represents.ofText_eq, fun _ => represents_text, fun _ _ _ _ => ofText_faulty⟩

def spaced (cs : List Char) : Part where
  before := [' ']
  core := cs
  after := [' ']
  blank := ⟨List.forall_mem_singleton.mpr (.inl rfl), List.forall_mem_singleton.mpr (.inl rfl)⟩

-- A member that nobody knows, with an array in it and blanks all around.
theorem represents_ping :
    (ofKind .ping).Represents "\x7b \"mood\" : [null] , \"type\" : \"ping\" \x7d" := by
  have ht : "\x7b \"mood\" : [null] , \"type\" : \"ping\" \x7d".toList = (bare (braced []
      [⟨spaced (stringText "mood"), spaced (bracketed [] [bare "null".toList])⟩,
        ⟨spaced (stringText "type"), spaced (stringText "ping")⟩])).text := by
    decide
  have hmood {name : String} (hn : Spells name (stringText "mood")) : name ∉ keys := by
    cases hn.eq spells_stringText
    decide
  refine .object ht rfl (List.forall_mem_nil _) ⟨?names, ?values, ?once, ?states, ?complete⟩
  case names =>
    exact List.forall_mem_cons.mpr ⟨⟨_, spells_stringText⟩, List.forall_mem_singleton.mpr ⟨_, spells_stringText⟩⟩
  case values =>
    refine List.forall_mem_cons.mpr ⟨?_, List.forall_mem_singleton.mpr (.string spells_stringText.isLiteral)⟩
    exact .array (List.forall_mem_nil _) (List.forall_mem_singleton.mpr .null)
  case once => exact List.pairwise_pair.mpr fun name hk hn _ => hmood hn hk
  case states =>
    refine List.forall_mem_cons.mpr ⟨fun m hm hn => ?_, List.forall_mem_singleton.mpr fun m hm hn => ?_⟩
    case refine_1 => exact absurd (mem_keys_iff.mpr ⟨m, hm, rfl⟩) (hmood hn)
    case refine_2 =>
      have htype : m.1 = "type" := hn.eq spells_stringText
      cases List.inj_on_of_nodup_map nodup_keys hm List.mem_cons_self htype
      exact spells_stringText
  case complete =>
    refine List.forall_mem_cons.mpr ⟨fun _ => ?_, by simp [ofKind]⟩
    exact ⟨_, List.mem_cons_of_mem _ List.mem_cons_self, spells_stringText⟩

-- Blanks, a member that nobody knows, one that is missing, and one that is said twice.
theorem every_form_is_read_of_ping :
    (ofKind .ping).Represents "\x7b \"mood\" : [null] , \"type\" : \"ping\" \x7d" ∧
    ofText "\x7b \"mood\" : [null] , \"type\" : \"ping\" \x7d" = .ok (ofKind .ping) ∧
    (∃ error, ofText "\x7b\x7d" = .error (.text error)) ∧
    ∃ error, ofText "\x7b\"type\":\"ping\",\"content\":\"a\",\"content\":null\x7d" = .error (.text error) := by
  refine ⟨represents_ping, every_form_is_read.1 _ _ represents_ping, ?missing, ?twice⟩
  case missing =>
    exact every_form_is_read.2.2 "\x7b\x7d" (bare (braced [] [])) [] [] rfl rfl (List.forall_mem_nil _)
      (List.forall_mem_nil _) (List.forall_mem_nil _) (.inr (.inl (List.forall_mem_nil _)))
  case twice =>
    let entries : List Named :=
      [⟨bare (stringText "type"), bare (stringText "ping")⟩, ⟨bare (stringText "content"), bare (stringText "a")⟩,
        ⟨bare (stringText "content"), bare "null".toList⟩]
    have hnames : ∀ e ∈ entries, IsLiteral e.name.core := by
      simp only [entries, List.forall_mem_cons]
      exact ⟨spells_stringText.isLiteral, spells_stringText.isLiteral, spells_stringText.isLiteral,
        List.forall_mem_nil _⟩
    have hvalues : ∀ e ∈ entries, IsValue e.value.core := by
      simp only [entries, List.forall_mem_cons]
      exact ⟨.string spells_stringText.isLiteral, .string spells_stringText.isLiteral, .null, List.forall_mem_nil _⟩
    have htwice : IsFaulty entries :=
      .inl ⟨"content", by decide, _, _, List.sublist_cons_self _ _, spells_stringText, spells_stringText⟩
    exact every_form_is_read.2.2 _ (bare (braced [] entries)) [] entries (by decide) rfl (List.forall_mem_nil _)
      hnames hvalues htwice

end Parley.Request
