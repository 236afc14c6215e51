import Parley.Proofs.Json.Outline

namespace Parley.Json

section Values

variable {c : Context} {d : Nat} {v : Value} {vs : List Value} {acc ms : List (String × Value)} {name : String}

theorem Value.insertMember_of_lt (h : ∀ m ∈ ms, m.1 < name) : insertMember name v ms = ms ++ [(name, v)] := by
  induction ms
  case nil => rfl
  case cons m ms hi =>
    have ⟨hm, hms⟩ := List.forall_mem_cons.mp h
    have hn : m.1 ≠ name := fun he => String.lt_irrefl _ (he ▸ hm)
    simp [insertMember, String.lt_asymm hm, hn.symm, hi hms]

theorem Value.foldl_insertMember (h : (acc ++ ms).Pairwise (·.1 < ·.1)) :
    ms.foldl (fun ms (k, v) => insertMember k v ms) acc = acc ++ ms := by
  induction ms generalizing acc
  case nil => simp
  case cons m ms hi =>
    have hm a (ha : a ∈ acc) : a.1 < m.1 := (List.pairwise_append.mp h).2.2 a ha m List.mem_cons_self
    have hs : insertMember m.1 m.2 acc = acc ++ [m] := insertMember_of_lt hm
    rw [List.append_cons] at h ⊢
    rw [List.foldl_cons]
    simp only [hs, hi h]

-- Members that are in order already stay as they are.
theorem Value.ofMembers_of_pairwise (h : ms.Pairwise (·.1 < ·.1)) : ofMembers ms = .object ms := by
  have hf : ms.foldl (fun ms (k, v) => insertMember k v ms) [] = [] ++ ms := foldl_insertMember h
  rw [ofMembers, hf, List.nil_append]

theorem Context.descend_of_lt (h : 1 < c.depth) : c.descend = .ok { c with depth := c.depth - 1 } :=
  if_neg (Nat.not_le.mpr h)

theorem Items.values_ofValues (h : ∀ v ∈ vs, (Outline.ofValue v).value c = .ok v) :
    (ofValues vs).values c = .ok vs := by
  induction vs
  case nil => rfl
  case cons v vs hi =>
    have ⟨hv, hvs⟩ := List.forall_mem_cons.mp h
    simp only [ofValues, values, hv, hi hvs]
    rfl

theorem Members.values_ofValues (h : ∀ m ∈ ms, (Outline.ofValue m.2).value c = .ok m.2) :
    (ofValues ms).values c = .ok ms := by
  induction ms
  case nil => rfl
  case cons m ms hi =>
    have ⟨hm, hms⟩ := List.forall_mem_cons.mp h
    simp only [ofValues, values, Outline.name, Quoted.text_ofChars, hm, hi hms]
    rfl

-- A value that is nested no deeper than the context allows is read back as it is.
theorem Value.Plain.value (h : v.Plain d) (hc : d < c.depth) : (Outline.ofValue v).value c = .ok v := by
  induction h generalizing c
  case null | bool | whole => rfl
  case string => simp [Outline.ofValue, Outline.value, Quoted.text_ofChars, Except.map]
  case array d items _ hi =>
    have hv := Items.values_ofValues (c := { c with depth := c.depth - 1 }) fun v hm =>
      hi v hm (Nat.lt_sub_of_add_lt hc)
    simp only [Outline.ofValue, Outline.value, Context.descend_of_lt (Nat.lt_of_le_of_lt (by omega) hc)]
    change (Items.values _ _ >>= _) = _
    rw [hv]
    rfl
  case object d members hs _ hi =>
    have hv := Members.values_ofValues (c := { c with depth := c.depth - 1 }) fun m hm =>
      hi m hm (Nat.lt_sub_of_add_lt hc)
    simp only [Outline.ofValue, Outline.value, Context.descend_of_lt (Nat.lt_of_le_of_lt (by omega) hc)]
    change (Members.values _ _ >>= _) = _
    rw [hv]
    change Except.ok (Value.ofMembers members) = _
    rw [Value.ofMembers_of_pairwise hs]

end Values

namespace Shape

variable {α σ : Type} {shape : Shape α} {c : Context} {o : Outline} {a : α}

theorem optional_eq (hn : o ≠ .null) (h : shape c o = .ok a) : optional shape c o = .ok (some a) := by
  cases o
  case null => exact absurd rfl hn
  all_goals exact congrArg (Except.map some) h

theorem read_of {name : String} {required : Bool} {set : α → σ → σ} (h : shape c o = .ok a) :
    (Field.of name required shape set).read c o = .ok (set a) := by
  simp [Field.of, h, Except.map]

end Shape

-- A member as it is written, if it is, with its outline and with what it changes in the record.
structure Cell (σ : Type) where
  field : Field σ
  content : Option (List Char × Outline × (σ → σ))

namespace Cell

variable {σ : Type} {c : Context}

-- The name of a member, its text and its outline, if it is written.
def member? (cell : Cell σ) : Option (String × List Char × Outline) :=
  cell.content.map fun (text, o, _) => (cell.field.name, text, o)

def fill (x : σ) (cell : Cell σ) : σ :=
  match cell.content with
  | some (_, _, set) => set x
  | none => x

-- Only what may be missing is missing, and what is written is read as the change that it stands for.
def Legible (c : Context) (cell : Cell σ) : Prop :=
  match cell.content with
  | some (text, o, set) => Reads text o ∧ cell.field.read c o = .ok set
  | none => cell.field.required = false

end Cell

section Records

variable {σ : Type} {r : Record σ} {c : Context} {cells todo : List (Cell σ)} {x : σ}

-- The members that are written, with their outlines.
def outlines (cells : List (Cell σ)) : List (String × Outline) :=
  (cells.filterMap Cell.member?).map fun m => (m.1, m.2.2)

def written (cells : List (Cell σ)) : List String :=
  (cells.filterMap Cell.member?).map (·.1)

theorem mem_written {name : String} :
    name ∈ written cells ↔ ∃ cell ∈ cells, cell.content.isSome ∧ cell.field.name = name := by
  simp only [written, List.mem_map, List.mem_filterMap, Cell.member?, Option.map_eq_some_iff,
    Option.isSome_iff_exists]
  constructor
  case mp =>
    rintro ⟨_, ⟨cell, hm, content, hc, rfl⟩, rfl⟩
    exact ⟨cell, hm, ⟨content, hc⟩, rfl⟩
  case mpr =>
    rintro ⟨cell, hm, ⟨content, hc⟩, rfl⟩
    exact ⟨_, ⟨cell, hm, content, hc, rfl⟩, rfl⟩

theorem find?_field {cell : Cell σ} (hn : (cells.map (·.field.name)).Nodup) (hm : cell ∈ cells) :
    (cells.map (·.field)).find? (fun f => f.name == cell.field.name) = some cell.field := by
  induction cells
  case nil => cases hm
  case cons a cells hi =>
    have ⟨ha, hn⟩ := List.nodup_cons.mp hn
    cases List.mem_cons.mp hm
    case inl heq => simp [heq]
    case inr hm =>
      have hne : a.field.name ≠ cell.field.name := fun heq => ha (List.mem_map.mpr ⟨cell, hm, heq.symm⟩)
      simp [hne, hi hn hm]

-- A record is read from those of its members that are written, in the order of its fields.
theorem Record.readMembers_cells (done : List (Cell σ)) (hn : ((done ++ todo).map (·.field.name)).Nodup)
    (hf : r.fields = (done ++ todo).map (·.field)) (hl : ∀ cell ∈ done ++ todo, cell.Legible c) :
    r.readMembers c (written done).reverse x (.ofList (outlines todo)) = .ok (todo.foldl Cell.fill x) := by
  induction todo generalizing done x
  case nil =>
    have hr : r.fields.find? (fun f => f.required && !(written done).reverse.contains f.name) = none := by
      rw [hf, List.append_nil, List.find?_eq_none]
      intro f hf
      obtain ⟨cell, hm, rfl⟩ := List.mem_map.mp hf
      have hl := hl cell (List.mem_append_left _ hm)
      cases hc : cell.content
      case none =>
        simp only [Cell.Legible, hc] at hl
        simp [hl]
      case some content =>
        have hw : cell.field.name ∈ written done := mem_written.mpr ⟨cell, hm, by simp [hc], rfl⟩
        simp [hw]
    have ho : outlines ([] : List (Cell σ)) = [] := rfl
    rw [ho, Members.ofList, readMembers, hr]
    rfl
  case cons cell todo hi =>
    have ha : done ++ cell :: todo = (done ++ [cell]) ++ todo := List.append_cons ..
    have hm : cell ∈ done ++ cell :: todo := List.mem_append_right _ List.mem_cons_self
    have hcl := hl cell hm
    have hi := hi (done ++ [cell]) (x := cell.fill x) (ha ▸ hn) (ha ▸ hf) (ha ▸ hl)
    rw [List.foldl_cons, ← hi]
    cases hc : cell.content
    case none =>
      have hm? : cell.member? = none := by simp [Cell.member?, hc]
      simp [outlines, written, hm?, Cell.fill, hc]
    case some content =>
      obtain ⟨text, o, set⟩ := content
      have hm? : cell.member? = some (cell.field.name, text, o) := by simp [Cell.member?, hc]
      have hread : cell.field.read c o = .ok set := by
        simp only [Cell.Legible, hc] at hcl
        exact hcl.2
      -- Names are told apart, so this member has not been read before.
      have hs : (written done).reverse.contains cell.field.name = false := by
        rw [List.contains_eq_mem, decide_eq_false_iff_not, List.mem_reverse, mem_written]
        rintro ⟨a, hm, _, hname⟩
        rw [List.map_append, List.map_cons] at hn
        exact (List.nodup_append.mp hn).2.2 _ (List.mem_map_of_mem hm) _ List.mem_cons_self hname
      have ho : outlines (cell :: todo) = (cell.field.name, o) :: outlines todo := by simp [outlines, hm?]
      have hw : (written (done ++ [cell])).reverse = cell.field.name :: (written done).reverse := by
        simp [written, hm?]
      rw [ho, hw, Members.ofList, readMembers]
      have hfield : r.fields.find? (·.name == cell.field.name) = some cell.field := hf ▸ find?_field hn hm
      simp only [Outline.name, Quoted.text_ofChars, bind, Except.bind, hfield, hs, hread, Cell.fill, hc]
      rfl

theorem Record.read_cells {text : List Char} (hn : (cells.map (·.field.name)).Nodup)
    (hf : r.fields = cells.map (·.field)) (hl : ∀ cell ∈ cells, cell.Legible ⟨127, false⟩)
    (ht : text = objectText ((cells.filterMap Cell.member?).map fun m => (m.1, m.2.1))) :
    read r.shape text = .ok (cells.foldl Cell.fill r.blank) := by
  have hr : Reads text (.object (.ofList (outlines cells))) := by
    rw [ht]
    refine reads_objectText fun m hm => ?_
    have ⟨cell, hcell, hc⟩ := List.mem_filterMap.mp hm
    have ⟨(t, o, set), ht, heq⟩ := Option.map_eq_some_iff.mp hc
    have hl := hl cell hcell
    simp only [Cell.Legible, ht] at hl
    exact heq ▸ hl.1
  have hm := readMembers_cells (r := r) (c := ⟨127, false⟩) [] (x := r.blank) hn hf hl
  simp only [read, Document.ofChars_eq hr.yields_self]
  change (r.readMembers ⟨127, false⟩ [] r.blank (.ofList (outlines cells)) >>= _) = _
  have hw : (written ([] : List (Cell σ))).reverse = [] := rfl
  rw [← hw, hm]
  rfl

end Records

section Order

variable {σ : Type} {r : Record σ} {c : Context} {seen : List String} {name : String} {k o : Outline} {x y : σ}
  {m : Outline × Outline} {rest : Members} {ms : List (Outline × Outline)} {f : Field σ}

def Record.field? (r : Record σ) (name : String) : Option (Field σ) := r.fields.find? fun f => f.name == name

theorem Record.isSome_field? (h : f ∈ r.fields) : (r.field? f.name).isSome :=
  List.find?_isSome.mpr ⟨f, h, beq_self_eq_true f.name⟩

-- Members of a record that can be read after those in `seen`.
structure Record.Accepts (r : Record σ) (c : Context) (seen : List String) (ms : List (Outline × Outline)) :
    Prop where
  each     : ∀ m ∈ ms, ∃ name, m.1.name = .ok name ∧
    (r.field? name = none ∧ m.2.fault? = none ∨ ∃ f set, r.field? name = some f ∧ f.read c m.2 = .ok set)
  once     : ms.Pairwise fun a b => ∀ name, (r.field? name).isSome → a.1.name = .ok name → b.1.name ≠ .ok name
  fresh    : ∀ m ∈ ms, ∀ name ∈ seen, (r.field? name).isSome → m.1.name ≠ .ok name
  complete : ∀ f ∈ r.fields, f.required = true → f.name ∈ seen ∨ ∃ m ∈ ms, m.1.name = .ok f.name

namespace Record

theorem readMembers_closed_eq_ok_iff : r.readMembers c seen x .closed = .ok y ↔
    (∀ f ∈ r.fields, f.required = true → f.name ∈ seen) ∧ x = y := by
  rw [readMembers]
  split
  case h_1 f hf =>
    have ⟨hr, hs⟩ : f.required = true ∧ f.name ∉ seen := by simpa using List.find?_some hf
    exact ⟨nofun, fun h => absurd (h.1 f (List.mem_of_find?_eq_some hf) hr) hs⟩
  case h_2 hn =>
    have hn : ∀ f ∈ r.fields, f.required = true → f.name ∈ seen := by simpa using hn
    exact ⟨fun h => ⟨hn, Except.ok.inj h⟩, fun h => congrArg Except.ok h.2⟩

-- A member is passed over if nobody knows its name, and is otherwise read for the first time.
theorem readMembers_cons_eq_ok_iff : r.readMembers c seen x (.cons k o rest) = .ok y ↔
    ∃ name, k.name = .ok name ∧
      (r.field? name = none ∧ o.fault? = none ∧ r.readMembers c seen x rest = .ok y ∨
        ∃ f set, r.field? name = some f ∧ name ∉ seen ∧ f.read c o = .ok set ∧
          r.readMembers c (name :: seen) (set x) rest = .ok y) := by
  rw [readMembers]
  cases hk : k.name
  case error => simp [bind, Except.bind]
  case ok name =>
    cases hf : r.field? name
    case none =>
      have hf' : r.fields.find? (fun f => f.name == name) = none := hf
      cases ho : o.fault? <;> simp [Outline.skip, ho, hf, hf', bind, Except.bind]
    case some f =>
      have hf' : r.fields.find? (fun f => f.name == name) = some f := hf
      by_cases hs : name ∈ seen <;> cases hr : f.read c o <;> simp [hf, hf', hs, hr, bind, Except.bind]

namespace Accepts

variable (h : r.Accepts c seen (m :: ms))

include h

theorem of_unknown (hn : m.1.name = .ok name) (hf : r.field? name = none) : r.Accepts c seen ms where
  each := (List.forall_mem_cons.mp h.each).2
  once := (List.pairwise_cons.mp h.once).2
  fresh := (List.forall_mem_cons.mp h.fresh).2
  complete f hm hr := by
    obtain hs | ⟨m', hm', hn'⟩ := h.complete f hm hr
    case inl => exact .inl hs
    case inr =>
      refine .inr ⟨m', (List.mem_cons.mp hm').resolve_left fun heq => ?_, hn'⟩
      cases hn.symm.trans (heq ▸ hn')
      exact absurd (isSome_field? hm) (by simp [hf])

theorem of_known (hn : m.1.name = .ok name) (hf : r.field? name = some f) :
    name ∉ seen ∧ r.Accepts c (name :: seen) ms := by
  have hsome : (r.field? name).isSome := hf ▸ rfl
  have ⟨honce, hpairs⟩ := List.pairwise_cons.mp h.once
  have ⟨hfresh, hfreshes⟩ := List.forall_mem_cons.mp h.fresh
  refine ⟨fun hs => hfresh name hs hsome hn, (List.forall_mem_cons.mp h.each).2, hpairs, fun m' hm => ?_,
    fun f' hm hr => ?_⟩
  case refine_1 => exact List.forall_mem_cons.mpr ⟨fun _ => honce m' hm name hsome hn, hfreshes m' hm⟩
  case refine_2 =>
    obtain hs | ⟨m', hm', hn'⟩ := h.complete f' hm hr
    case inl => exact .inl (List.mem_cons_of_mem _ hs)
    case inr =>
      refine (List.mem_cons.mp hm').imp (fun heq => ?_) fun hm' => ⟨m', hm', hn'⟩
      cases hn.symm.trans (heq ▸ hn')
      exact List.mem_cons_self

omit h

theorem cons_unknown (h : r.Accepts c seen ms) (hn : m.1.name = .ok name) (hf : r.field? name = none)
    (ho : m.2.fault? = none) : r.Accepts c seen (m :: ms) := by
  have hne : ∀ name', (r.field? name').isSome → m.1.name ≠ .ok name' := by
    intro name' hsome hn'
    cases hn.symm.trans hn'
    simp [hf] at hsome
  refine ⟨List.forall_mem_cons.mpr ⟨⟨name, hn, .inl ⟨hf, ho⟩⟩, h.each⟩, List.pairwise_cons.mpr ⟨?_, h.once⟩,
    List.forall_mem_cons.mpr ⟨fun name' _ => hne name', h.fresh⟩, fun f hf hr => ?_⟩
  case refine_1 => exact fun m' _ name' hsome hn' => absurd hn' (hne name' hsome)
  case refine_2 =>
    exact (h.complete f hf hr).imp_right fun ⟨m', hm', hn'⟩ => ⟨m', List.mem_cons_of_mem _ hm', hn'⟩

theorem cons_known {set : σ → σ} (h : r.Accepts c (name :: seen) ms) (hn : m.1.name = .ok name)
    (hf : r.field? name = some f) (hs : name ∉ seen) (hset : f.read c m.2 = .ok set) :
    r.Accepts c seen (m :: ms) := by
  have hsome : (r.field? name).isSome := hf ▸ rfl
  refine ⟨List.forall_mem_cons.mpr ⟨⟨name, hn, .inr ⟨f, set, hf, hset⟩⟩, h.each⟩,
    List.pairwise_cons.mpr ⟨?once, h.once⟩, List.forall_mem_cons.mpr ⟨?self, ?rest⟩, fun f' hf' hr => ?complete⟩
  case once =>
    intro m' hm' name' _ hn'
    cases hn.symm.trans hn'
    exact h.fresh m' hm' name List.mem_cons_self hsome
  case self =>
    intro name' hs' _ hn'
    cases hn.symm.trans hn'
    exact hs hs'
  case rest => exact fun m' hm' name' hs' => h.fresh m' hm' name' (List.mem_cons_of_mem _ hs')
  case complete =>
    obtain hs' | ⟨m', hm', hn'⟩ := h.complete f' hf' hr
    case inr => exact .inr ⟨m', List.mem_cons_of_mem _ hm', hn'⟩
    case inl =>
      refine (List.mem_cons.mp hs').symm.imp_right fun heq => ⟨m, List.mem_cons_self, ?_⟩
      rw [heq, hn]

end Accepts

-- Whatever can be read is accepted.
theorem Accepts.of_readMembers_eq_ok (h : r.readMembers c seen x (.ofPairs ms) = .ok y) : r.Accepts c seen ms := by
  induction ms generalizing seen x
  case nil =>
    have ⟨hs, _⟩ := readMembers_closed_eq_ok_iff.mp h
    exact ⟨List.forall_mem_nil _, .nil, List.forall_mem_nil _, fun f hf hr => .inl (hs f hf hr)⟩
  case cons m ms hi =>
    obtain ⟨name, hn, ⟨hf, ho, h⟩ | ⟨f, set, hf, hs, hset, h⟩⟩ := readMembers_cons_eq_ok_iff.mp h
    case inl => exact (hi h).cons_unknown hn hf ho
    case inr => exact (hi h).cons_known hn hf hs hset

-- Whatever is accepted can be read.  Where `only` is what is left of a record if only some of its members are
-- read, the order in which they are read does not matter.
theorem Accepts.readMembers_eq (only : List String → σ) (h : r.Accepts c seen ms)
    (hset : ∀ m ∈ ms, ∀ name f set, m.1.name = .ok name → r.field? name = some f → f.read c m.2 = .ok set →
      ∀ seen, set (only seen) = only (name :: seen)) :
    ∃ seen', r.readMembers c seen (only seen) (.ofPairs ms) = .ok (only seen') ∧ (∀ name ∈ seen, name ∈ seen') ∧
      ∀ m ∈ ms, ∀ name, m.1.name = .ok name → (r.field? name).isSome → name ∈ seen' := by
  induction ms generalizing seen
  case nil =>
    have hs : ∀ f ∈ r.fields, f.required = true → f.name ∈ seen :=
      fun f hf hr => (h.complete f hf hr).resolve_right nofun
    exact ⟨seen, readMembers_closed_eq_ok_iff.mpr ⟨hs, rfl⟩, fun _ => id, List.forall_mem_nil _⟩
  case cons m ms hi =>
    have ⟨⟨name, hn, hm⟩, _⟩ := List.forall_mem_cons.mp h.each
    have ⟨hself, hset⟩ := List.forall_mem_cons.mp hset
    obtain ⟨hf, ho⟩ | ⟨f, set, hf, hs⟩ := hm
    case inl =>
      have ⟨seen', hr, hsub, hall⟩ := hi (h.of_unknown hn hf) hset
      refine ⟨seen', readMembers_cons_eq_ok_iff.mpr ⟨name, hn, .inl ⟨hf, ho, hr⟩⟩, hsub, ?_⟩
      refine List.forall_mem_cons.mpr ⟨fun name' hn' hsome => ?_, hall⟩
      cases hn.symm.trans hn'
      simp [hf] at hsome
    case inr =>
      have ⟨hfresh, ha⟩ := h.of_known hn hf
      have ⟨seen', hr, hsub, hall⟩ := hi ha hset
      rw [← hself name f set hn hf hs seen] at hr
      refine ⟨seen', readMembers_cons_eq_ok_iff.mpr ⟨name, hn, .inr ⟨f, set, hf, hfresh, hs, hr⟩⟩, ?_, ?_⟩
      · exact fun name' hs' => hsub name' (List.mem_cons_of_mem _ hs')
      · refine List.forall_mem_cons.mpr ⟨fun name' hn' _ => ?_, hall⟩
        cases hn.symm.trans hn'
        exact hsub name List.mem_cons_self

-- Items may end early, unless one that has to be there is missing.
theorem readItems_closed {n : Nat} {fields : List (Field σ)} (h : ∀ f ∈ fields, f.required = false) :
    r.readItems c n x fields .closed = .ok x := by
  induction fields generalizing n
  case nil => rfl
  case cons f fields hi =>
    have ⟨hf, hfs⟩ := List.forall_mem_cons.mp h
    rw [readItems, hf]
    exact hi hfs

end Record
end Order

-- Whatever is read in a shape has a property.
def Shape.Ensures {α : Type} (shape : Shape α) (p : α → Prop) : Prop := ∀ ⦃c o a⦄, shape c o = .ok a → p a

-- A property of a record outlasts the reading of a member into it.
def Field.Keeps {σ : Type} (f : Field σ) (q : σ → Prop) : Prop :=
  ∀ ⦃c o set⦄, f.read c o = .ok set → ∀ ⦃x⦄, q x → q (set x)

section Ensures

variable {α σ : Type} {p : α → Prop} {q : σ → Prop} {shape : Shape α} {set : α → σ → σ} {r : Record σ} {c : Context}
  {o : Outline} {name expected : String} {required : Bool} {x y : σ} {a : α}

theorem Outline.unexpected_ne_ok : o.unexpected expected ≠ .ok a := by
  cases o
  case null | bool | array | object | broken => exact nofun
  case number n => cases n <;> exact nofun
  case string s =>
    simp only [unexpected]
    cases s.text <;> exact nofun

theorem Shape.ensures_natural {bound : Nat} : (natural name bound).Ensures (· < bound) := by
  intro c o n h
  simp only [natural] at h
  split at h
  case h_1 i _ =>
    split at h
    case isTrue hi => cases h; omega
    case isFalse => cases h
  case h_2 => exact absurd h Outline.unexpected_ne_ok

theorem Shape.ensures_true : shape.Ensures fun _ => True := fun _ _ _ _ => trivial

theorem Field.Keeps.of (h : shape.Ensures p) (hs : ∀ a, p a → ∀ x, q x → q (set a x)) :
    (Field.of name required shape set).Keeps q := by
  intro c o set' hset x hx
  cases ha : shape c o
  case error => simp [Field.of, ha, Except.map] at hset
  case ok a =>
    have heq : set a = set' := by simpa [Field.of, ha, Except.map] using hset
    exact heq ▸ hs a (h ha) x hx

namespace Record

theorem readMembers_keeps {x : σ} {seen : List String} {ms : Members} (hf : ∀ f ∈ r.fields, f.Keeps q) (hx : q x)
    (h : r.readMembers c seen x ms = .ok y) : q y := by
  match ms with
  | .closed => exact (readMembers_closed_eq_ok_iff.mp h).2 ▸ hx
  | .broken _ => cases h
  | .cons _ _ rest =>
    obtain ⟨name, _, ⟨_, _, h⟩ | ⟨f, set, hm, _, hset, h⟩⟩ := readMembers_cons_eq_ok_iff.mp h
    case inl => exact readMembers_keeps hf hx h
    case inr => exact readMembers_keeps hf (hf f (List.mem_of_find?_eq_some hm) hset hx) h

theorem readItems_keeps {n : Nat} {fields : List (Field σ)} {items : Items} (hf : ∀ f ∈ fields, f.Keeps q) (hx : q x)
    (h : r.readItems c n x fields items = .ok y) : q y := by
  induction fields generalizing n x items
  case nil =>
    cases items
    case closed => cases h; exact hx
    case broken => cases h
    case cons =>
      simp only [readItems] at h
      split at h
      case isTrue => cases h; exact hx
      case isFalse => cases h
  case cons f fields hi =>
    have ⟨hf, hfs⟩ := List.forall_mem_cons.mp hf
    cases items
    case closed =>
      simp only [readItems] at h
      split at h
      case isTrue => cases h
      case isFalse => exact hi hfs hx h
    case broken => cases h
    case cons item rest =>
      cases hs : f.read c item
      case error => simp [readItems, hs, bind, Except.bind] at h
      case ok set =>
        simp only [readItems, hs, bind, Except.bind] at h
        exact hi hfs (hf hs hx) h

-- What holds of a record without members, and outlasts the reading of each, holds of whatever is read.
theorem ensures (hb : q r.blank) (hf : ∀ f ∈ r.fields, f.Keeps q) : r.shape.Ensures q := by
  intro c o x h
  simp only [shape] at h
  split at h
  case h_1 =>
    cases hc : c.descend
    case error => simp [hc, bind, Except.bind] at h
    case ok => exact readItems_keeps hf hb (by simpa [hc, bind, Except.bind] using h)
  case h_2 =>
    cases hc : c.descend
    case error => simp [hc, bind, Except.bind] at h
    case ok => exact readMembers_keeps hf hb (by simpa [hc, bind, Except.bind] using h)
  case h_3 => exact absurd h Outline.unexpected_ne_ok

end Record
end Ensures

end Parley.Json
