import Mathlib.Data.List.Nodup
import Parley.Proofs.Settings.Range

namespace Parley.Settings

variable {s t defaults : Settings} {env : Environment} {leaf : Setting → Scalar} {os : List String} {x y : Setting}
  {v : Scalar} {name : String}

namespace Draft

theorem put_ofScalars : put (scalar v) x.way (ofScalars leaf os) = some (ofScalars (Function.update leaf x v) os) := by
  cases x <;> rfl

theorem find?_ofScalars : (ofScalars leaf os).find? x.path = some (some (scalar (leaf x))) := by
  cases x <;> rfl

theorem content?_ofScalars : (ofScalars leaf os).content? defaults x = (leaf x).convert? x.kind := by
  simp [content?, find?_ofScalars]

theorem mapM_text?_scalar : (os.map fun o => scalar (.text o)).mapM text? = some os := by
  induction os
  case nil => rfl
  case cons hi => simp [hi, text?, Scalar.toText]

-- No origins leave no trace in the tree, and none are found there.
theorem origins?_ofScalars : (ofScalars leaf os).origins? = some os := by
  cases os
  case nil => rfl
  case cons o os =>
    have hf : (ofScalars leaf (o :: os)).find? originsPath =
        some (some (list ((o :: os).map fun o => scalar (.text o)))) := rfl
    simp only [origins?, hf]
    exact mapM_text?_scalar

-- One setting after the other is set to what there is for it.
theorem foldlM_set (s : Settings) {content : (x : Setting) → Option x.kind.Content} {xs : List Setting}
    (h : ∀ x ∈ xs, (content x).isSome) :
    ∃ t, xs.foldlM (fun s x => (content x).map (x.set · s)) s = some t ∧ (∀ x ∈ xs, content x = some (x.get t)) ∧
      (∀ x, x ∉ xs → x.get t = x.get s) := by
  induction xs generalizing s
  case nil => exact ⟨s, rfl, List.forall_mem_nil _, fun _ _ => rfl⟩
  case cons x xs hi =>
    have ⟨hx, hxs⟩ := List.forall_mem_cons.mp h
    obtain ⟨v, hv⟩ := Option.isSome_iff_exists.mp hx
    have ⟨t, ht, hin, hout⟩ := hi (x.set v s) hxs
    refine ⟨t, ?run, List.forall_mem_cons.mpr ⟨?self, hin⟩, fun y hy => ?other⟩
    case run => simp only [List.foldlM_cons, hv, Option.map_some, Option.bind_eq_bind, Option.bind_some, ht]
    case self =>
      by_cases hm : x ∈ xs
      case pos => exact hin x hm
      case neg => rw [hv, hout x hm, Setting.get_set]
    case other =>
      have ⟨hne, hm⟩ := not_or.mp (mt List.mem_cons.mpr hy)
      rw [hout y hm, Setting.get_set_other v s hne]

theorem foldlM_set_eq_none {content : (x : Setting) → Option x.kind.Content} {xs : List Setting}
    (hx : x ∈ xs) (h : content x = none) : xs.foldlM (fun s x => (content x).map (x.set · s)) s = none := by
  induction xs generalizing s
  case nil => cases hx
  case cons y xs hi =>
    rw [List.foldlM_cons]
    cases hc : content y
    case none => rfl
    case some v =>
      refine hi ((List.mem_cons.mp hx).resolve_left fun heq => ?_)
      cases heq
      cases h.symm.trans hc

-- The tree describes settings that hold what its scalars say; the defaults have no say in it.
theorem settings?_ofScalars (os : List String) (defaults : Settings) (h : ∀ x, ((leaf x).convert? x.kind).isSome) :
    ∃ t, (ofScalars leaf os).settings? defaults = some t ∧ (∀ x, (leaf x).convert? x.kind = some (x.get t)) ∧
      t.crossOrigin.allowedOrigins = os := by
  have ⟨t, ht, hin, _⟩ := foldlM_set defaults fun x (_ : x ∈ Setting.all) => h x
  refine ⟨{ t with crossOrigin := ⟨os⟩ }, ?_, fun x => (hin x x.mem_all).trans ?_, rfl⟩
  case refine_1 => simp only [settings?, content?_ofScalars, ht, origins?_ofScalars]; rfl
  case refine_2 => cases x <;> rfl

theorem settings?_ofScalars_eq_none (h : (leaf x).convert? x.kind = none) :
    (ofScalars leaf os).settings? defaults = none := by
  have hf : Setting.all.foldlM (fun s x => ((leaf x).convert? x.kind).map (x.set · s)) defaults = none :=
    foldlM_set_eq_none x.mem_all h
  simp only [settings?, content?_ofScalars, hf]
  rfl

end Draft

-- The variable is for a setting.
def Names (name : String) (x : Setting) : Prop := wayOfVariable? name = some x.way

-- The usual name of the variable for a setting.
def Setting.variableName (x : Setting) : String := "CHATTER__" ++ "__".intercalate (x.path.map String.toUpper)

theorem names_variableName (x : Setting) : Names x.variableName x := by
  cases x <;> (unfold Names; decide +kernel)

theorem Setting.path_injective : Function.Injective path := by
  have hn : (all.map path).Nodup := by decide
  exact fun x y h => List.inj_on_of_nodup_map hn x.mem_all y.mem_all h

theorem Setting.way_injective : Function.Injective way := fun _ _ h =>
  path_injective (List.map_injective_iff.mpr (fun _ _ h => Step.name.inj h) h)

theorem Names.unique (h : Names name x) (h' : Names name y) : x = y :=
  Setting.way_injective (Option.some.inj (h.symm.trans h'))

-- Every override is for a setting of its own.
structure Aimed (env : Environment) : Prop where
  each  : ∀ v ∈ env, wayOfVariable? v.1 = none ∨ ∃ x, Names v.1 x
  apart : env.Pairwise fun v w => ∀ x, Names v.1 x → ¬ Names w.1 x

-- Variables of other kinds may stand beside the overrides.
theorem Aimed.cons_of_none (h : Aimed env) {v : String × String} (hv : wayOfVariable? v.1 = none) :
    Aimed (v :: env) where
  each := List.forall_mem_cons.mpr ⟨.inl hv, h.each⟩
  apart := List.pairwise_cons.mpr ⟨fun _ _ _ hx => (nomatch hv.symm.trans hx), h.apart⟩

-- In their usual names, variables for different settings are overrides.
theorem aimed_variableName {cs : List (Setting × String)} (h : (cs.map Prod.fst).Nodup) :
    Aimed (cs.map fun c => (c.1.variableName, c.2)) where
  each := List.forall_mem_map.mpr fun c _ => .inr ⟨c.1, names_variableName c.1⟩
  apart := by
    refine List.pairwise_map.mpr ((List.pairwise_map.mp h).imp fun hne x hx hx' => hne ?_)
    exact (hx.unique (names_variableName _)).symm.trans (hx'.unique (names_variableName _))

theorem overrides_cons_of_none {v : String × String} (h : wayOfVariable? v.1 = none) :
    overrides (v :: env) = overrides env := by
  simp [overrides, h]

theorem overrides_cons_of_names {v : String × String} (h : Names v.1 x) :
    overrides (v :: env) = (x.way, Scalar.ofText v.2) :: overrides env := by
  have h : wayOfVariable? v.1 = some x.way := h
  simp [overrides, h]

theorem Draft.override?_cons_of_names {v : String × String} (h : Names v.1 x) :
    (ofScalars leaf os).override? (overrides (v :: env)) =
      (ofScalars (Function.update leaf x (Scalar.ofText v.2)) os).override? (overrides env) := by
  simp only [overrides_cons_of_names h, override?, List.foldlM_cons, put_ofScalars, Option.bind_eq_bind,
    Option.bind_some]

-- Where an override puts its scalar no other puts one, and where none puts one all stays as it is.
theorem Aimed.override? (h : Aimed env) (leaf : Setting → Scalar) (os : List String) :
    ∃ leaf', (Draft.ofScalars leaf os).override? (overrides env) = some (.ofScalars leaf' os) ∧
      (∀ v ∈ env, ∀ x, Names v.1 x → leaf' x = Scalar.ofText v.2) ∧
      ∀ x, (∀ v ∈ env, ¬ Names v.1 x) → leaf' x = leaf x := by
  induction env generalizing leaf
  case nil => exact ⟨leaf, rfl, List.forall_mem_nil _, fun _ _ => rfl⟩
  case cons v env hi =>
    have ⟨hv, he⟩ := List.forall_mem_cons.mp h.each
    have ⟨hapart, hp⟩ := List.pairwise_cons.mp h.apart
    obtain hn | ⟨y, hy⟩ := hv
    case inl =>
      have ⟨leaf', hd, hin, hout⟩ := hi ⟨he, hp⟩ leaf
      rw [← overrides_cons_of_none hn] at hd
      refine ⟨leaf', hd, List.forall_mem_cons.mpr ⟨fun x hx => ?self, hin⟩, fun x hx => ?other⟩
      case self => exact nomatch hn.symm.trans hx
      case other => exact hout x (List.forall_mem_cons.mp hx).2
    case inr =>
      have ⟨leaf', hd, hin, hout⟩ := hi ⟨he, hp⟩ (Function.update leaf y (Scalar.ofText v.2))
      rw [← Draft.override?_cons_of_names hy] at hd
      refine ⟨leaf', hd, List.forall_mem_cons.mpr ⟨fun x hx => ?self, hin⟩, fun x hx => ?other⟩
      case self =>
        cases hx.unique hy
        rw [hout y fun w hw => hapart w hw y hx, Function.update_self]
      case other =>
        have ⟨hv, hx⟩ := List.forall_mem_cons.mp hx
        have hne : x ≠ y := fun heq => hv (heq ▸ hy)
        rw [hout x hx, Function.update_of_ne hne]

-- What becomes of settings under the overrides of an environment.
structure Amends (env : Environment) (s t : Settings) : Prop where
  named   : ∀ v ∈ env, ∀ x, Names v.1 x → (Scalar.ofText v.2).convert? x.kind = some (x.get t)
  others  : ∀ x, (∀ v ∈ env, ¬ Names v.1 x) → x.get t = x.get s
  origins : t.crossOrigin.allowedOrigins = s.crossOrigin.allowedOrigins

-- Without overrides there is nothing to amend.
theorem Amends.eq_of_none (h : Amends env s t) (hn : ∀ v ∈ env, wayOfVariable? v.1 = none) : t = s :=
  Setting.ext_get (fun x => h.others x fun v hv hx => nomatch (hn v hv).symm.trans hx) h.origins

theorem withOverrides_eq_ok_or (hs : s.fitSigned) (hr : s.InRange) (h : Aimed env) :
    (∃ t, s.withOverrides env = .ok t ∧ Amends env s t) ∨
      s.withOverrides env = .error .override ∧
        ∃ v ∈ env, ∃ x, Names v.1 x ∧ (Scalar.ofText v.2).convert? x.kind = none := by
  have ⟨leaf, hd, hin, hout⟩ := h.override? (Scalar.ofSetting s) s.crossOrigin.allowedOrigins
  by_cases hc : ∀ x, ((leaf x).convert? x.kind).isSome
  case pos =>
    have ⟨t, ht, hall, ho⟩ := Draft.settings?_ofScalars s.crossOrigin.allowedOrigins (default env) hc
    have hw : s.withOverrides env = .ok t := by simp [withOverrides, hs, Draft.ofSettings, hd, ht]
    refine .inl ⟨t, hw, fun v hv x hx => ?named, fun x hx => ?others, ho⟩
    case named => rw [← hin v hv x hx, hall]
    case others =>
      have heq := hall x
      rw [hout x hx, Scalar.convert?_ofSetting hr] at heq
      exact (Option.some.inj heq).symm
  case neg =>
    obtain ⟨x, hx⟩ := not_forall.mp hc
    have hx : (leaf x).convert? x.kind = none := Option.not_isSome_iff_eq_none.mp hx
    have hw : s.withOverrides env = .error .override := by
      simp [withOverrides, hs, Draft.ofSettings, hd, Draft.settings?_ofScalars_eq_none hx]
    refine .inr ⟨hw, ?_⟩
    -- What the settings held before could be held.
    by_contra hn
    have hnot : ∀ v ∈ env, ¬ Names v.1 x := fun v hv hx' => hn ⟨v, hv, x, hx', hin v hv x hx' ▸ hx⟩
    rw [hout x hnot, Scalar.convert?_ofSetting hr] at hx
    cases hx

-- The same holds of what is loaded, where the first file that is there has the settings to begin with.
theorem load_eq_ok_or {files : List (Option String)} {text : String} (hf : files.findSome? id = some text)
    (ht : ofToml env text = .ok s) (hs : s.fitSigned) (h : Aimed env) :
    (∃ t, load env files = .ok t ∧ Amends env s t) ∨
      load env files = .error .override ∧ ∃ v ∈ env, ∃ x, Names v.1 x ∧ (Scalar.ofText v.2).convert? x.kind = none := by
  have hl : load env files = s.withOverrides env := by
    simp only [load, hf, ht]
    rfl
  exact hl ▸ withOverrides_eq_ok_or hs (inRange_of_ofToml ht) h

-- Overrides that are each for a setting of its own change these settings and nothing else, or lead to no settings,
-- which is so only if one of them cannot be converted; without any, all stays as it is.  The variables with which the
-- defaults for host and port are chosen are no overrides.
theorem withOverrides_frame (hs : s.fitSigned) (hr : s.InRange) (h : Aimed env) :
    ((∃ t, s.withOverrides env = .ok t ∧ Amends env s t) ∨
      s.withOverrides env = .error .override ∧
        ∃ v ∈ env, ∃ x, Names v.1 x ∧ (Scalar.ofText v.2).convert? x.kind = none) ∧
    ((∀ v ∈ env, wayOfVariable? v.1 = none) → s.withOverrides env = .ok s) ∧
    (∀ x : Setting, Names x.variableName x) ∧
    ∀ name ∈ ["CHATTER_HOST", "CHATTER_PORT"], wayOfVariable? name = none := by
  refine ⟨withOverrides_eq_ok_or hs hr h, fun hn => ?_, names_variableName, by decide +kernel⟩
  obtain ⟨t, ht, ha⟩ | ⟨_, v, hv, x, hx, _⟩ := withOverrides_eq_ok_or hs hr h
  case inl => rw [ht, ha.eq_of_none hn]
  case inr => exact nomatch (hn v hv).symm.trans hx

-- Here the limit of connections is raised, and a truth value is given by a word.
theorem withOverrides_frame_words :
    let s : Settings := { host := "localhost", port := 8080, crossOrigin := ⟨["http://a"]⟩ }
    let t : Settings := { s with limits.maxConnections := 200000, identity.allowQuery := false }
    let env : Environment :=
      [ ("CHATTER_HOST", "0.0.0.0"), ("CHATTER__LIMITS__MAX_CONNECTIONS", "2e5"),
        ("CHATTER__IDENTITY__ALLOW_QUERY", "No") ]
    s.fitSigned ∧ s.InRange ∧ Aimed env ∧ s.withOverrides env = .ok t ∧ Amends env s t := by
  intro s t env
  have hs : s.fitSigned := by decide
  have hr : s.InRange := fun x => by cases x <;> decide
  have he : env = ("CHATTER_HOST", "0.0.0.0") ::
      [(Setting.maxConnections, "2e5"), (.allowQuery, "No")].map fun c => (c.1.variableName, c.2) := by decide +kernel
  have ho : Aimed env := he ▸ (aimed_variableName (by decide)).cons_of_none (by decide +kernel)
  have ht : s.withOverrides env = .ok t := by decide +kernel
  obtain ⟨u, hu, ha⟩ | ⟨he, _⟩ := (withOverrides_frame hs hr ho).1
  case inl =>
    cases hu.symm.trans ht
    exact ⟨hs, hr, ho, ht, ha⟩
  case inr => cases he.symm.trans ht

end Parley.Settings
