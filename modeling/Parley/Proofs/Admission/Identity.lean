import Mathlib.Data.List.DropRight
import Parley.Admission.Identity

namespace Parley

namespace Text

variable {cs : List Char}

theorem trimStart_eq_nil_iff : trimStart cs = [] ↔ ∀ c ∈ cs, IsBlank c := by
  simp [trimStart, List.dropWhile_eq_nil_iff]

theorem trim_eq_nil_iff : trim cs = [] ↔ ∀ c ∈ cs, IsBlank c := by
  have hi : trimStart (trimStart cs) = trimStart cs := List.dropWhile_idempotent ..
  rw [trim, List.reverse_eq_nil_iff, trimStart_eq_nil_iff]
  simp only [List.mem_reverse]
  rw [← trimStart_eq_nil_iff, hi, trimStart_eq_nil_iff]

end Text

namespace Http

-- The field can be shown as a text, and there is more to the text than blanks.
structure Header.Speaks (h : Header) : Prop where
  visible : ∀ b ∈ h.value, Header.IsVisible b
  sounds  : ∃ b ∈ h.value, b ≠ 9 ∧ b ≠ 32

-- There is nothing in the field but spaces and tabs.
def Header.IsBlank (h : Header) : Prop := ∀ b ∈ h.value, b = 9 ∨ b = 32

-- The first field of a name says something.
def Headers.Vouches (hs : Headers) (name : String) : Prop := ∃ h, hs.find name = some h ∧ h.Speaks

-- The first field of a name is there, and blank.
def Headers.IsMute (hs : Headers) (name : String) : Prop := ∃ h, hs.find name = some h ∧ h.IsBlank

def Headers.without (hs : Headers) (name : String) : Headers :=
  hs.filter fun h => ¬ Text.SameLetters h.name name

variable {hs : Headers} {h : Header} {name name' : String} {b : UInt8}

-- Of the octets that are shown, two are blanks.
theorem isBlank_ofNat_iff (hb : Header.IsVisible b) : Text.IsBlank (Char.ofNat b.toNat) ↔ b = 9 ∨ b = 32 := by
  have hall : ∀ n : Fin 256, Header.IsVisible (UInt8.ofNat n) →
      (Text.IsBlank (Char.ofNat n) ↔ UInt8.ofNat n = 9 ∨ UInt8.ofNat n = 32) := by decide +kernel
  have hn := hall ⟨b.toNat, b.toNat_lt⟩
  rw [UInt8.ofNat_toNat] at hn
  exact hn hb

theorem Header.IsBlank.not_speaks (hb : h.IsBlank) : ¬ h.Speaks := by
  intro ⟨_, b, hm, hn, hn'⟩
  exact (hb b hm).elim hn hn'

theorem Headers.IsMute.not_vouches (hm : hs.IsMute name) : ¬ hs.Vouches name := by
  obtain ⟨h, hf, hb⟩ := hm
  intro ⟨h', hf', hs'⟩
  cases Option.some.inj (hf.symm.trans hf')
  exact hb.not_speaks hs'

theorem Headers.find_congr (h : Text.SameLetters name name') : hs.find name = hs.find name' := by
  have hs : Text.lowerAscii name = Text.lowerAscii name' := h
  simp only [find, Text.SameLetters, hs]

theorem Headers.find_without_self (h : Text.SameLetters name name') : (hs.without name).find name' = none := by
  rw [← find_congr h, find, without, List.find?_filter, List.find?_eq_none]
  simp

theorem Headers.find_without (h : ¬ Text.SameLetters name name') : (hs.without name).find name' = hs.find name' := by
  rw [find, without, List.find?_filter]
  refine congrArg (List.find? · hs) (funext fun f => ?_)
  -- A field of the one name is not of the other.
  have hne (hf : Text.SameLetters f.name name') : ¬ Text.SameLetters f.name name := fun hf' => h (hf'.symm.trans hf)
  by_cases hf : Text.SameLetters f.name name' <;> simp [hf, hne]

end Http

namespace Admission

open Http Settings

variable {source : IdentitySource} {headers : Headers} {name : String} {s s' : Option String} {c c' : Claim}

theorem said?_eq_none_iff {s : String} : said? s = none ↔ ∀ c ∈ s.toList, Text.IsBlank c := by
  rw [← Text.trim_eq_nil_iff, said?]
  split <;> simp_all

theorem isSome_said?_text?_iff {h : Header} : (h.text?.bind said?).isSome ↔ h.Speaks := by
  by_cases hv : ∀ b ∈ h.value, Header.IsVisible b
  case pos =>
    have ht : h.text? = some (String.ofList (h.value.map fun b => Char.ofNat b.toNat)) := by
      simpa [Header.text?] using hv
    rw [ht, Option.bind_some, ← Option.ne_none_iff_isSome, ne_eq, said?_eq_none_iff]
    simp only [String.toList_ofList, List.forall_mem_map, not_forall]
    constructor
    case mp =>
      rintro ⟨b, hm, hb⟩
      exact ⟨hv, b, hm, not_or.mp ((isBlank_ofNat_iff (hv b hm)).not.mp hb)⟩
    case mpr =>
      rintro ⟨_, b, hm, hb⟩
      exact ⟨b, hm, (isBlank_ofNat_iff (hv b hm)).not.mpr (not_or.mpr hb)⟩
  case neg =>
    have ht : h.text? = none := by simpa [Header.text?] using hv
    simpa [ht] using fun hs : h.Speaks => hv hs.visible

theorem isSome_vouched?_iff : (vouched? headers name).isSome ↔ headers.Vouches name := by
  cases hf : headers.find name
  case none => simp [vouched?, Headers.Vouches, hf]
  case some h => simpa [vouched?, Headers.Vouches, hf] using isSome_said?_text?_iff

-- The query makes no difference where a header says something, or the query is not asked.
theorem orElse_claimed?_eq (h : headers.Vouches name ∨ source.allowQuery = false ∨ s = s') :
    (vouched? headers name <|> claimed? source s) = (vouched? headers name <|> claimed? source s') := by
  obtain hv | hq | rfl := h
  case inl =>
    obtain ⟨_, hv⟩ := Option.isSome_iff_exists.mp (isSome_vouched?_iff.mpr hv)
    rw [hv]
    rfl
  case inr.inl => simp [claimed?, hq]
  case inr.inr => rfl

-- A name whose first field is blank might as well have none.
theorem vouched?_without {name' : String} (h : headers.IsMute name) :
    vouched? (headers.without name) name' = vouched? headers name' := by
  by_cases hs : Text.SameLetters name name'
  case neg => rw [vouched?, vouched?, Headers.find_without hs]
  case pos =>
    have hn : ¬ headers.Vouches name' := by
      simpa only [Headers.Vouches, Headers.find_congr hs] using h.not_vouches
    rw [← isSome_vouched?_iff, Option.not_isSome_iff_eq_none] at hn
    rw [hn, vouched?, Headers.find_without_self hs]
    rfl

-- Whoever a client says that it is, it is admitted as the same, or refused, as far as its headers speak for it: what
-- the query says of the user or of the name matters only where the first field that should say so is not there or says
-- nothing, and the settings allow it.  A blank field is as good as none.
theorem identity?_settled
    (hu : headers.Vouches source.userIdHeader ∨ source.allowQuery = false ∨ c.user = c'.user)
    (hn : headers.Vouches source.usernameHeader ∨ source.allowQuery = false ∨ c.name = c'.name) :
    identity? source headers c = identity? source headers c' ∧
    ∀ name, headers.IsMute name → identity? source (headers.without name) c = identity? source headers c := by
  constructor
  case left => rw [identity?, identity?, orElse_claimed?_eq hu, orElse_claimed?_eq hn]
  case right =>
    intro name hm
    rw [identity?, identity?, vouched?_without hm, vouched?_without hm]

-- The headers of a proxy speak for Alice, whatever her address says.
theorem identity?_settled_alice :
    let source : IdentitySource := {}
    let headers : Headers := [⟨"x-user-id", [55]⟩, ⟨"x-username", [32, 97, 108, 105, 99, 101]⟩]
    headers.Vouches source.userIdHeader ∧ headers.Vouches source.usernameHeader ∧
      identity? source headers { user := some "8", name := some "mallory" } = identity? source headers {} ∧
      identity? source headers {} = some ⟨7, "alice"⟩ := by
  intro source headers
  have hu : headers.Vouches source.userIdHeader := isSome_vouched?_iff.mp (by decide +kernel)
  have hn : headers.Vouches source.usernameHeader := isSome_vouched?_iff.mp (by decide +kernel)
  exact ⟨hu, hn, (identity?_settled (.inl hu) (.inl hn)).1, by decide +kernel⟩

-- It is not enough that there are headers: where that of the name is blank, or has an octet that is not visible (here
-- the last two, an accented letter), the query may say any name.
theorem not_settled_by_presence :
    (¬ ∀ (source : IdentitySource) (headers : Headers) (c c' : Claim),
      (headers.find source.userIdHeader).isSome → (headers.find source.usernameHeader).isSome →
        identity? source headers c = identity? source headers c') ∧
    ∀ value ∈ [[32], [74, 111, 115, 195, 169]],
      let source : IdentitySource := {}
      let headers : Headers := [⟨"x-user-id", [55]⟩, ⟨"x-username", value⟩]
      (headers.find source.userIdHeader).isSome ∧ (headers.find source.usernameHeader).isSome ∧
        identity? source headers { name := some "mallory" } = some ⟨7, "mallory"⟩ ∧
        identity? source headers {} = none := by
  refine (and_iff_right_of_imp fun hall h => ?_).mpr (by decide +kernel)
  obtain ⟨hu, hn, hsaid, hmute⟩ := hall [32] List.mem_cons_self
  exact nomatch hsaid.symm.trans ((h _ _ _ {} hu hn).trans hmute)

end Admission
end Parley
