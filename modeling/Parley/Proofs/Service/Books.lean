import Parley.Proofs.Exchange.Eviction
import Parley.Proofs.Service.Run

namespace Parley

open Std

namespace Exchange

variable {x : Exchange} {l : Listing} {c : Command} {id : ConnectionId}

-- Whoever is there after a command was there before, or came with it.
theorem isLive_of_isLive_handle (h : x.roster.Consistent) (ha : x.Admits c)
    (hl : (x.handle l c).roster.IsLive id) : x.roster.IsLive id ∨ ∃ r, c = .register r ∧ r.id = id := by
  have ⟨_, hi⟩ := Option.isSome_iff_exists.mp ((isLive_perform h ha).mp (isLive_handle.mp hl).2).2
  obtain ⟨r, hr, hid, _⟩ | ⟨e, he, _⟩ := identity?_cases hi
  case inl => exact .inr ⟨r, hr, hid⟩
  case inr => exact .inl (.of_some he)

theorem not_isLive_unregister (h : x.roster.Consistent) : ¬ (x.handle l (.unregister id)).roster.IsLive id := by
  intro hl
  have ha : x.Admits (.unregister id) := trivial
  have ⟨ht, hi⟩ := (isLive_perform h ha).mp (isLive_handle.mp hl).2
  by_cases hl : x.roster.IsLive id
  case pos => exact ht (if_pos hl)
  case neg => simp [identity?, Roster.not_isLive_iff.mp hl] at hi

end Exchange

namespace Desk

-- All that was left at a desk so far, with the connections of all sessions: whoever waits to be admitted is not
-- there and waits once, sessions wait for nothing but their own admission, and whatever nobody waits for comes
-- from a session.
structure Books (d : Desk) (left : List Errand) (ids : List ConnectionId) : Prop where
  roster    : d.exchange.roster.Consistent
  handled   : d.handled ≤ left.length
  backlog   : d.stopped = false → left.drop d.handled = d.backlog
  closed    : d.stopped = true → d.backlog = []
  apart     : ids.Nodup
  newcomers : (d.backlog.filterMap Errand.newcomer?).Nodup
  fresh     : ∀ e ∈ d.backlog, ∀ id, e.newcomer? = some id → ¬ d.exchange.roster.IsLive id
  callers   : ∀ e ∈ d.backlog, ∀ i, e.caller = some (.session i) →
    ∃ id, ids[i]? = some id ∧ e.newcomer? = some id
  senders   : ∀ e ∈ left, e.caller = none → e.command.IsRequest ∨ ∃ id ∈ ids, e.command = .unregister id
  gone      : ∀ n < d.handled, ∀ id, left[n]? = some ⟨.unregister id, none⟩ → ¬ d.exchange.roster.IsLive id

-- Errands that fit in.
structure Expects (d : Desk) (ids : List ConnectionId) (new : List Errand) : Prop where
  newcomers : (new.filterMap Errand.newcomer?).Nodup
  fresh     : ∀ e ∈ new, ∀ id, e.newcomer? = some id →
    ¬ d.exchange.roster.IsLive id ∧ ∀ e' ∈ d.backlog, e'.newcomer? ≠ some id
  callers   : ∀ e ∈ new, ∀ i, e.caller = some (.session i) → ∃ id, ids[i]? = some id ∧ e.newcomer? = some id
  senders   : ∀ e ∈ new, e.caller = none → e.command.IsRequest ∨ ∃ id ∈ ids, e.command = .unregister id

variable {d d' : Desk} {left new : List Errand} {ids : List ConnectionId} {e : Errand} {l : Listing}
  {id : ConnectionId}

theorem expects_nil : d.Expects ids [] :=
  ⟨.nil, List.forall_mem_nil _, List.forall_mem_nil _, List.forall_mem_nil _⟩

theorem newcomer?_eq_some_iff : e.newcomer? = some id ↔ ∃ r, e.command = .register r ∧ r.id = id := by
  simp only [Errand.newcomer?]
  split
  case h_1 r hr => simp [hr]
  case h_2 hn => exact iff_of_false nofun fun ⟨r, hr, _⟩ => hn r hr

namespace Books

theorem number_eq (h : d.Books left ids) (hs : d.stopped = false) : left.length = d.number := by
  have hl := congrArg List.length (h.backlog hs)
  rw [List.length_drop] at hl
  have := h.handled
  rw [number]
  omega

theorem takes (h : d.Books left ids) (ht : d.Takes d' new) (hn : d.Expects ids new) :
    d'.Books (left ++ new) ids where
  roster := ht.roster ▸ h.roster
  handled := by
    rw [ht.handled, List.length_append]
    exact Nat.le_add_right_of_le h.handled
  backlog hs := by
    rw [ht.handled, ht.backlog, List.drop_append_of_le_length h.handled, h.backlog (ht.stopped ▸ hs)]
  closed hs := by
    have hs := ht.stopped ▸ hs
    rw [ht.backlog, h.closed hs, ht.closed hs, List.nil_append]
  apart := h.apart
  newcomers := by
    rw [ht.backlog, List.filterMap_append]
    refine List.nodup_append.mpr ⟨h.newcomers, hn.newcomers, fun a ha b hb hab => ?_⟩
    have ⟨e, he, ha⟩ := List.mem_filterMap.mp ha
    have ⟨e', he', hb⟩ := List.mem_filterMap.mp hb
    exact (hn.fresh e' he' b hb).2 e he (hab ▸ ha)
  fresh := by
    rw [ht.backlog, ht.roster]
    exact List.forall_mem_append.mpr ⟨h.fresh, fun e he id hi => (hn.fresh e he id hi).1⟩
  callers := ht.backlog ▸ List.forall_mem_append.mpr ⟨h.callers, hn.callers⟩
  senders := List.forall_mem_append.mpr ⟨h.senders, hn.senders⟩
  gone n hlt id hn := by
    rw [ht.handled] at hlt
    rw [List.getElem?_append_left (Nat.lt_of_lt_of_le hlt h.handled)] at hn
    exact ht.roster ▸ h.gone n hlt id hn

-- Another session begins.
theorem append (h : d.Books left ids) (hn : id ∉ ids) : d.Books left (ids ++ [id]) where
  roster := h.roster
  handled := h.handled
  backlog := h.backlog
  closed := h.closed
  apart := by
    refine List.nodup_append.mpr ⟨h.apart, List.pairwise_singleton .., fun a ha b hb hab => ?_⟩
    exact hn (List.mem_singleton.mp hb ▸ hab ▸ ha)
  newcomers := h.newcomers
  fresh := h.fresh
  callers e he i hc := by
    have ⟨id, hi, he⟩ := h.callers e he i hc
    have ⟨hlt, _⟩ := List.getElem?_eq_some_iff.mp hi
    exact ⟨id, (List.getElem?_append_left hlt).trans hi, he⟩
  senders e he hc :=
    (h.senders e he hc).imp_right fun ⟨id, hi, he⟩ => ⟨id, List.mem_append_left _ hi, he⟩
  gone := h.gone

section Head

variable (h : d.Books left ids) {backlog : List Errand} (hb : d.backlog = e :: backlog)

include h hb

theorem getElem?_handled (hs : d.stopped = false) : left[d.handled]? = some e := by
  rw [← List.head?_drop, h.backlog hs, hb, List.head?_cons]

theorem admits : d.exchange.Admits e.command := by
  cases hc : e.command
  case register r => exact h.fresh e (hb ▸ List.mem_cons_self) r.id (newcomer?_eq_some_iff.mpr ⟨r, hc, rfl⟩)
  all_goals trivial

end Head

-- Whoever comes with the errand that is handled must not be one whose removal was sent for.
theorem handle (h : d.Books left ids) (hs : d.stopped = false) {backlog : List Errand}
    (hb : d.backlog = e :: backlog) (hu : ∀ id, e.newcomer? = some id → ⟨.unregister id, none⟩ ∉ left) :
    Books { d with exchange := d.exchange.handle l e.command, backlog, handled := d.handled + 1 } left ids := by
  have hd : left.drop d.handled = e :: backlog := (h.backlog hs).trans hb
  have he := h.getElem?_handled hb hs
  have hm {e'} (hm : e' ∈ backlog) : e' ∈ d.backlog := hb ▸ List.mem_cons_of_mem _ hm
  have hnew : (e.newcomer?.toList ++ backlog.filterMap Errand.newcomer?).Nodup := by
    have hn := h.newcomers
    rw [hb, List.filterMap_cons] at hn
    cases hc : e.newcomer? <;> simp only [hc] at hn <;> exact hn
  have ha := h.admits hb
  have hlive {id} (hl : (d.exchange.handle l e.command).roster.IsLive id) :
      d.exchange.roster.IsLive id ∨ e.newcomer? = some id :=
    (Exchange.isLive_of_isLive_handle h.roster ha hl).imp_right newcomer?_eq_some_iff.mpr
  refine ⟨Exchange.consistent_handle h.roster ha, ?handled, ?backlog, fun hs' => ?closed, h.apart, ?newcomers,
    fun e' he' id hi hl => ?fresh, fun e' he' => h.callers e' (hm he'), h.senders,
    fun n hlt id hn hl => ?gone⟩
  case handled => exact (List.getElem?_eq_some_iff.mp he).1
  case backlog =>
    intro _
    rw [← List.tail_drop, hd, List.tail_cons]
  case closed => exact nomatch hs.symm.trans hs'
  case newcomers => exact (List.nodup_append.mp hnew).2.1
  case fresh =>
    cases hlive hl
    case inl hl => exact h.fresh e' (hm he') id hi hl
    case inr hc =>
      refine (List.nodup_append.mp hnew).2.2 id ?_ id ?_ rfl
      · simp [hc]
      · exact List.mem_filterMap.mpr ⟨e', he', hi⟩
  case gone =>
    cases Nat.lt_succ_iff_lt_or_eq.mp hlt
    case inl hlt =>
      cases hlive hl
      case inl hl => exact h.gone n hlt id hn hl
      case inr hc => exact hu id hc (List.mem_of_getElem? hn)
    case inr hn' =>
      subst hn'
      cases he.symm.trans hn
      exact Exchange.not_isLive_unregister h.roster hl

theorem stop (h : d.Books left ids) : (d.stop l).2.Books left ids := by
  have hr : (d.stop l).2.exchange.roster = .empty := roster_stop
  refine ⟨hr ▸ Roster.consistent_empty, h.handled, nofun, fun _ => rfl, h.apart, .nil, List.forall_mem_nil _,
    List.forall_mem_nil _, h.senders, fun _ _ _ _ hl => ?_⟩
  rw [hr] at hl
  exact ExtTreeMap.not_mem_empty hl

end Books
end Desk
end Parley
