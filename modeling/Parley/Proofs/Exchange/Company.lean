import Parley.Proofs.Exchange.Audience
import Parley.Proofs.Exchange.Presence

namespace Parley

open Std

namespace Roster

-- The names of the members of a room, but for one connection.
def company (r : Roster) (room : String) (v : ConnectionId) : ExtTreeSet String :=
  .ofList <| (r.memberIds room).filterMap fun id =>
    if id = v then none else (r.entry? id).map (·.identity.name)

variable {r : Roster} {id id' v : ConnectionId} {e : Entry} {who : Identity} {box : Nat}
  {name room other : String}

theorem mem_memberIds : id ∈ r.memberIds room ↔ r.HasMember room id := by
  simp only [memberIds, HasMember]
  cases r.room? room <;> simp [Room.ids]

namespace Consistent

theorem mem_company (h : r.Consistent) :
    name ∈ r.company room v ↔ ∃ id, r.lookup name = some id ∧ id ≠ v ∧ r.IsIn id room := by
  simp only [company, ExtTreeSet.mem_ofList, List.contains_eq_mem, decide_eq_true_eq, List.mem_filterMap,
    mem_memberIds, h.member_iff, h.lookup_eq_some_iff]
  constructor
  case mp =>
    rintro ⟨id, hi, hn⟩
    split at hn
    case isTrue => cases hn
    case isFalse hne => exact ⟨id, Option.map_eq_some_iff.mp hn, hne, hi⟩
  case mpr =>
    rintro ⟨id, hn, hne, hi⟩
    exact ⟨id, hi, by rw [if_neg hne]; exact Option.map_eq_some_iff.mpr hn⟩

-- The one who goes away is missed, and nobody else.
theorem company_remove (h : r.Consistent) (he : r.entry? id = some e) :
    (r.remove id).company room v = (r.company room v).erase e.identity.name := by
  apply ExtTreeSet.ext_mem
  intro name
  have hl id' : (r.remove id).lookup name = some id' ↔ id ≠ id' ∧ r.lookup name = some id' := by
    simp only [h.remove.lookup_eq_some_iff, h.lookup_eq_some_iff, entry?_remove]
    split <;> simp_all
  have hn : r.lookup name = some id ↔ e.identity.name = name := by
    simp [h.lookup_eq_some_iff, he]
  simp only [h.remove.mem_company, hl, isIn_remove, ExtTreeSet.mem_erase, h.mem_company]
  grind

-- A newcomer is in no room.
theorem company_insert (h : r.Consistent) (hi : ¬ r.IsLive id) (hn : r.lookup who.name = none) :
    (r.insert id who box).company room v = r.company room v := by
  apply ExtTreeSet.ext_mem
  intro name
  rw [(h.insert hi hn).mem_company, h.mem_company]
  simp only [isIn_insert hi]
  have hl : (r.insert id who box).lookup name = if who.name = name then some id else r.lookup name := by
    simp only [lookup, Directory.lookup, Roster.insert, Directory.owner?_claim]
    split <;> rfl
  rw [hl]
  split
  case isFalse => rfl
  case isTrue hd =>
    have hni : ¬ r.IsIn id room := fun hm => hi hm.isLive
    simp [← hd, hn, hni]

theorem company_join (h : r.Consistent) (hf : RoomName.fault? room = none) (he : r.entry? id = some e)
    (hm : room ∉ e.rooms) (other : String) (v : ConnectionId) :
    (r.join id room).2.company other v =
      if room = other ∧ id ≠ v then (r.company other v).insert e.identity.name else r.company other v := by
  apply ExtTreeSet.ext_mem
  intro name
  have hn : r.lookup name = some id ↔ e.identity.name = name := by
    simp [h.lookup_eq_some_iff, he]
  have hl : (r.join id room).2.lookup name = r.lookup name := congrArg (·.lookup name) directory_join
  rw [(h.join hf).mem_company, hl]
  simp only [isIn_join he hm]
  split
  case isTrue hd =>
    simp only [ExtTreeSet.mem_insert, LawfulEqCmp.compare_eq_iff_eq, h.mem_company]
    grind
  case isFalse => grind [h.mem_company]

theorem company_leave (h : r.Consistent) (he : r.entry? id = some e) (hm : room ∈ e.rooms) (other : String)
    (v : ConnectionId) :
    (r.leave id room).2.company other v =
      if room = other then (r.company other v).erase e.identity.name else r.company other v := by
  apply ExtTreeSet.ext_mem
  intro name
  have hn : r.lookup name = some id ↔ e.identity.name = name := by
    simp [h.lookup_eq_some_iff, he]
  have hl : (r.leave id room).2.lookup name = r.lookup name := congrArg (·.lookup name) directory_leave
  rw [h.leave.mem_company, hl]
  simp only [isIn_leave he hm]
  split
  case isTrue hd =>
    simp only [ExtTreeSet.mem_erase, h.mem_company]
    grind
  case isFalse => grind [h.mem_company]

end Consistent
end Roster

namespace Exchange

variable {A : Exchange → Command → Prop} {x y z : Exchange} {id v : ConnectionId} {e : Entry} {l : Listing}
  {c : Command} {r : Registration} {p : Post} {name room other : String} {as bs : List Act} {n : Notice}
  {ns : List Notice} {names : ExtTreeSet String} {who : Identity} {own except : Bool}
  {make : Notice.Stamp → Notice} {ids : List ConnectionId}

-- What a notice tells a member of a room about who else is there.
def hear (room : String) (names : ExtTreeSet String) (n : Notice) : ExtTreeSet String :=
  match n.kind with
  | .userJoined       => if n.room = some room then names.insert n.username else names
  | .userLeft         => if n.room = some room then names.erase n.username else names
  | .userDisconnected => names.erase n.username
  | _                 => names

-- Notices that are not about who is in a room.
def Aside (room : String) (n : Notice) : Prop :=
  n.kind ≠ .userDisconnected ∧ ((n.kind = .userJoined ∨ n.kind = .userLeft) → n.room ≠ some room)

theorem hear_of_aside (h : Aside room n) : hear room names n = names := by
  simp only [hear]
  split
  case h_1 hk => exact if_neg (h.2 (.inl hk))
  case h_2 hk => exact if_neg (h.2 (.inr hk))
  case h_3 hk => exact absurd hk h.1
  case h_4 => rfl

theorem foldl_hear_of_aside (h : ∀ n ∈ ns, Aside room n) : ns.foldl (hear room) names = names := by
  induction ns
  case nil => rfl
  case cons n ns hi =>
    have ⟨hn, hns⟩ := List.forall_mem_cons.mp h
    rw [List.foldl_cons, hear_of_aside hn, hi hns]

-- A member that knows who else is in its room before some acts can tell from what it is offered who is there
-- after them.
def Acquaints (x : Exchange) (room : String) (v : ConnectionId) (as : List Act) : Prop :=
  (x.offered v as).foldl (hear room) (x.roster.company room v) = (x.replay as).roster.company room v

theorem Acquaints.append (h : Acquaints x room v as) (h' : Acquaints (x.replay as) room v bs) :
    Acquaints x room v (as ++ bs) := by
  rw [Acquaints, offered_append, replay_append, List.foldl_append, h, h']

theorem acquaints_of_aside (h : ∀ n ∈ x.offered v as, Aside room n)
    (hc : (x.replay as).roster.company room v = x.roster.company room v) : Acquaints x room v as := by
  rw [Acquaints, hc, foldl_hear_of_aside h]

theorem acquaints_of_says (h : Says (fun _ => Aside room) as)
    (hr : (x.replay as).roster.company room v = x.roster.company room v) : Acquaints x room v as := by
  refine acquaints_of_aside (fun n hm => ?_) hr
  have ⟨_, ho⟩ := offer_mem_of_mem_offered hm
  exact h _ ho

theorem aside_of_isOfServer (h : n.IsOfServer) : Aside room n :=
  ⟨h.kind_ne id, fun hk => (hk.elim (h.kind_ne id) (h.kind_ne id)).elim⟩

-- What only the one who moves is told.
theorem aside_of_moved (h : n.kind = .roomJoined ∨ n.kind = .roomLeft) : Aside room n := by
  rcases h with h | h <;> simp [Aside, h]

theorem aside_of_room (h : n.kind = .userJoined ∨ n.kind = .userLeft) (hr : n.room = some other)
    (hne : other ≠ room) : Aside room n := by
  rcases h with h | h <;> simp [Aside, h, hr, hne]

-- Whomever a post is for is offered it, and nobody else is.
theorem Sound.offered_post (h : x.Sound) (hf : x.IsFor p v) :
    x.offered v (Acts.post x own l p) = [p.notice] := by
  cases ha : x.audience? p.effectiveAudience
  case none => exact absurd hf (not_isFor ha)
  case some ids =>
    have ⟨hd, hl⟩ := h.audience ha
    simp only [Acts.post, ha]
    rw [offered_offers (nodup_recipients hd) fun id hm => hl id (mem_recipients.mp hm).1,
      if_pos ((mem_recipients_iff ha).mpr hf)]

theorem Sound.offered_post_of_not_isFor (h : x.Sound) (ha : x.audience? p.effectiveAudience = some ids)
    (hf : ¬ x.IsFor p v) : x.offered v (Acts.post x own l p) = [] := by
  have ⟨hd, hl⟩ := h.audience ha
  simp only [Acts.post, ha]
  rw [offered_offers (nodup_recipients hd) fun id hm => hl id (mem_recipients.mp hm).1,
    if_neg ((mem_recipients_iff ha).not.mpr hf)]

-- An announcement in a room reaches every member but the one who is left out.
theorem Sound.offered_announce_room (h : x.Sound) (hr : room ≠ "") (hm : x.roster.HasMember room v)
    (hx : except = true → x.roster.lookup who.name ≠ some v) :
    x.offered v (Acts.announce x l who (.room room) except make) = [make x.supply.stamp] := by
  refine (h.issue make).offered_post ⟨?_, fun name hn => ?_⟩
  case refine_1 =>
    simp only [hr, if_false]
    exact hm
  case refine_2 =>
    split at hn
    case isTrue he => exact Option.some.inj hn ▸ hx he
    case isFalse => cases hn

theorem Sound.offered_announce_excepted (h : x.Sound) (hr : room ≠ "") (hm : x.roster.HasMember room v)
    (hx : x.roster.lookup who.name = some v) :
    x.offered v (Acts.announce x l who (.room room) true make) = [] := by
  let p : Post := ⟨make x.supply.stamp, .room room, some who.name⟩
  have ⟨m, hm, _⟩ := hm
  have he : p.effectiveAudience = .room room := by
    simp only [Post.effectiveAudience, p]
    split <;> simp_all
  have ha : (x.issue make).2.audience? p.effectiveAudience = some m.ids := by
    rw [he]
    exact congrArg (Option.map Room.ids) hm
  exact (h.issue make).offered_post_of_not_isFor ha fun hf => hf.2 _ rfl hx

-- Whoever stays hears of the one who goes.
theorem Sound.acquaints_unregister (h : x.Sound) (hv : x.roster.IsLive v) (hn : id ≠ v) :
    Acquaints x room v (Acts.unregister x l id) := by
  cases he : x.roster.entry? id
  case none => simp [Acts.unregister, he, Acquaints, offered, attempts, replay]
  case some e =>
    rw [Acquaints, replay_unregister, unregister_roster, h.offered_unregister he hv hn,
      h.roster.company_remove he]
    rfl

theorem Sound.acquaints_register (h : x.Sound) (hr : x.Newcomer r)
    (hd : (x.displace l r.identity.name).roster.IsLive v) : Acquaints x room v (Acts.register x l r) := by
  rw [register_acts_eq]
  refine Acquaints.append ?displace (.append ?enter ?welcome)
  case displace =>
    simp only [Acts.displace, Exchange.displace] at hd ⊢
    cases hl : x.roster.lookup r.identity.name
    case none => rfl
    case some old =>
      simp only [hl, unregister_roster, Roster.isLive_remove] at hd
      exact h.acquaints_unregister hd.2 hd.1
  case enter =>
    rw [replay_displace]
    change _ = (((x.displace l r.identity.name).enter r).roster).company room v
    rw [enter_roster, h.displace.roster.company_insert (h.newcomer_displace hr).fresh h.lookup_displace]
    rfl
  case welcome =>
    have hs : Says (fun _ => Aside room) (Acts.welcome (x.admitted l r) l r) :=
      says_welcome (fun _ => aside_of_isOfServer) fun n hk _ => by simp [Aside, hk]
    have hr : ((x.admitted l r).replay (Acts.welcome (x.admitted l r) l r)).roster =
        (x.admitted l r).roster := by
      simp only [Acts.welcome, replay_append, replay_tell, replay_announce, announce_roster, tell_roster]
    rw [replay_displace]
    exact acquaints_of_says hs (congrArg (·.company room v) hr)

-- Whoever moves is answered, and that alone tells nobody who is in a room.
theorem acquaints_move {act : Act} {news : List Act} (ha : act.attempt? x = none)
    (hm : ∀ s, Aside room (make s))
    (hn : (((act.apply x).tell id make).offered v news).foldl (hear room) (x.roster.company room v) =
      (((act.apply x).tell id make).replay news).roster.company room v) :
    Acquaints x room v (act :: (Acts.tell (act.apply x) id make ++ news)) := by
  have ho : x.offered v (act :: (Acts.tell (act.apply x) id make ++ news)) =
      (act.apply x).offered v (Acts.tell (act.apply x) id make) ++
        ((act.apply x).tell id make).offered v news := by
    rw [← replay_tell, ← offered_append]
    simp [offered, attempts, ha]
  have ht : ∀ n ∈ (act.apply x).offered v (Acts.tell (act.apply x) id make), Aside room n := by
    intro n hn
    obtain ⟨_, hn⟩ := offer_mem_of_mem_offered hn
    have hs : Says (fun _ => Aside room) (Acts.tell (act.apply x) id make) := says_tell hm
    exact hs _ hn
  rw [Acquaints, ho, List.foldl_append, foldl_hear_of_aside ht, hn, ← replay_tell, ← replay_append]
  rfl

-- Announcements, as a member of the room hears them that has it right afterwards.
theorem roster_replay_announce {a : Audience} :
    (x.replay (Acts.announce x l who a except make)).roster = x.roster := by
  rw [replay_announce, announce_roster]

-- What happens in one room is of no interest in another.
theorem foldl_hear_announce_aside {a : Audience} (hm : ∀ s, Aside room (make s))
    (hc : x.roster.company room v = names) :
    (x.offered v (Acts.announce x l who a except make)).foldl (hear room) names =
      (x.replay (Acts.announce x l who a except make)).roster.company room v := by
  have hs : Says (fun _ => Aside room) (Acts.announce x l who a except make) :=
    says_announce hm fun _ => aside_of_isOfServer
  rw [roster_replay_announce, hc]
  refine foldl_hear_of_aside fun n hn => ?_
  have ⟨_, hn⟩ := offer_mem_of_mem_offered hn
  exact hs _ hn

namespace Sound

theorem foldl_hear_announce (h : x.Sound) (hr : room ≠ "") (hm : x.roster.HasMember room v)
    (hx : except = true → x.roster.lookup who.name ≠ some v)
    (hc : x.roster.company room v = hear room names (make x.supply.stamp)) :
    (x.offered v (Acts.announce x l who (.room room) except make)).foldl (hear room) names =
      (x.replay (Acts.announce x l who (.room room) except make)).roster.company room v := by
  rw [roster_replay_announce, hc, h.offered_announce_room hr hm hx]
  rfl

theorem foldl_hear_announce_excepted (h : x.Sound) (hr : room ≠ "") (hm : x.roster.HasMember room v)
    (hx : x.roster.lookup who.name = some v) (hc : x.roster.company room v = names) :
    (x.offered v (Acts.announce x l who (.room room) true make)).foldl (hear room) names =
      (x.replay (Acts.announce x l who (.room room) true make)).roster.company room v := by
  rw [roster_replay_announce, hc, h.offered_announce_excepted hr hm hx]
  rfl

theorem apply_join (h : x.Sound) (hf : RoomName.fault? room = none) :
    (Act.apply x (.join id room)).Sound :=
  h.setRoster (h.roster.join hf) fun _ => Roster.map_entry?_join _ fun _ _ => rfl

theorem apply_leave (h : x.Sound) : (Act.apply x (.leave id room)).Sound :=
  h.setRoster h.roster.leave fun _ => Roster.map_entry?_leave _ fun _ _ => rfl

theorem acquaints_join (h : x.Sound) (hv : x.roster.IsIn v room ∨ id = v) :
    Acquaints x room v (Acts.join x l id other) := by
  cases he : x.roster.entry? id
  case none => simp [Acts.join, he, Acquaints, offered, attempts, replay]
  case some e =>
    cases hf : RoomName.fault? other
    case some f =>
      have hr : (x.tell id fun s => Notice.error s f.message).roster = x.roster := tell_roster
      simp only [Acts.join, he, hf]
      refine acquaints_of_says (says_tell fun _ => ?_) (congrArg (·.company room v) hr)
      exact aside_of_isOfServer Notice.isOfServer_error
    case none =>
      simp only [Acts.join, he, hf]
      refine acquaints_move rfl (fun _ => aside_of_moved (.inl rfl)) ?_
      let y := Act.apply x (.join id other)
      let z := y.tell id fun s =>
        ((Notice.about s .roomJoined e.identity).withRoom other).withContent s!"You joined room {other}"
      have hzr : z.roster = (x.roster.join id other).2 := tell_roster
      by_cases hm : other ∈ e.rooms
      case pos =>
        have hj := Roster.join_of_mem he hm
        rw [hj] at hzr ⊢
        exact congrArg (·.company room v) hzr.symm
      case neg =>
        have hj := congrArg Prod.fst (Roster.join_joined he hm)
        have hz : z.Sound := (h.apply_join hf).tell
        have hc := h.roster.company_join hf he hm room v
        have hl : z.roster.lookup e.identity.name = some id := by
          rw [hzr, Roster.lookup, Roster.directory_join]
          exact h.roster.lookup_name he
        rw [← hzr] at hc
        simp only [hj]
        by_cases hrr : other = room
        case neg =>
          rw [if_neg fun hn => hrr hn.1] at hc
          exact foldl_hear_announce_aside (fun _ => aside_of_room (.inl rfl) rfl hrr) hc
        case pos =>
          subst hrr
          have hne : other ≠ "" := (RoomName.fault?_eq_none_iff.mp hf).1
          have hmem : z.roster.HasMember other v := by
            rw [hzr, Roster.hasMember_join he hm, h.roster.member_iff]
            exact hv.elim .inr fun hi => .inl ⟨hi, rfl⟩
          by_cases hi : id = v
          case pos =>
            rw [if_neg fun hn => hn.2 hi] at hc
            exact hz.foldl_hear_announce_excepted hne hmem (hi ▸ hl) hc
          case neg =>
            rw [if_pos ⟨rfl, hi⟩] at hc
            refine hz.foldl_hear_announce hne hmem (fun _ hv => hi (Option.some.inj (hl.symm.trans hv))) ?_
            rw [hc]
            exact (if_pos rfl).symm

theorem acquaints_leave (h : x.Sound) (hv : (x.roster.leave id other).2.IsIn v room) :
    Acquaints x room v (Acts.leave x l id other) := by
  cases he : x.roster.entry? id
  case none => simp [Acts.leave, he, Acquaints, offered, attempts, replay]
  case some e =>
    by_cases hm : other ∈ e.rooms
    case neg =>
      have hr : (x.tell id fun s => Notice.error s s!"You are not in room {other}").roster = x.roster :=
        tell_roster
      simp only [Acts.leave, he, Roster.leave_of_not_mem he hm]
      refine acquaints_of_says (says_tell fun _ => ?_) (congrArg (·.company room v) hr)
      exact aside_of_isOfServer Notice.isOfServer_error
    case pos =>
      have hj := congrArg Prod.fst (Roster.leave_left he hm)
      simp only [Acts.leave, he, hj]
      refine acquaints_move rfl (fun _ => aside_of_moved (.inr rfl)) ?_
      let z := (Act.apply x (.leave id other)).tell id fun s =>
        ((Notice.about s .roomLeft e.identity).withRoom other).withContent s!"You left room {other}"
      have hzr : z.roster = (x.roster.leave id other).2 := tell_roster
      have hz : z.Sound := h.apply_leave.tell
      have hc := h.roster.company_leave he hm room v
      rw [← hzr] at hc hv
      have hmem := (hz.roster.member_iff room v).mpr hv
      by_cases hrr : other = room
      case neg =>
        rw [if_neg hrr] at hc
        split
        case isTrue =>
          exact foldl_hear_announce_aside (fun _ => aside_of_room (.inr rfl) rfl hrr) hc
        case isFalse => exact hc.symm
      case pos =>
        subst hrr
        -- Somebody is left, so there is an announcement.
        have hpos := (Roster.remaining_pos_iff he hm).mpr ⟨v, hzr ▸ hmem⟩
        obtain ⟨m, hmr, hvm⟩ := hmem
        have hne : other ≠ "" := (RoomName.fault?_eq_none_iff.mp (hz.roster.named _ _ hmr).2).1
        rw [if_pos rfl] at hc
        rw [if_pos hpos]
        refine hz.foldl_hear_announce hne ⟨m, hmr, hvm⟩ (fun hx => absurd hx Bool.false_ne_true) ?_
        rw [hc]
        exact (if_pos rfl).symm

theorem acquaints_perform (h : x.Sound) (ha : x.Allows c) (hp : ∀ p, c = .post p → IsSpeech p)
    (hx : x.roster.IsIn v room ∨ c = .join v other) (hv : (x.perform l c).roster.IsIn v room) :
    Acquaints x room v (Acts.perform x l c) := by
  cases c
  case register r =>
    have hi := hx.resolve_right nofun
    exact h.acquaints_register ha (isLive_displace ha hi.isLive hv.isLive)
  case unregister id =>
    have hi := hx.resolve_right nofun
    rw [perform_roster, nextRoster, Roster.isIn_remove] at hv
    exact h.acquaints_unregister hi.isLive hv.1
  case post p =>
    have hn : Aside room p.notice := by
      cases hp p rfl
      case inl hk => simp [Aside, hk]
      case inr hk => simp [Aside, hk]
    refine acquaints_of_says (says_post hn fun _ => aside_of_isOfServer) ?_
    rw [replay_perform, perform_roster]
    rfl
  case join id other =>
    exact h.acquaints_join <| hx.imp_right fun hc => (Command.join.inj hc).1
  case leave id other =>
    rw [perform_roster, nextRoster] at hv
    exact h.acquaints_leave hv
  case query => rfl

end Sound

theorem Cascade.acquaints_acts (c : Cascade l x) (h : x.Sound) (hl : x.roster.IsLive v)
    (hn : v ∉ c.evicted) : Acquaints x room v c.acts := by
  induction c
  case rest => rfl
  case pass x id doomed hd hl' c hi =>
    have hi : Acquaints (Act.apply x (.strike false)) room v c.acts := by
      rw [apply_pass hd]
      exact hi (h.of_writable? rfl fun _ _ _ => rfl) hl hn
    exact hi
  case evict x id doomed e hd he c hi =>
    simp only [evicted, List.mem_cons, not_or] at hn
    have hne := Ne.symm hn.1
    have hu : Acquaints (x.struck doomed) room v (Acts.unregister (x.struck doomed) l id) :=
      h.strike.acquaints_unregister hl hne
    have hi : Acquaints ((x.struck doomed).replay (Acts.unregister (x.struck doomed) l id)) room v c.acts := by
      rw [replay_unregister]
      exact hi h.evict (isLive_evict.mpr ⟨hne, hl⟩) hn.2
    have hi : Acquaints (Act.apply x (.strike true)) room v
        (Acts.unregister (x.struck doomed) l id ++ c.acts) := by
      rw [apply_evict hd]
      exact hu.append hi
    exact hi

-- Evictions keep those who stay in their rooms.
theorem isIn_handle (h : (x.handle l c).roster.IsIn v room) :
    v ∉ x.evicted l c ∧ (x.perform l c).roster.IsIn v room := by
  have ⟨e, he, hr⟩ := h
  rw [handle, ← (cascade l (x.perform l c)).last_eq_settle, Cascade.entry?_last] at he
  split at he
  case isTrue => cases he
  case isFalse hn => exact ⟨hn, e, he, hr⟩

namespace Sound

-- Whoever stays in a room, or joins it, hears of everyone else who comes to it or goes.
theorem acquaints_journal (h : x.Sound) (ha : x.Allows c) (hp : ∀ p, c = .post p → IsSpeech p)
    (hx : x.roster.IsIn v room ∨ c = .join v room) (hv : (x.handle l c).roster.IsIn v room) :
    Acquaints x room v (x.journal l c) := by
  have ⟨hn, hv⟩ := isIn_handle hv
  refine (h.acquaints_perform ha hp hx hv).append ?_
  rw [replay_perform]
  exact Cascade.acquaints_acts _ (h.perform ha) hv.isLive hn

theorem foldl_hear_enqueued (h : x.Sound) (hd : x.doomed = []) (ha : x.Allows c)
    (hp : ∀ p, c = .post p → IsSpeech p) (hl : x.roster.IsLive v)
    (hx : x.roster.IsIn v room ∨ c = .join v room) (hv : (x.handle l c).roster.IsIn v room) :
    (enqueued x (x.handle l c) v).foldl (hear room) (x.roster.company room v) =
      (x.handle l c).roster.company room v := by
  have ⟨e, he⟩ := Roster.isLive_iff.mp hl
  have ⟨hk, hq⟩ := h.queue_handle hd ha he hv.isLive
  have hj := h.acquaints_journal ha hp hx hv
  rw [Acquaints, replay_journal] at hj
  rw [enqueued_eq hk hq, hj]

end Sound

namespace Run

-- Something is the case at every state of a run.
def Always (P : Exchange → Prop) {x y : Exchange} : Run A x y → Prop
  | @refl _ x         => P x
  | @step _ _ _ z run _ => run.Always P ∧ P z

theorem Always.last {P : Exchange → Prop} {run : Run A x y} (h : run.Always P) : P y := by
  cases run
  case refl => exact h
  case step => exact h.2

theorem Always.first {P : Exchange → Prop} {run : Run A x y} (h : run.Always P) : P x := by
  induction run
  case refl => exact h
  case step hi => exact hi h.1

theorem Always.imp {P Q : Exchange → Prop} {run : Run A x y} (h : run.Always P)
    (hr : ∀ {z}, Run A x z → P z → Q z) : run.Always Q := by
  induction run
  case refl => exact hr .refl h
  case step run s hi => exact ⟨hi h.1, hr (.step run s) h.2⟩

theorem foldl_hear_heard (run : Run Allows x y) (hx : x.Sound) (hd : x.doomed = [])
    (hp : ∀ p ∈ run.posts, IsSpeech p) (hs : run.Always (·.roster.IsIn v room)) :
    (run.heard v).foldl (hear room) (x.roster.company room v) = y.roster.company room v := by
  induction run
  case refl => rfl
  case step y z run s hi =>
    have hy := run.sound hx
    have hv := hs.1.last
    obtain ⟨hpr, hps⟩ := List.forall_mem_append.mp hp
    have hi := hi hpr hs.1
    cases s
    case between i hperm =>
      have hns : ∀ n ∈ enqueued y (i.apply y) v, Aside room n := by
        intro n hm
        obtain hk | hk | hk := kind_of_isReply (enqueued_apply hy hperm hv.isLive n hm) <;> simp [Aside, hk]
      change (run.heard v ++ enqueued y (i.apply y) v).foldl (hear room) _ = _
      rw [List.foldl_append, hi, foldl_hear_of_aside hns, apply_roster]
    case command l c ha =>
      -- Whoever is in a room has been registered before.
      have hr : (Step.command l c ha).admitted? ≠ some v := by
        cases c <;> simp only [Step.admitted?, ne_eq, reduceCtorEq, not_false_eq_true, Option.some.injEq]
        case register r =>
          rintro rfl
          exact ha.fresh hv.isLive
      have hpc : ∀ p, c = .post p → IsSpeech p := by
        rintro p rfl
        exact hps p (List.mem_singleton_self p)
      simp only [heard, if_neg hr, List.foldl_append, hi]
      exact hy.foldl_hear_enqueued (run.undoomed hd) ha hpc hv.isLive (.inl hv) hs.2

-- As long as connections post nothing but what they say, whoever has joined a room and stays there can tell
-- who else is there: it starts from those who were there when it joined, and follows what it is told since.
theorem company_heard (prior : Run Allows .empty x) (l : Listing)
    (later : Run Allows (x.handle l (.join v room)) y) (hp : ∀ p ∈ later.posts, IsSpeech p)
    (hs : later.Always fun z => z.roster.HasMember room v) :
    (enqueued x (x.handle l (.join v room)) v ++ later.heard v).foldl (hear room)
      (x.roster.company room v) = y.roster.company room v := by
  have hx := prior.sound sound_empty
  have hd := prior.undoomed rfl
  have ha : x.Allows (.join v room) := trivial
  have hz : (x.handle l (.join v room)).Sound := hx.handle ha
  have hs : later.Always fun z => z.roster.IsIn v room :=
    hs.imp fun run hm => ((run.sound hz).roster.member_iff room v).mp hm
  have hv := hs.first
  -- Nobody is admitted by a join.
  have hl : x.roster.IsLive v := by
    have hl := ((isLive_perform hx.roster ha.admits).mp (isIn_handle hv).2.isLive).2
    simpa [identity?, Option.isSome_iff_exists, Roster.isLive_iff] using hl
  have hn : ∀ p, Command.join v room = .post p → IsSpeech p := by simp
  have hj := hx.foldl_hear_enqueued hd ha hn hl (.inr rfl) hv
  rw [List.foldl_append, hj]
  exact later.foldl_hear_heard hz doomed_handle hp hs

-- Bob joins Ann in the hall, and she leaves it.
theorem company_heard_until_left :
    let ann : Registration := ⟨⟨1⟩, ⟨7, "ann"⟩, 0⟩
    let bob : Registration := ⟨⟨2⟩, ⟨8, "bob"⟩, 1⟩
    let x := (Interlude.prepare 1 8).apply ((Interlude.prepare 0 8).apply .empty)
    let y := ((x.handle .ascending (.register ann)).handle .ascending (.register bob)).handle .ascending
      (.join ann.id "hall")
    let z := (y.handle .ascending (.join bob.id "hall")).handle .ascending (.leave ann.id "hall")
    ∃ later : Run Allows (y.handle .ascending (.join bob.id "hall")) z,
      later.posts = [] ∧ (later.Always fun z => z.roster.HasMember "hall" bob.id) ∧
      (enqueued y (y.handle .ascending (.join bob.id "hall")) bob.id ++ later.heard bob.id).foldl
        (hear "hall") (y.roster.company "hall" bob.id) = z.roster.company "hall" bob.id := by
  intro ann bob x y z
  let x₁ := x.perform .ascending (.register ann)
  let x₂ := x₁.perform .ascending (.register bob)
  let x₃ := x₂.perform .ascending (.join ann.id "hall")
  let x₄ := x₃.perform .ascending (.join bob.id "hall")
  have h₁ : x.handle .ascending (.register ann) = x₁ := handle_eq_perform (by decide)
  have h₂ : x₁.handle .ascending (.register bob) = x₂ := handle_eq_perform (by decide)
  have h₃ : x₂.handle .ascending (.join ann.id "hall") = x₃ := handle_eq_perform (by decide)
  have h₄ : x₃.handle .ascending (.join bob.id "hall") = x₄ := handle_eq_perform (by decide)
  have h₅ : x₄.handle .ascending (.leave ann.id "hall") = x₄.perform .ascending (.leave ann.id "hall") :=
    handle_eq_perform (by decide)
  have hx : x.Allows (.register ann) := newcomer_first (fun _ => ExtTreeMap.not_mem_empty) (by decide)
  have hb : x₁.Allows (.register bob) :=
    newcomer_second (fun _ => ExtTreeMap.not_mem_empty) (by decide) (by decide) (by decide)
  have hy : y = x₃ := by simp only [y, h₁, h₂, h₃]
  have hw : y.handle .ascending (.join bob.id "hall") = x₄ := hy ▸ h₄
  have hz : z = x₄.perform .ascending (.leave ann.id "hall") := by simp only [z, hw, h₅]
  have hp : 1 ∉ ((Interlude.prepare 0 8).apply empty).mailboxes := by decide
  let prior : Run Allows .empty y :=
    .step (.step (.step (.step (.step .refl (.between (.prepare 0 8) ExtTreeMap.not_mem_empty))
      (.between (.prepare 1 8) hp)) (.command .ascending (.register ann) hx))
      (.command .ascending (.register bob) (h₁ ▸ hb))) (.command .ascending (.join ann.id "hall") trivial)
  let later : Run Allows (y.handle .ascending (.join bob.id "hall")) z :=
    .step .refl (.command .ascending (.leave ann.id "hall") trivial)
  have hs : later.Always fun z => z.roster.HasMember "hall" bob.id := by
    refine ⟨?_, ?_⟩
    · rw [hw]
      exact Roster.mem_memberIds.mp (by decide)
    · rw [hz]
      exact Roster.mem_memberIds.mp (by decide)
  exact ⟨later, rfl, hs, prior.company_heard .ascending later (List.forall_mem_nil _) hs⟩

end Run

end Exchange
end Parley
