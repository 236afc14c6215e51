import Parley.Proofs.Exchange.Company

namespace Parley

open Std

namespace Exchange

variable {x y z : Exchange} {id v : ConnectionId} {e : Entry} {l : Listing} {room : String}
  {make make' : Notice.Stamp → Notice} {r : Roster} {answer news : Notice} {others : List ConnectionId}

-- A connection has entered a room, or has left it.
def Moves (x z : Exchange) (id : ConnectionId) (room : String) : Prop :=
  ¬ (x.roster.HasMember room id ↔ z.roster.HasMember room id)

-- A connection was given an answer, and the others in a room were told the news if it has moved.  Nothing else has
-- happened, and the roster is as it was if it has not.
structure Answers (x z : Exchange) (id : ConnectionId) (room : String) (answer news : Notice) : Prop where
  told : ∃ y others, Offers answer [id] { x with roster := z.roster } y ∧ Offers news others y z ∧ others.Nodup ∧
    ∀ v, v ∈ others ↔ x.Moves z id room ∧ v ≠ id ∧ x.roster.HasMember room v
  stays : ¬ x.Moves z id room → z.roster = x.roster

-- An announcement in a room is offered once to everyone who is there, but for the one who is left out.
theorem Sound.offers_announce_room (h : x.Sound) (hr : room ≠ "") (l : Listing) (who : Identity) (except : Bool)
    (make : Notice.Stamp → Notice) :
    ∃ ids, ids.Nodup ∧
      (∀ v, v ∈ ids ↔ x.roster.HasMember room v ∧ (except = true → x.roster.lookup who.name ≠ some v)) ∧
      Offers (make x.supply.stamp) ids x (x.announce l who (.room room) except make) := by
  let p : Post := ⟨make x.supply.stamp, .room room, if except then some who.name else none⟩
  have hn (name : String) : ¬ (x.issue make).2.IsLost p name := nofun
  obtain ⟨ids, hd, hm, _, ho⟩ := (h.issue make).offers_post (l := l) hn
  refine ⟨ids, hd, fun v => (hm v).trans ?_, ho.roster, ho.evictions, ho.deliveries, ho.doomed, ho.given, ho.others⟩
  simp only [IsFor, p, hr, if_false]
  refine and_congr .rfl ?_
  cases except
  case false => simp
  case true =>
    simp only [if_true, Option.some.injEq, forall_eq', forall_const]
    rfl

-- An answer that is all.
theorem Answers.alone (ho : Offers answer [id] x z) (news : Notice) : Answers x z id room answer news := by
  have hn : ¬ x.Moves z id room := fun hm => hm (by rw [ho.roster])
  refine ⟨⟨z, [], ?_, .refl, List.nodup_nil, fun v => ?_⟩, fun _ => ho.roster⟩
  · rw [ho.roster]
    exact ho
  · exact iff_of_false List.not_mem_nil fun hv => hn hv.1

-- An answer to one who has moved, and the news for the others.
theorem Answers.of_moved (hm : x.Moves z id room) (hy : Offers answer [id] { x with roster := r } y)
    (hz : Offers news others y z) (hd : others.Nodup)
    (ho : ∀ v, v ∈ others ↔ v ≠ id ∧ x.roster.HasMember room v) : Answers x z id room answer news := by
  have hr : z.roster = r := hz.roster.trans hy.roster
  refine ⟨⟨y, others, hr.symm ▸ hy, hz, hd, fun v => ?_⟩, fun hn => absurd hm hn⟩
  rw [ho v, and_iff_right hm]

theorem Sound.hasMember_iff (h : x.Sound) (he : x.roster.entry? id = some e) :
    x.roster.HasMember room id ↔ room ∈ e.rooms := by
  simp [h.roster.member_iff, Roster.IsIn, he]

-- A newcomer is answered, and those who were there before are told.
theorem Sound.answers_entered (h : x.Sound) (he : x.roster.entry? id = some e) (hf : RoomName.fault? room = none)
    (hm : room ∉ e.rooms) (hy : y = { x with roster := (x.roster.join id room).2 }.tell id make)
    (hz : z = y.announce l e.identity (.room room) true make') :
    x.Moves z id room ∧ Answers x z id room (make x.supply.stamp) (make' y.supply.stamp) := by
  subst hy
  have hx : ({ x with roster := (x.roster.join id room).2 } : Exchange).Sound := h.apply_join hf
  have hl : (x.roster.join id room).2.IsLive id :=
    Roster.isLive_iff.mpr ⟨_, by rw [Roster.entry?_join he hm, if_pos rfl]⟩
  have hy := hx.offers_tell hl make
  have hs : ({ x with roster := (x.roster.join id room).2 }.tell id make).Sound := hx.tell
  have ⟨ids, hd, ho, hz'⟩ :=
    hs.offers_announce_room (RoomName.fault?_eq_none_iff.mp hf).1 l e.identity true make'
  rw [← hz] at hz'
  have hi (v : ConnectionId) :
      (x.roster.join id room).2.HasMember room v ↔ id = v ∨ x.roster.HasMember room v := by
    rw [Roster.hasMember_join he hm, and_iff_left rfl]
  have hlook : (x.roster.join id room).2.lookup e.identity.name = some id := by
    rw [Roster.lookup, Roster.directory_join]
    exact h.roster.lookup_name he
  have hni := (h.hasMember_iff he).not.mpr hm
  have hmoves : x.Moves z id room := by
    rw [Moves, hz'.roster, hy.roster, hi]
    simp [hni]
  refine ⟨hmoves, .of_moved hmoves hy hz' hd fun v => ?_⟩
  rw [ho, hy.roster, hi, hlook]
  grind

-- Whoever has left is answered, and those who are still there are told, if there are any.
theorem Sound.answers_left (h : x.Sound) (he : x.roster.entry? id = some e) (hm : room ∈ e.rooms)
    (hy : y = { x with roster := (x.roster.leave id room).2 }.tell id make)
    (hz : z = if 0 < ((Roster.expel x.roster.rooms room id)[room]?.map Room.count).getD 0 then
      y.announce l e.identity (.room room) false make' else y) :
    x.Moves z id room ∧ Answers x z id room (make x.supply.stamp) (make' y.supply.stamp) := by
  subst hy
  have hx : ({ x with roster := (x.roster.leave id room).2 } : Exchange).Sound := h.apply_leave
  have hl : (x.roster.leave id room).2.IsLive id :=
    Roster.isLive_iff.mpr ⟨_, by rw [Roster.entry?_leave he hm, if_pos rfl]⟩
  have hy := hx.offers_tell hl make
  have hi := (h.hasMember_iff he).mpr hm
  have hin (v : ConnectionId) :
      (x.roster.leave id room).2.HasMember room v ↔ v ≠ id ∧ x.roster.HasMember room v := by
    rw [Roster.hasMember_leave he hm, and_iff_left rfl, eq_comm]
  have hmoves (hr : z.roster = (x.roster.leave id room).2) : x.Moves z id room := by
    rw [Moves, hr, hin]
    simp [hi]
  split at hz
  case isTrue =>
    obtain ⟨m, hmr, _⟩ := hi
    have hne : room ≠ "" := (RoomName.fault?_eq_none_iff.mp (h.roster.named _ _ hmr).2).1
    have hs : ({ x with roster := (x.roster.leave id room).2 }.tell id make).Sound := hx.tell
    have ⟨ids, hd, ho, hz'⟩ := hs.offers_announce_room hne l e.identity false make'
    rw [← hz] at hz'
    have hmoves := hmoves (hz'.roster.trans hy.roster)
    refine ⟨hmoves, .of_moved hmoves hy hz' hd fun v => ?_⟩
    rw [ho, hy.roster, hin]
    simp
  case isFalse hn =>
    have hmoves := hmoves (hz ▸ hy.roster)
    refine ⟨hmoves, .of_moved hmoves hy (hz ▸ .refl) List.nodup_nil fun v => ?_⟩
    rw [← hin]
    exact iff_of_false List.not_mem_nil fun hv => hn <| (Roster.remaining_pos_iff he hm).mpr ⟨v, hv⟩

-- News of a move: who has moved, and where.
def Reports (kind : Notice.Kind) (who : Identity) (room : String) (n : Notice) : Prop :=
  n.kind = kind ∧ n.user = some who.user ∧ n.username = who.name ∧ n.room = some room

theorem Sound.answers_join (h : x.Sound) (he : x.roster.entry? id = some e) :
    ∃ answer news, Answers x (x.join l id room) id room answer news ∧ Reports .userJoined e.identity room news ∧
      (Reports .roomJoined e.identity room answer ∧ RoomName.fault? room = none ∨
        answer.kind = .error ∧ ∃ f, RoomName.fault? room = some f ∧ answer.content = some f.message) ∧
      (x.Moves (x.join l id room) id room ↔ RoomName.fault? room = none ∧ ¬ x.roster.HasMember room id) := by
  let news (s : Notice.Stamp) : Notice :=
    ((Notice.about s .userJoined e.identity).withRoom room).withContent s!"{e.identity.name} joined the room"
  have hl : x.roster.IsLive id := .of_some he
  have hn (s : Notice.Stamp) : Reports .userJoined e.identity room (news s) := ⟨rfl, rfl, rfl, rfl⟩
  cases hf : RoomName.fault? room
  case some f =>
    have hj : x.join l id room = x.tell id fun s => Notice.error s f.message := by
      simp only [Exchange.join, he, hf]
    have ho := h.offers_tell hl fun s => Notice.error s f.message
    rw [hj]
    refine ⟨_, _, .alone ho _, hn x.supply.stamp, .inr ⟨rfl, f, rfl, rfl⟩, ?_⟩
    simp [Moves, ho.roster]
  case none =>
    let make (s : Notice.Stamp) : Notice :=
      ((Notice.about s .roomJoined e.identity).withRoom room).withContent s!"You joined room {room}"
    by_cases hm : room ∈ e.rooms
    case pos =>
      have hj : x.join l id room = x.tell id make := by
        simp only [Exchange.join, he, hf, Roster.join_of_mem he hm, make]
      have ho := h.offers_tell hl make
      rw [hj]
      refine ⟨_, _, .alone ho _, hn x.supply.stamp, .inl ⟨⟨rfl, rfl, rfl, rfl⟩, rfl⟩, ?_⟩
      simp [Moves, ho.roster, (h.hasMember_iff he).mpr hm]
    case neg =>
      have hj : x.join l id room =
          ({ x with roster := (x.roster.join id room).2 }.tell id make).announce l e.identity (.room room) true
            news := by
        simp only [Exchange.join, he, hf, Roster.join_joined he hm, make, news]
      obtain ⟨hmoves, ha⟩ := h.answers_entered he hf hm rfl hj
      exact ⟨_, _, ha, hn _, .inl ⟨⟨rfl, rfl, rfl, rfl⟩, rfl⟩,
        iff_of_true hmoves ⟨rfl, (h.hasMember_iff he).not.mpr hm⟩⟩

theorem Sound.answers_leave (h : x.Sound) (he : x.roster.entry? id = some e) :
    ∃ answer news, Answers x (x.leave l id room) id room answer news ∧ Reports .userLeft e.identity room news ∧
      (Reports .roomLeft e.identity room answer ∧ x.roster.HasMember room id ∨
        answer.kind = .error ∧ ¬ x.roster.HasMember room id) ∧
      (x.Moves (x.leave l id room) id room ↔ x.roster.HasMember room id) := by
  let news (s : Notice.Stamp) : Notice :=
    ((Notice.about s .userLeft e.identity).withRoom room).withContent s!"{e.identity.name} left the room"
  have hn (s : Notice.Stamp) : Reports .userLeft e.identity room (news s) := ⟨rfl, rfl, rfl, rfl⟩
  have hmem : x.roster.HasMember room id ↔ room ∈ e.rooms := h.hasMember_iff he
  by_cases hm : room ∈ e.rooms
  case neg =>
    have hj : x.leave l id room = x.tell id fun s => Notice.error s s!"You are not in room {room}" := by
      simp only [Exchange.leave, he, Roster.leave_of_not_mem he hm]
    have ho := h.offers_tell (.of_some he) fun s => Notice.error s s!"You are not in room {room}"
    rw [hj]
    refine ⟨_, _, .alone ho _, hn x.supply.stamp, .inr ⟨rfl, hmem.not.mpr hm⟩, ?_⟩
    simp [Moves, ho.roster, hmem.not.mpr hm]
  case pos =>
    let make (s : Notice.Stamp) : Notice :=
      ((Notice.about s .roomLeft e.identity).withRoom room).withContent s!"You left room {room}"
    let y := { x with roster := (x.roster.leave id room).2 }.tell id make
    have hj : x.leave l id room =
        if 0 < ((Roster.expel x.roster.rooms room id)[room]?.map Room.count).getD 0 then
          y.announce l e.identity (.room room) false news else y := by
      simp only [Exchange.leave, he, Roster.leave_left he hm, y, make, news]
    obtain ⟨hmoves, ha⟩ := h.answers_left he hm rfl hj
    have hi := hmem.mpr hm
    exact ⟨_, _, ha, hn _, .inl ⟨⟨rfl, rfl, rfl, rfl⟩, hi⟩, iff_of_true hmoves hi⟩

-- Wherever a run has led, whoever asks to enter a room is given one answer: that it is in the room if the name of the
-- room will do, and an error if not.  The others in the room are told once if it was not there before.  Whoever asks to
-- leave a room is told that it has left if it was there, and is given an error if not.  Those who are still there are
-- told once.  Where nobody has moved, the roster is as it was.
theorem Run.moves_answered (run : Run Allows .empty x) (he : x.roster.entry? id = some e) (l : Listing)
    (room : String) :
    (∃ answer news,
      Answers x (x.perform l (.join id room)) id room answer news ∧ Reports .userJoined e.identity room news ∧
        (Reports .roomJoined e.identity room answer ∧ RoomName.fault? room = none ∨
          answer.kind = .error ∧ ∃ f, RoomName.fault? room = some f ∧ answer.content = some f.message) ∧
        (x.Moves (x.perform l (.join id room)) id room ↔
          RoomName.fault? room = none ∧ ¬ x.roster.HasMember room id)) ∧
    ∃ answer news,
      Answers x (x.perform l (.leave id room)) id room answer news ∧ Reports .userLeft e.identity room news ∧
        (Reports .roomLeft e.identity room answer ∧ x.roster.HasMember room id ∨
          answer.kind = .error ∧ ¬ x.roster.HasMember room id) ∧
        (x.Moves (x.perform l (.leave id room)) id room ↔ x.roster.HasMember room id) :=
  have h := run.sound sound_empty
  ⟨h.answers_join he, h.answers_leave he⟩

-- Ann is in the hall when Bob comes, and hears of it.  The yard she is not in, and cannot leave.
theorem Run.moves_answered_hall :
    let ann : Registration := ⟨⟨1⟩, ⟨7, "ann"⟩, 0⟩
    let bob : Registration := ⟨⟨2⟩, ⟨8, "bob"⟩, 1⟩
    let x := (Interlude.prepare 1 8).apply ((Interlude.prepare 0 8).apply .empty)
    let y := ((x.handle .ascending (.register ann)).handle .ascending (.register bob)).handle .ascending
      (.join ann.id "hall")
    (∃ answer news others, Reports .roomJoined bob.identity "hall" answer ∧ ann.id ∈ others ∧
      ∃ z, Offers news others z (y.perform .ascending (.join bob.id "hall"))) ∧
    ∃ answer news, answer.kind = .error ∧
      Answers y (y.perform .ascending (.leave ann.id "yard")) ann.id "yard" answer news := by
  intro ann bob x y
  let x₁ := x.perform .ascending (.register ann)
  let x₂ := x₁.perform .ascending (.register bob)
  let x₃ := x₂.perform .ascending (.join ann.id "hall")
  have h₁ : x.handle .ascending (.register ann) = x₁ := handle_eq_perform (by decide)
  have h₂ : x₁.handle .ascending (.register bob) = x₂ := handle_eq_perform (by decide)
  have h₃ : x₂.handle .ascending (.join ann.id "hall") = x₃ := handle_eq_perform (by decide)
  have hx : x.Allows (.register ann) := newcomer_first (fun _ => ExtTreeMap.not_mem_empty) (by decide)
  have hb : x₁.Allows (.register bob) :=
    newcomer_second (fun _ => ExtTreeMap.not_mem_empty) (by decide) (by decide) (by decide)
  have hy : y = x₃ := by simp only [y, h₁, h₂, h₃]
  have hp : 1 ∉ ((Interlude.prepare 0 8).apply empty).mailboxes := by decide
  let run : Run Allows .empty y :=
    .step (.step (.step (.step (.step .refl (.between (.prepare 0 8) ExtTreeMap.not_mem_empty))
      (.between (.prepare 1 8) hp)) (.command .ascending (.register ann) hx))
      (.command .ascending (.register bob) (h₁ ▸ hb))) (.command .ascending (.join ann.id "hall") trivial)
  have hmem room id : y.roster.HasMember room id ↔ id ∈ x₃.roster.memberIds room := by
    rw [hy]
    exact Roster.mem_memberIds.symm
  constructor
  case left =>
    have he : (y.roster.entry? bob.id).map (·.identity) = some bob.identity := by rw [hy]; decide
    obtain ⟨e, he, hb⟩ := Option.map_eq_some_iff.mp he
    obtain ⟨answer, news, ha, _, hk, hm⟩ := (run.moves_answered he .ascending "hall").1
    have hn : RoomName.fault? "hall" = none := by decide
    have hmoves := hm.mpr ⟨hn, by rw [hmem]; decide⟩
    obtain ⟨z, others, _, ho, _, hothers⟩ := ha.told
    have hann : ann.id ∈ others := (hothers _).mpr ⟨hmoves, by decide, by rw [hmem]; decide⟩
    have hr : Reports .roomJoined e.identity "hall" answer ∧ _ := hk.resolve_right <| by
      rintro ⟨_, f, hf, _⟩
      cases hn.symm.trans hf
    exact ⟨answer, news, others, hb ▸ hr.1, hann, z, ho⟩
  case right =>
    obtain ⟨e, he⟩ := Roster.isLive_iff.mp (show y.roster.IsLive ann.id by rw [hy]; decide)
    obtain ⟨answer, news, ha, _, hk, _⟩ := (run.moves_answered he .ascending "yard").2
    have hn : ¬ y.roster.HasMember "yard" ann.id := by rw [hmem]; decide
    exact ⟨answer, news, (hk.resolve_left fun hk => hn hk.2).1, ha⟩

end Exchange
end Parley
