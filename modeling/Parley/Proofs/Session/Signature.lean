import Parley.Proofs.Session.Turn

namespace Parley

namespace Session

-- What a session of a certain id and identity leaves at the desk: its registration, the removal of its connection,
-- and what its client asks for.
inductive Signs (id : ConnectionId) (who : Identity) : Command → Prop
  | registration (k : Nat) : Signs id who (.register ⟨id, who, k⟩)
  | removal : Signs id who (.unregister id)
  | request {r a} (hr : Reaction.IsTo id who r) (ha : r.command = some a) : Signs id who a

-- A session whose couriers have nothing else with them.
structure IsHonest (c : Session) : Prop where
  reader : ∀ a, c.reader.courier.command? = some a → Signs c.id c.identity a
  writer : ∀ k a, c.writer.phase = .leaving k → k.command? = some a → Signs c.id c.identity a

variable {d : Desk} {c c' : Session} {new : List Errand} {k k' : Courier} {id : ConnectionId} {who : Identity}
  {r : Registration}

theorem Signs.eq_of_register (h : Signs id who (.register r)) : r.id = id ∧ r.identity = who := by
  cases h
  case registration => exact ⟨rfl, rfl⟩
  case request hr ha => exact (hr.isRequestOf ha).elim

theorem Signs.exists_of_isRequest {a : Command} (h : Signs id who a) (ha : a.IsRequest) :
    ∃ r, Reaction.IsTo id who r ∧ r.command = some a := by
  cases h
  case registration | removal => exact ha.elim
  case request r hr ha => exact ⟨r, hr, ha⟩

theorem Begins.isHonest (h : c.Begins id who) : c.IsHonest := by
  refine ⟨fun a hk => ?_, fun k a hp => ?_⟩
  · rw [h.reader] at hk
    cases hk
  · rw [h.writer] at hp
    cases hp

theorem Courier.Forwards.signs (hf : k.Forwards d k' new) (h : ∀ a, k.command? = some a → Signs id who a) :
    (∀ a, k'.command? = some a → Signs id who a) ∧ ∀ e ∈ new, Signs id who e.command := by
  obtain ⟨hk, rfl⟩ | ⟨a, ha, hk, rfl⟩ := hf.command?
  case inl => exact ⟨fun a ha => h a (hk ▸ ha), List.forall_mem_nil _⟩
  case inr => exact ⟨by simp [hk], List.forall_mem_singleton.mpr (h a ha)⟩

theorem Alike.isHonest (ha : Alike c c') (h : c.IsHonest) : c'.IsHonest := by
  refine ⟨fun a hk => ?_, fun k a hp hk => ?_⟩ <;> rw [ha.id, ha.identity]
  case refine_1 => exact h.reader a (ha.courier ▸ hk)
  case refine_2 =>
    obtain hq | ⟨_, hq⟩ := ha.phase
    case inl => exact h.writer k a (hq ▸ hp) hk
    case inr => exact (hp ▸ hq : Writer.Phase.IsAtWork (.leaving _)).elim

theorem Told.isHonest (ht : Told c c') (h : c.IsHonest) : c'.IsHonest := by
  cases ht <;> exact ⟨h.reader, h.writer⟩

theorem signs_withdraw {a : Command} (ha : c.withdraw.1.command? = some a) : Signs c.id c.identity a := by
  simp only [withdraw] at ha
  split at ha <;> cases ha
  exact .removal

namespace IsHonest

variable (h : c.IsHonest)

include h

theorem sendFromReader (hk : ∀ a, k.command? = some a → Signs c.id c.identity a) :
    (c.sendFromReader k).IsHonest :=
  ⟨hk, h.writer⟩

theorem sendFromWriter (hk : ∀ a, k.command? = some a → Signs c.id c.identity a) :
    (c.sendFromWriter k).IsHonest :=
  ⟨h.reader, fun _ a hp ha => hk a (Writer.Phase.leaving.inj hp ▸ ha)⟩

theorem readerDone : c.readerDone.IsHonest :=
  ⟨fun _ => signs_withdraw (c := c), h.writer⟩

theorem writerDone : c.writerDone.IsHonest := by
  refine ⟨h.reader, fun k a hp ha => signs_withdraw (c := c) ?_⟩
  cases hp
  exact ha

end IsHonest

namespace Turn

theorem identity_eq (t : Turn d c c' new) : c'.identity = c.identity := by
  cases t
  case stay h | request h _ _ _ | readerStops h _ | refuse h => exact h.identity
  all_goals rfl

theorem isHonest (t : Turn d c c' new) (h : c.IsHonest) : c'.IsHonest := by
  have hidle a (ha : Courier.idle.command? = some a) : Signs c.id c.identity a := by cases ha
  cases t
  case stay ha => exact ha.isHonest h
  case serve => exact ⟨hidle, by simp [Session.serve, Writer.start]⟩
  case request c' r ha _ hr _ =>
    refine (ha.isHonest h).sendFromReader fun a hc => ?_
    rw [ha.id, ha.identity]
    exact .request hr (Reaction.command?_courier ▸ hc)
  case readerStops ha _ => exact (ha.isHonest h).readerDone
  case readerForwards hf => exact h.sendFromReader (hf.signs h.reader).1
  case readerRefused => exact h.sendFromReader hidle
  case readerGivesUp => exact (h.sendFromReader hidle).readerDone
  case writerStops => exact h.writerDone
  case writerForwards hp hf => exact h.sendFromWriter (hf.signs fun a => h.writer _ a hp).1
  case writerRefused => exact h.sendFromWriter hidle
  case writerEnds => exact ⟨h.reader, by simp⟩
  case refuse ha => exact ha.isHonest ⟨h.reader, h.writer⟩
  case finish => exact ⟨h.reader, h.writer⟩

-- Whatever a session leaves at the desk is signed.
theorem signs (t : Turn d c c' new) (h : c.IsHonest) : ∀ e ∈ new, Signs c.id c.identity e.command := by
  cases t
  case readerForwards hf => exact (hf.signs h.reader).2
  case writerForwards hp hf => exact (hf.signs fun a => h.writer _ a hp).2
  all_goals exact List.forall_mem_nil _

end Turn
end Session
end Parley
