import Switchboard.Mailbox
import Mathlib

/-! # Mailboxes by ticket

What each operation of a mailroom does to the mailbox of one ticket. A mailbox never changes its
owner, and once an outcome has come, or can come no more, no completion changes it.
-/

namespace Switchboard

namespace Mailbox

/-- Nothing lies in the mailbox: either the request is open, or no one reads it. -/
def Vacant (box : Mailbox) : Prop := box = .waiting ∨ box = .discarded

theorem deliver_of_ne_waiting {box : Mailbox} (settled : box ≠ .waiting) (outcome : Outcome) :
    box.deliver outcome = box := by
  cases box with
  | waiting => exact absurd rfl settled
  | holding | spent | discarded => rfl

theorem giveUp_of_ne_waiting {box : Mailbox} (settled : box ≠ .waiting) : box.giveUp = box := by
  cases box with
  | waiting => exact absurd rfl settled
  | holding | spent | discarded => rfl

theorem deliver_ne_waiting (box : Mailbox) (outcome : Outcome) :
    box.deliver outcome ≠ .waiting := by
  cases box <;> simp [deliver]

theorem giveUp_ne_waiting (box : Mailbox) : box.giveUp ≠ .waiting := by
  cases box <;> simp [giveUp]

theorem emptied_eq_waiting {box : Mailbox} : box.emptied = .waiting ↔ box = .waiting := by
  cases box <;> simp [emptied]

end Mailbox

namespace Mailroom

variable (room : Mailroom)

theorem getElem?_update (ticket other : Ticket) (f : Mailbox → Mailbox) :
    (room.update ticket f).boxes[other]? =
      if other = ticket then room.boxes[other]?.map fun entry => (entry.1, f entry.2)
      else room.boxes[other]? := by
  simp only [update, List.getElem?_modify]
  by_cases same : other = ticket
  · subst same
    simp
  · simp [same, Ne.symm same]

theorem getElem?_update_self (ticket : Ticket) (f : Mailbox → Mailbox) :
    (room.update ticket f).boxes[ticket]? =
      room.boxes[ticket]?.map fun entry => (entry.1, f entry.2) := by
  rw [getElem?_update, if_pos rfl]

theorem getElem?_update_of_ne {ticket other : Ticket} (different : other ≠ ticket)
    (f : Mailbox → Mailbox) : (room.update ticket f).boxes[other]? = room.boxes[other]? := by
  rw [getElem?_update, if_neg different]

/-- What stands at a ticket after an update stood there before with the same owner. -/
theorem of_getElem?_update {ticket other : Ticket} {f : Mailbox → Mailbox} {id : RequestId}
    {box : Mailbox} (located : (room.update ticket f).boxes[other]? = some (id, box)) :
    ∃ old, room.boxes[other]? = some (id, old) ∧ (box = old ∨ other = ticket ∧ box = f old) := by
  rw [getElem?_update] at located
  split at located
  case isTrue same =>
    obtain ⟨⟨owner, old⟩, before, changed⟩ := Option.map_eq_some_iff.mp located
    obtain ⟨rfl, rfl⟩ := Prod.mk.inj changed
    exact ⟨old, before, Or.inr ⟨same, rfl⟩⟩
  case isFalse => exact ⟨box, located, Or.inl rfl⟩

theorem getElem?_open_nextTicket (id : RequestId) (box : Mailbox) :
    (room.open id box).boxes[room.nextTicket]? = some (id, box) := by
  simp [«open», nextTicket]

theorem getElem?_open_of_some {ticket : Ticket} {entry : RequestId × Mailbox}
    (located : room.boxes[ticket]? = some entry) (id : RequestId) (box : Mailbox) :
    (room.open id box).boxes[ticket]? = some entry := by
  have inside : ticket < room.boxes.length := (List.getElem?_eq_some_iff.mp located).1
  simpa only [«open», List.getElem?_append_left inside] using located

/-- A mailbox of the room with one more is either the new one or was there before. -/
theorem of_getElem?_open {ticket : Ticket} {id : RequestId} {box : Mailbox}
    {entry : RequestId × Mailbox} (located : (room.open id box).boxes[ticket]? = some entry) :
    room.boxes[ticket]? = some entry ∨ ticket = room.nextTicket ∧ entry = (id, box) := by
  simp only [«open», List.getElem?_append] at located
  split at located
  case isTrue => exact Or.inl located
  case isFalse outside =>
    obtain ⟨inside, found⟩ := List.getElem?_eq_some_iff.mp located
    rw [List.length_singleton] at inside
    have last : room.boxes.length = ticket := by omega
    refine Or.inr ⟨last.symm, ?_⟩
    rw [List.getElem_singleton] at found
    exact found.symm

@[simp] theorem nextTicket_update (ticket : Ticket) (f : Mailbox → Mailbox) :
    (room.update ticket f).nextTicket = room.nextTicket := by
  simp only [nextTicket, update, List.length_modify]

theorem nextTicket_le_open (room : Mailroom) (id : RequestId) (box : Mailbox) :
    room.nextTicket ≤ (room.open id box).nextTicket := by
  simp [nextTicket, «open»]

theorem update_open_nextTicket (id : RequestId) (box : Mailbox) (f : Mailbox → Mailbox) :
    (room.open id box).update room.nextTicket f = room.open id (f box) := by
  simp [«open», update, nextTicket, List.modify_eq_take_drop]

theorem update_open_of_lt {ticket : Ticket} (inside : ticket < room.nextTicket) (id : RequestId)
    (box : Mailbox) (f : Mailbox → Mailbox) :
    (room.open id box).update ticket f = (room.update ticket f).open id box := by
  have before : ticket < room.boxes.length := inside
  have there : ticket < (room.boxes ++ [(id, box)]).length := by
    rw [List.length_append]
    exact Nat.lt_add_right _ before
  simp only [«open», update, mk.injEq]
  rw [List.modify_eq_take_cons_drop there, List.modify_eq_take_cons_drop before,
    List.take_append_of_le_length (Nat.le_of_lt before), List.getElem_append_left before,
    List.drop_append_of_le_length before, List.append_assoc, List.cons_append]

/-- Two mailboxes that are changed alike may be changed in either order. -/
theorem update_right_comm (ticket other : Ticket) (f : Mailbox → Mailbox) :
    (room.update ticket f).update other f = (room.update other f).update ticket f := by
  by_cases same : ticket = other
  · rw [same]
  · exact congrArg Mailroom.mk (List.modify_modify_ne _ _ _ same)

/-- What is overwritten in the end does not show what was done to it first. -/
theorem update_update_overwrite (ticket other : Ticket) (f g : Mailbox → Mailbox) (box : Mailbox) :
    ((room.update ticket f).update other g).update ticket (fun _ => box) =
      (room.update other g).update ticket fun _ => box := by
  refine congrArg Mailroom.mk (List.ext_getElem? ?_)
  intro position
  change (((room.update ticket f).update other g).update ticket fun _ => box).boxes[position]? =
    ((room.update other g).update ticket fun _ => box).boxes[position]?
  simp only [getElem?_update]
  split_ifs <;> simp [Function.comp_def]

variable {room}

theorem box_eq {ticket : Ticket} {id : RequestId} {box : Mailbox}
    (located : room.boxes[ticket]? = some (id, box)) : room.box ticket = box := by
  simp only [Mailroom.box, located]

theorem owner?_eq {ticket : Ticket} {id : RequestId} {box : Mailbox}
    (located : room.boxes[ticket]? = some (id, box)) : room.owner? ticket = some id := by
  simp only [owner?, located, Option.map_some]

@[simp] theorem owner?_update (room : Mailroom) (ticket other : Ticket) (f : Mailbox → Mailbox) :
    (room.update ticket f).owner? other = room.owner? other := by
  rw [owner?, getElem?_update]
  split
  case isTrue => simp only [Option.map_map, Function.comp_def, owner?]
  case isFalse => rfl

theorem located_of_owner? {ticket : Ticket} {id : RequestId}
    (owned : room.owner? ticket = some id) :
    room.boxes[ticket]? = some (id, room.box ticket) := by
  obtain ⟨⟨owner, box⟩, located, rfl⟩ := Option.map_eq_some_iff.mp owned
  rw [box_eq located, located]

theorem box_of_none {ticket : Ticket} (nowhere : room.boxes[ticket]? = none) :
    room.box ticket = .discarded := by
  simp only [box, nowhere]

/-- Nothing is delivered to a mailbox that was let go. -/
theorem update_of_discarded {ticket : Ticket} (letGo : room.box ticket = .discarded)
    {f : Mailbox → Mailbox} (keeps : f .discarded = .discarded) : room.update ticket f = room := by
  have boxes : (room.update ticket f).boxes = room.boxes := by
    apply List.ext_getElem?
    intro other
    rw [getElem?_update]
    split
    case isTrue same =>
      subst same
      cases located : room.boxes[other]? with
      | none => rfl
      | some entry =>
          have discarded : entry.2 = .discarded := (box_eq located).symm.trans letGo
          rw [Option.map_some, discarded, keeps, ← discarded]
    case isFalse => rfl
  exact congrArg Mailroom.mk boxes

theorem update_of_none {ticket : Ticket} (nowhere : room.boxes[ticket]? = none)
    (f : Mailbox → Mailbox) : room.update ticket f = room := by
  rw [update, List.modify_eq_self (List.getElem?_eq_none_iff.mp nowhere)]

end Mailroom

end Switchboard
