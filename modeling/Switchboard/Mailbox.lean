import Switchboard.Failure

/-!
# Mailboxes

A mailbox takes the one outcome of one request and gives it out once. Mailboxes are kept in the
order in which they were opened, and a ticket is a position in that order.
-/

namespace Switchboard

/-- The state of a mailbox. -/
inductive Mailbox where
  /-- Empty, and the request may still be completed. -/
  | waiting
  /-- An outcome lies in it. -/
  | holding (outcome : Outcome)
  /-- Empty, and nothing will ever come: the outcome was read, or the request was given up. -/
  | spent
  /-- No one will read it any more. -/
  | discarded

/-- What a look into a mailbox finds. -/
inductive Glimpse where
  | empty
  | found (outcome : Outcome)
  | exhausted
  | gone

namespace Mailbox

/-- Completing the request puts its outcome in, if someone still waits for it. -/
def deliver (outcome : Outcome) : Mailbox → Mailbox
  | waiting => holding outcome
  | box => box

/-- Giving the request up without an outcome. -/
def giveUp : Mailbox → Mailbox
  | waiting => spent
  | box => box

/-- Looks without taking. -/
def peek : Mailbox → Glimpse
  | waiting => .empty
  | holding outcome => .found outcome
  | spent => .exhausted
  | discarded => .gone

/-- What is left after an outcome has been taken out. -/
def emptied : Mailbox → Mailbox
  | holding _ => spent
  | box => box

end Mailbox

/-- The position of a mailbox. -/
abbrev Ticket := Nat

/-- All mailboxes, in the order in which they were opened, each with the identifier of its
request. -/
structure Mailroom where
  boxes : List (RequestId × Mailbox) := []

namespace Mailroom

/-- The ticket that the next mailbox will have. -/
def nextTicket (room : Mailroom) : Ticket := room.boxes.length

/-- One more mailbox at the end. -/
def «open» (room : Mailroom) (id : RequestId) (box : Mailbox) : Mailroom :=
  ⟨room.boxes ++ [(id, box)]⟩

/-- The mailbox of a ticket; a ticket that was never given out has none that anyone could read. -/
def box (room : Mailroom) (ticket : Ticket) : Mailbox :=
  match room.boxes[ticket]? with
  | some (_, box) => box
  | none => .discarded

/-- The identifier of the request that a mailbox was opened for. -/
def owner? (room : Mailroom) (ticket : Ticket) : Option RequestId :=
  room.boxes[ticket]?.map (·.1)

/-- Changes one mailbox. -/
def update (room : Mailroom) (ticket : Ticket) (f : Mailbox → Mailbox) : Mailroom :=
  ⟨room.boxes.modify ticket fun (id, box) => (id, f box)⟩

/-- Looks into a mailbox and takes out what is there. -/
def take (room : Mailroom) (ticket : Ticket) : Glimpse × Mailroom :=
  ((room.box ticket).peek, room.update ticket Mailbox.emptied)

end Mailroom

end Switchboard
