import Switchboard.RequestId
import Switchboard.Mailbox

/-!
# The pending table

Requests that were sent and not answered yet, by identifier. An entry leaves the table at most once,
together with the right to complete its request.
-/

namespace Switchboard

/-- A request that awaits its reply, with the ticket of the mailbox for its outcome. -/
structure Pending where
  id : RequestId
  verb : String
  ticket : Ticket
  deriving DecidableEq, Repr

/-- The pending requests, in ascending order of their identifiers. -/
structure PendingTable where
  entries : List Pending := []
  deriving DecidableEq, Repr

namespace PendingTable

/-- Puts a request in its place; one with the same identifier gives way. -/
def insertEntry (p : Pending) : List Pending → List Pending
  | [] => [p]
  | q :: rest =>
    if p.id < q.id then p :: q :: rest
    else if p.id = q.id then p :: rest
    else q :: insertEntry p rest

/-- One more request. The source of identifiers sees to it that the identifier is new. -/
def insert (t : PendingTable) (p : Pending) : PendingTable := ⟨insertEntry p t.entries⟩

/-- The request with an identifier. -/
def find? (t : PendingTable) (id : RequestId) : Option Pending :=
  t.entries.find? fun p => p.id == id

/-- The table without the request of an identifier. -/
def erase (t : PendingTable) (id : RequestId) : PendingTable :=
  ⟨t.entries.filter fun p => p.id != id⟩

/-- Takes a request out. -/
def take (t : PendingTable) (id : RequestId) : Option Pending × PendingTable :=
  (t.find? id, t.erase id)

/-- A way to go through requests: each of them once, in some order. -/
structure Order where
  arrange : List Pending → List Pending
  perm : ∀ entries, (arrange entries).Perm entries

/-- As they stand in the table. -/
def Order.ascending : Order := ⟨id, fun _ => List.Perm.refl _⟩

@[simp] theorem Order.ascending_arrange (entries : List Pending) :
    Order.ascending.arrange entries = entries := rfl

/-- Takes every request out. The table does not promise in which order. -/
def drain (t : PendingTable) (order : Order := .ascending) : List Pending × PendingTable :=
  (order.arrange t.entries, {})

/-- The identifiers in the table, in ascending order. -/
def ids (t : PendingTable) : List RequestId := t.entries.map (·.id)

def contains (t : PendingTable) (id : RequestId) : Bool := t.ids.contains id

def size (t : PendingTable) : Nat := t.entries.length

def isEmpty (t : PendingTable) : Bool := t.entries.isEmpty

end PendingTable

end Switchboard
