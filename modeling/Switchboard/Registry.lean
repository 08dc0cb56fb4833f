import Switchboard.PendingTable

/-!
# The registry

A pending table together with the mailboxes of its requests and the requests that were taken out of
it. Whoever takes a request out may complete it once, or give it up. Requests that were taken out
are numbered in the order of taking.
-/

namespace Switchboard

/-- A table, its mailboxes, and the requests taken out of it; `none` for one that was used. -/
structure Registry where
  table : PendingTable := {}
  mailroom : Mailroom := {}
  taken : List (Option Pending) := []

namespace Registry

/-- What can be done with a registry. -/
inductive Step where
  /-- Enter a request, with a fresh mailbox. -/
  | insert (id : RequestId) (verb : String)
  /-- Take a request out. -/
  | take (id : RequestId)
  /-- Ask whether a request is in the table. -/
  | contains (id : RequestId)
  /-- Take every request out, in the order in which the table happens to go through them. -/
  | drain (order : PendingTable.Order := .ascending)
  /-- Complete the request that was taken out as the `n`-th. -/
  | complete (n : Nat) (outcome : Outcome)
  /-- Give the request up that was taken out as the `n`-th. -/
  | giveUp (n : Nat)
  /-- Look into a mailbox and take out what is there. -/
  | read (ticket : Ticket)
  /-- Stop reading a mailbox. -/
  | discard (ticket : Ticket)

/-- What a step returns. -/
inductive Answer where
  | inserted (ticket : Ticket)
  /-- The identifier is in the table already; nothing was done. -/
  | duplicate
  | taken (entry : Option Pending)
  | present (isPresent : Bool)
  | drained (entries : List Pending)
  | done
  /-- There is no such request or mailbox, or it was used before. -/
  | gone
  | seen (glimpse : Glimpse)

/-- Uses a request that was taken out: `f` says what becomes of its mailbox. -/
def settle (r : Registry) (n : Nat) (f : Mailbox → Mailbox) : Answer × Registry :=
  match r.taken[n]? with
  | some (some p) =>
    (.done, { r with taken := r.taken.set n none, mailroom := r.mailroom.update p.ticket f })
  | _ => (.gone, r)

/-- Does one step. -/
def step (r : Registry) : Step → Answer × Registry
  | .insert id verb =>
    if r.table.contains id then (.duplicate, r)
    else
      let ticket := r.mailroom.nextTicket
      (.inserted ticket, { r with
        table := r.table.insert { id, verb, ticket }
        mailroom := r.mailroom.open id .waiting })
  | .take id =>
    match r.table.take id with
    | (none, _) => (.taken none, r)
    | (some p, table) => (.taken (some p), { r with table, taken := r.taken ++ [some p] })
  | .contains id => (.present (r.table.contains id), r)
  | .drain order =>
    let (entries, table) := r.table.drain order
    (.drained entries, { r with table, taken := r.taken ++ entries.map some })
  | .complete n outcome => r.settle n (·.deliver outcome)
  | .giveUp n => r.settle n Mailbox.giveUp
  | .read ticket =>
    let (glimpse, mailroom) := r.mailroom.take ticket
    (.seen glimpse, { r with mailroom })
  | .discard ticket =>
    match r.mailroom.box ticket with
    | .discarded => (.gone, r)
    | _ => (.done, { r with mailroom := r.mailroom.update ticket fun _ => .discarded })

/-- Does steps in order. -/
def run (r : Registry) : List Step → List Answer × Registry
  | [] => ([], r)
  | s :: rest =>
    let (answer, r) := r.step s
    let (answers, r) := r.run rest
    (answer :: answers, r)

end Registry

end Switchboard
