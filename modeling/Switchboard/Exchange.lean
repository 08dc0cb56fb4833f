import Switchboard.IdSource
import Switchboard.PendingTable
import Switchboard.Frame

/-!
# The exchange

An exchange runs any number of requests over one connection. It numbers the requests, remembers the
pending ones, routes each reply to the mailbox of its request by identifier alone, and answers
everyone when the connection goes away.

Handing a frame to the transport is a step of the outside world: while it lasts, frames may come in,
requests may be withdrawn and the connection may end. So a dispatch takes what happened meanwhile,
and whether the transport took the frame, as an input.
-/

namespace Switchboard

/-- What may happen to an exchange from outside at any moment. -/
inductive Event where
  /-- A frame comes in. -/
  | frame (text : String)
  /-- The caller withdraws a request. -/
  | cancel (id : RequestId)
  /-- The connection is gone. -/
  | close (reason : String)
  deriving DecidableEq, Repr

/-- What became of an incoming frame. -/
inductive FrameOutcome where
  /-- It brought a pending request its data. -/
  | resolved (id : RequestId)
  /-- It brought a pending request a failure. -/
  | rejected (id : RequestId)
  /-- It is well formed, but no pending request has its identifier. -/
  | unmatched
  /-- It is no reply. -/
  | malformed
  deriving DecidableEq, Repr

/-- What an event did. -/
inductive Report where
  | frame (outcome : FrameOutcome)
  /-- Whether the request was pending. -/
  | cancelled (wasPending : Bool)
  /-- How many requests were rejected. -/
  | closed (rejected : Nat)
  deriving DecidableEq, Repr

/-- How handing a frame to the transport went. -/
structure Handover where
  /-- What happened before the transport returned, in order. -/
  meanwhile : List Event := []
  /-- Why the transport refused the frame, if it did. -/
  failure : Option Failure := none

/-- The state of all requests of one connection. -/
structure Exchange where
  ids : IdSource
  /-- Whether the end of the connection rejects what is still pending. -/
  rejectsOnClose : Bool
  pending : PendingTable := {}
  mailroom : Mailroom := {}
  /-- Why the connection is gone, once it is; the first reason stays. -/
  closedFor : Option String := none

/-- What a dispatch returns to the caller: the handle of the request, its frame if it was handed to
the transport, and what the events meanwhile did. -/
structure Dispatched where
  id : RequestId
  ticket : Ticket
  frame : Option String
  reports : List Report

namespace Exchange

/-- Before the first request. -/
def fresh (strategy : IdStrategy) (rejectsOnClose : Bool) : Exchange :=
  { ids := { strategy }, rejectsOnClose }

/-- Whether the connection is gone. -/
def isClosed (x : Exchange) : Bool := x.closedFor.isSome

/-- Takes a pending request out of the table. -/
def take (x : Exchange) (id : RequestId) : Option Pending × Exchange :=
  let (entry, pending) := x.pending.take id
  (entry, { x with pending })

/-- Puts the outcome of a request that was taken out into its mailbox. -/
def complete (x : Exchange) (p : Pending) (outcome : Outcome) : Exchange :=
  { x with mailroom := x.mailroom.update p.ticket (·.deliver outcome) }

/-- Gives a request up that was taken out. -/
def giveUp (x : Exchange) (p : Pending) : Exchange :=
  { x with mailroom := x.mailroom.update p.ticket Mailbox.giveUp }

/-- Routes an incoming frame to the pending request with its identifier. A frame that matches none
changes nothing. -/
def receive (x : Exchange) (text : String) : FrameOutcome × Exchange :=
  match ReplyFrame.decode text with
  | .error _ => (.malformed, x)
  | .ok (token, reply) =>
    match RequestId.ofToken? token with
    | none => (.unmatched, x)
    | some id =>
      match x.take id with
      | (none, _) => (.unmatched, x)
      | (some p, x) =>
        (if reply.isSuccess then .resolved id else .rejected id, x.complete p reply.outcome)

/-- Withdraws a request; a reply that comes later matches nothing. -/
def cancel (x : Exchange) (id : RequestId) : Bool × Exchange :=
  match x.take id with
  | (none, _) => (false, x)
  | (some p, x) => (true, x.giveUp p)

/-- Rejects a request with a failure, if it is still pending. -/
def reject (x : Exchange) (id : RequestId) (failure : Failure) : Exchange :=
  match x.take id with
  | (none, _) => x
  | (some p, x) => x.complete p (.error failure)

/-- The connection is gone. What is pending is rejected, unless it is to be kept. -/
def close (x : Exchange) (reason : String) : Nat × Exchange :=
  let reason := x.closedFor.getD reason
  let x := { x with closedFor := some reason }
  if x.rejectsOnClose then
    let (drained, pending) := x.pending.drain
    (drained.length,
      drained.foldl (fun x p => x.complete p (.error (.disconnected reason)))
        { x with pending })
  else (0, x)

/-- Lets an event happen. -/
def perform (x : Exchange) : Event → Report × Exchange
  | .frame text =>
    let (outcome, x) := x.receive text
    (.frame outcome, x)
  | .cancel id =>
    let (wasPending, x) := x.cancel id
    (.cancelled wasPending, x)
  | .close reason =>
    let (rejected, x) := x.close reason
    (.closed rejected, x)

/-- Lets events happen in order. -/
def performAll (x : Exchange) : List Event → List Report × Exchange
  | [] => ([], x)
  | e :: rest =>
    let (report, x) := x.perform e
    let (reports, x) := x.performAll rest
    (report :: reports, x)

/-- Enters a new request into the table, with a mailbox of its own. -/
def issue (x : Exchange) (now : UInt64) (verb : String) : RequestId × Exchange :=
  let (id, ids) := x.ids.next now
  let p : Pending := { id, verb, ticket := x.mailroom.nextTicket }
  (id, { x with
    ids
    pending := x.pending.insert p
    mailroom := x.mailroom.open id .waiting })

/-- Sends a request. It never fails at once: a connection that is gone, and a transport that refuses
the frame, show in the mailbox. Nothing goes out after the end of the connection, so no identifier
is used up then. -/
def dispatch (x : Exchange) (now : UInt64) (verb : String) (arguments : List String)
    (handover : Handover) : Dispatched × Exchange :=
  let ticket := x.mailroom.nextTicket
  match x.closedFor with
  | some reason =>
    let id := x.ids.peek now
    let rejected := Mailbox.holding (.error (.disconnected reason))
    ({ id, ticket, frame := none, reports := [] },
      { x with mailroom := x.mailroom.open id rejected })
  | none =>
    let (id, x) := x.issue now verb
    let (reports, x) := x.performAll handover.meanwhile
    let x :=
      match handover.failure with
      | none => x
      | some failure => x.reject id failure
    ({ id, ticket, frame := some (requestFrame id verb arguments), reports }, x)

/-- Sends a command. -/
def dispatchCommand (x : Exchange) (now : UInt64) (c : Command) (handover : Handover) :
    Dispatched × Exchange :=
  x.dispatch now c.verb.token c.arguments handover

/-- The outcome as the holder of a ticket sees it: an exhausted mailbox reads as abandoned. -/
def outcomeOf (id : RequestId) : Glimpse → Option Outcome
  | .empty => none
  | .found outcome => some outcome
  | .exhausted | .gone => some (.error (.abandoned id))

/-- Asks for the outcome of a request without waiting; `none` while it is outstanding. -/
def poll (x : Exchange) (ticket : Ticket) : Option Outcome × Exchange :=
  match x.mailroom.owner? ticket with
  | none => (none, x)
  | some id =>
    let (glimpse, mailroom) := x.mailroom.take ticket
    (outcomeOf id glimpse, { x with mailroom })

/-- Waits for the outcome for a limited time in which nothing happens. After a timeout the request
is still pending. -/
def waitFor (x : Exchange) (ticket : Ticket) (limit : UInt64) : Option Outcome × Exchange :=
  match x.mailroom.owner? ticket with
  | none => (none, x)
  | some id =>
    match x.poll ticket with
    | (some outcome, x) => (some outcome, x)
    | (none, x) => (some (.error (.timeout id limit)), x)

/-- The caller lets go of the request; it stays pending. -/
def discard (x : Exchange) (ticket : Ticket) : Exchange :=
  { x with mailroom := x.mailroom.update ticket fun _ => .discarded }

/-- Waits for the outcome for as long as it takes and gives the ticket up for it; `none` if nothing
that has happened so far ends the wait. -/
def wait (x : Exchange) (ticket : Ticket) : Option Outcome × Exchange :=
  match x.poll ticket with
  | (some outcome, x) => (some outcome, x.discard ticket)
  | (none, x) => (none, x)

/-- Whether there is someone who may still ask for the outcome of a request. -/
def isHeld (x : Exchange) (ticket : Ticket) : Bool :=
  match x.mailroom.box ticket with
  | .discarded => false
  | _ => true

end Exchange

end Switchboard
