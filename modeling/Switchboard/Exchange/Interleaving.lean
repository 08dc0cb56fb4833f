import Switchboard.Client

/-!
# Callers that act at the same time

An operation of the exchange is not one step when several callers act at the same time. Taking a
request out of the table is one step, since the table is locked for it; completing the request comes
later, and until then the request is in the hands of whoever took it. A wait with a limit is three
steps: its time runs out, it withdraws the request, and it looks once more. Between two steps of one
caller any other may act. Each step here is an operation of the exchange or a part of one, and the
parts of an operation, done one right after the other, are the operation.
-/

namespace Switchboard

/-- What a request was taken out of the table for. -/
inductive Errand where
  /-- It is answered. -/
  | reply (r : Reply)
  /-- Its frame was refused, or the connection is gone. -/
  | failure (f : Failure)

/-- What the request is to be completed with. -/
def Errand.outcome : Errand → Outcome
  | .reply r => r.outcome
  | .failure f => .error f

/-- What is delivered by completing a request, if anything is: the reply to it. -/
def Errand.deliveries (id : RequestId) : Errand → List (RequestId × Reply)
  | .reply r => [(id, r)]
  | .failure _ => []

/-- A request that has left the table and is not completed yet. -/
structure Carried where
  request : Pending
  errand : Errand

/-- How far a wait with a limit has come. -/
inductive Waiting where
  /-- Its time is not up. -/
  | watching
  /-- Its time is up, and the request is still to be withdrawn. -/
  | expired (id : RequestId) (waited : UInt64)
  /-- The request is withdrawn, and the mailbox is still to be asked once more. -/
  | withdrawn (id : RequestId) (waited : UInt64)
  /-- The wait has returned. -/
  | returned (outcome : Outcome)

/-- Goes one step on with a wait. Whoever returns gives the ticket up. -/
def Waiting.next (limit : UInt64) (ticket : Ticket) (x : Exchange) : Waiting → Waiting × Exchange
  | .watching =>
    match x.waitFor ticket limit with
    | (some (.error (.timeout id waited)), x) => (.expired id waited, x)
    | (some outcome, x) => (.returned outcome, x.discard ticket)
    | (none, x) => (.watching, x)
  | .expired id waited => (.withdrawn id waited, (x.cancel id).2)
  | .withdrawn id waited =>
    let (outcome, x) := Client.lookAgain x ticket id waited
    (.returned outcome, x.discard ticket)
  | .returned outcome => (.returned outcome, x)

/-- The exchange, what is in someone's hands, which deliveries of a reply have returned, and how far
one wait has come. -/
structure Scene where
  exchange : Exchange
  inHand : List Carried := []
  /-- The deliveries that have returned, each with the request and the reply that it brought. -/
  delivered : List (RequestId × Reply) := []
  waiting : Waiting := .watching

/-- A single step of some caller. -/
inductive Act where
  /-- A request is entered, or turned away. -/
  | send (now : UInt64) (verb : String) (arguments : List String)
  /-- A frame has come in, and the request that it answers is taken out. -/
  | arrive (text : String)
  /-- The transport has refused the frame of a request, and the request is taken out. -/
  | refuse (id : RequestId) (failure : Failure)
  /-- The connection is gone, and what is to be rejected is taken out, in some order. -/
  | close (reason : String) (order : PendingTable.Order := .ascending)
  /-- A request in someone's hands is completed. -/
  | finish (place : Nat)
  /-- A request is withdrawn. -/
  | cancel (id : RequestId)
  /-- Someone looks into a mailbox. -/
  | look (ticket : Ticket)
  /-- Someone lets go of a request. -/
  | discard (ticket : Ticket)
  /-- The wait goes one step on. -/
  | wait

namespace Scene

/-- Before anything has been sent. -/
def start (strategy : IdStrategy) (rejectsOnClose : Bool) : Scene :=
  { exchange := .fresh strategy rejectsOnClose }

/-- Takes a request out of the table for an errand, if it is there. -/
def pickUp (s : Scene) (id : RequestId) (errand : Errand) : Scene :=
  match s.exchange.take id with
  | (none, _) => s
  | (some p, exchange) => { s with exchange, inHand := s.inHand ++ [⟨p, errand⟩] }

/-- The end of the connection as far as the table is locked for it. -/
def detach (s : Scene) (reason : String) (order : PendingTable.Order) : Scene :=
  let reason := s.exchange.closedFor.getD reason
  let x := { s.exchange with closedFor := some reason }
  if x.rejectsOnClose then
    let (drained, pending) := x.pending.drain order
    { s with
      exchange := { x with pending }
      inHand := s.inHand ++ drained.map fun p => ⟨p, .failure (.disconnected reason)⟩ }
  else { s with exchange := x }

/-- Completes the request at a place, and thereby ends its errand. -/
def finish (s : Scene) (place : Nat) : Scene :=
  match s.inHand[place]? with
  | none => s
  | some c =>
    { s with
      exchange := s.exchange.complete c.request c.errand.outcome
      inHand := s.inHand.eraseIdx place
      delivered := s.delivered ++ c.errand.deliveries c.request.id }

/-- Does one step, where the wait is on a ticket and has a limit. -/
def act (s : Scene) (limit : UInt64) (ticket : Ticket) : Act → Scene
  | .send now verb arguments =>
    { s with exchange := (s.exchange.dispatch now verb arguments {}).2 }
  | .arrive text =>
    match ReplyFrame.decode text with
    | .error _ => s
    | .ok (token, reply) =>
      match RequestId.ofToken? token with
      | none => s
      | some id => s.pickUp id (.reply reply)
  | .refuse id failure => s.pickUp id (.failure failure)
  | .close reason order => s.detach reason order
  | .finish place => s.finish place
  | .cancel id => { s with exchange := (s.exchange.cancel id).2 }
  | .look other => { s with exchange := (s.exchange.poll other).2 }
  | .discard other => { s with exchange := s.exchange.discard other }
  | .wait =>
    let (waiting, exchange) := s.waiting.next limit ticket s.exchange
    { s with exchange, waiting }

/-- Does steps in order. -/
def play (s : Scene) (limit : UInt64) (ticket : Ticket) (acts : List Act) : Scene :=
  acts.foldl (fun s a => s.act limit ticket a) s

end Scene

end Switchboard
