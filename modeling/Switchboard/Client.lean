import Switchboard.Exchange
import Switchboard.Json.Decoder

/-!
# The client

A client turns a question about documents into a command, waits for the reply within a time limit,
and turns the data of the reply into an answer. A request that is not answered in time is withdrawn,
so that it does not stay in the table.
-/

namespace Switchboard

/-- A client, by how long it waits for a reply; `none` is forever. -/
structure Client where
  limit : Option UInt64 := none

/-- A question: the command that asks it, and what its data says. -/
structure Query (α : Type) where
  command : Command
  accept : Json → Except Failure α

namespace Query

/-- The data as it is. -/
def raw (command : Command) : Query Json := ⟨command, .ok⟩

/-- Only that the command is carried out. -/
def done (command : Command) : Query Unit := ⟨command, fun _ => .ok ()⟩

/-- Does a collection exist? -/
def «exists» (name : String) : Query Bool where
  command := .exists name
  accept
    | .bool b => .ok b
    | data => .error (.protocol (.notBoolean data))

/-- Create a collection. -/
def create (name : String) : Query Unit := done (.create name)

/-- Delete a whole collection. -/
def deleteCollection (collection : String) : Query Unit := done (.deleteCollection collection)

/-- The documents of a collection, all or those that meet a condition. -/
def list (collection : String) (condition : Option Condition) : Query Json :=
  raw (.list collection condition)

/-- A document. -/
def get (collection document : String) : Query Json := raw (.get collection document)

/-- A document as a value of the caller's own type. -/
def getAs (decoder : Json.Decoder α) (collection document : String) : Query α where
  command := .get collection document
  accept data :=
    match decoder data with
    | some a => .ok a
    | none => .error (.serialization .mismatched)

/-- Create or replace a document. -/
def set (collection document : String) (v : Json) : Query Unit :=
  done (.store collection document v)

/-- Create or replace a document by a value of the caller's own type, if it can be written. -/
def setAs (encoder : Json.Encoder α) (collection document : String) (a : α) :
    Except Failure (Query Unit) :=
  match Command.storeAs encoder collection document a with
  | .ok command => .ok (done command)
  | .error e => .error (.serialization e)

/-- Delete one document. -/
def delete (collection document : String) : Query Unit :=
  done (.deleteDocument collection document)

end Query

/-- The answer to a query; `none` if the client waits forever and nothing ends the wait. With it
come the frame that was handed to the transport and what the events meanwhile did. -/
structure Answer (α : Type) where
  result : Option (Except Failure α)
  frame : Option String
  reports : List Report

/-- The answer to a query that failed before there was anything to send. -/
def Answer.unsent (failure : Failure) : Answer α :=
  { result := some (.error failure), frame := none, reports := [] }

namespace Client

/-- Asks once more after the time is up, and reports the timeout if there is no outcome even now. -/
def lookAgain (x : Exchange) (ticket : Ticket) (id : RequestId) (waited : UInt64) :
    Outcome × Exchange :=
  match x.poll ticket with
  | (some (.ok data), x) => (.ok data, x)
  | (some (.error (.abandoned _)), x) | (none, x) => (.error (.timeout id waited), x)
  | (some (.error failure), x) => (.error failure, x)

/-- A request that was not answered in time is withdrawn. Its reply may have come between the two,
so the mailbox is asked once more before the timeout is reported. -/
def withdraw (x : Exchange) (ticket : Ticket) (id : RequestId) (waited : UInt64) :
    Outcome × Exchange :=
  lookAgain (x.cancel id).2 ticket id waited

/-- Waits on a ticket with the client's limit, and gives the ticket up. -/
def wait (client : Client) (x : Exchange) (ticket : Ticket) : Option Outcome × Exchange :=
  match client.limit with
  | none => x.wait ticket
  | some limit =>
    match x.waitFor ticket limit with
    | (some (.error (.timeout id waited)), x) =>
      let (outcome, x) := withdraw x ticket id waited
      (some outcome, x.discard ticket)
    | (some outcome, x) => (some outcome, x.discard ticket)
    | (none, x) => (none, x)

/-- Sends the command of a query, waits for its reply and takes the answer from it. -/
def ask (client : Client) (x : Exchange) (now : UInt64) (q : Query α) (handover : Handover) :
    Answer α × Exchange :=
  let (sent, x) := x.dispatchCommand now q.command handover
  let (outcome, x) := client.wait x sent.ticket
  ({ result := outcome.map (·.bind q.accept), frame := sent.frame, reports := sent.reports }, x)

/-- Asks a query, if there is one. -/
def call (client : Client) (x : Exchange) (now : UInt64) (q : Except Failure (Query α))
    (handover : Handover) : Answer α × Exchange :=
  match q with
  | .ok q => client.ask x now q handover
  | .error failure => (.unsent failure, x)

end Client

end Switchboard
