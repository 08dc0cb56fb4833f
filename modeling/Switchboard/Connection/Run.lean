import Switchboard.Connection
import Switchboard.Exchange.Run

/-!
# Runs of a connection

Callers send requests and look after them, the peer sends bytes, and the connection is ended from
either side or breaks, in any order and more than once.
-/

namespace Switchboard.Connection

/-- What the holder of a request does with it. -/
inductive Look where
  | poll
  | waitFor (limit : UInt64)
  | wait
  | discard

def Look.step (ticket : Ticket) : Look → Exchange.Step
  | .poll => .poll ticket
  | .waitFor limit => .waitFor ticket limit
  | .wait => .wait ticket
  | .discard => .discard ticket

/-- A step in the life of a connection. -/
inductive Step where
  /-- Send a request. The write of its frame may fail. -/
  | dispatch (now : UInt64) (verb : String) (arguments : List String)
    (fault : Option WriteFault := none)
  /-- Look after a request that was sent. -/
  | look (ticket : Ticket) (look : Look)
  /-- The peer sends bytes. -/
  | serve (bytes : List UInt8)
  /-- The peer stops sending. -/
  | hangUp
  /-- The caller ends the connection. -/
  | shutDown
  /-- Nothing more can be read from the stream. -/
  | breakOff (reason : String)

/-- Does one step. Only callers see anything of it. -/
def step (c : Connection) : Step → Option Exchange.Observation × Connection
  | .dispatch now verb arguments fault =>
    let (sent, c) := c.dispatch now verb arguments fault
    (some (.dispatched sent), c)
  | .look ticket look =>
    let (seen, exchange) := c.exchange.step (look.step ticket)
    (some seen, { c with exchange })
  | .serve bytes => (none, c.receive bytes)
  | .hangUp => (none, c.endOfStream)
  | .shutDown => (none, c.shutdown)
  | .breakOff reason => (none, c.breakOff reason)

/-- Does steps in order. -/
def run (c : Connection) : List Step → List (Option Exchange.Observation) × Connection
  | [] => ([], c)
  | s :: rest =>
    let (seen, c) := c.step s
    let (later, c) := c.run rest
    (seen :: later, c)

end Switchboard.Connection
