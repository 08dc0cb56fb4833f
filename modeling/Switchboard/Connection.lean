import Switchboard.Config
import Switchboard.Lines

/-!
# Connections

A connection joins an exchange to a byte stream. Frames go out as lines, lines that come in go to
the exchange, and the end of the stream closes it.
-/

namespace Switchboard

/-- How a write fails. -/
structure WriteFault where
  /-- How many of the bytes that are due still go out. -/
  taken : Nat
  /-- How many of the others are kept, to go out in front of the next frame. -/
  kept : Nat
  /-- What the system says. -/
  text : String

/-- An exchange on a byte stream: the line that is coming in, whether anyone still listens to the
stream, all bytes written so far, and those that a failed write has left. -/
structure Connection where
  exchange : Exchange
  buffer : Lines.Buffer := {}
  listening : Bool := true
  written : List UInt8 := []
  unsent : List UInt8 := []

namespace Connection

/-- A stream that has just been connected. -/
def fresh (c : Config) : Connection := { exchange := c.exchange }

/-- Why the exchange closes when the peer stops sending. -/
def serverClosed : String := "server closed the connection"

/-- Why the exchange closes when the connection is shut down. -/
def shutDown : String := "connection shut down"

/-- Writes a line, after what is left from before. -/
def write (c : Connection) (line : List UInt8) (fault : Option WriteFault) : Connection :=
  let due := c.unsent ++ line
  match fault with
  | none => { c with written := c.written ++ due, unsent := [] }
  | some fault =>
    { c with
      written := c.written ++ due.take fault.taken
      unsent := (due.drop fault.taken).take fault.kept }

/-- How handing over a frame goes. What fits on one line is written, which may fail; the rest is refused
before any byte goes out. -/
def handover (frame : String) (fault : Option WriteFault) : Handover :=
  match Lines.encode frame with
  | .ok _ => { failure := fault.map fun fault => .io fault.text }
  | .error failure => { failure := some failure }

/-- Sends a request. -/
def dispatch (c : Connection) (now : UInt64) (verb : String) (arguments : List String)
    (fault : Option WriteFault := none) : Dispatched × Connection :=
  let frame := requestFrame (c.exchange.ids.peek now) verb arguments
  let (sent, exchange) := c.exchange.dispatch now verb arguments (handover frame fault)
  let c := { c with exchange }
  (sent,
    match sent.frame, Lines.encode frame with
    | some _, .ok line => c.write line fault
    | _, _ => c)

/-- Routes frames in order. -/
def receiveAll (x : Exchange) (frames : List String) : Exchange :=
  frames.foldl (fun x frame => (x.receive frame).2) x

/-- Bytes come in. -/
def receive (c : Connection) (bytes : List UInt8) : Connection :=
  if c.listening then
    let (frames, buffer) := c.buffer.feed bytes
    { c with exchange := receiveAll c.exchange frames, buffer }
  else c

/-- The stream ends. A last line without its newline still counts. -/
def endOfStream (c : Connection) : Connection :=
  if c.listening then
    let exchange := receiveAll c.exchange c.buffer.flush
    { c with exchange := (exchange.close serverClosed).2, buffer := {}, listening := false }
  else c

/-- The stream breaks. What has come in of a line is lost with it. -/
def breakOff (c : Connection) (reason : String) : Connection :=
  if c.listening then
    { c with exchange := (c.exchange.close reason).2, buffer := {}, listening := false }
  else c

/-- The caller ends the connection: first the exchange closes, then the stream ends. -/
def shutdown (c : Connection) : Connection :=
  { c with exchange := (c.exchange.close shutDown).2 }.endOfStream

end Connection

end Switchboard
