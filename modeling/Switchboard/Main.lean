import Std.Async.DNS
import Std.Async.TCP
import Std.Async.Timer
import Switchboard.CommandLine.Run
import Switchboard.Endpoint

/-!
# The program

The command line program on a real network. What is sent, and what a reply means, is decided
elsewhere; here bytes are moved, time is measured and the end of the run is reported.
-/

namespace Switchboard.Program

open Std.Async
open Std.Net (SocketAddress)

/-- A socket that is connected to a server. -/
abbrev Socket := TCP.Socket.Client

/-- The failure for an error of the operating system. -/
def failureOf (e : IO.Error) : Failure := .io (toString e)

/-- Runs an action whose errors are failures. -/
def guarded {α : Type} (action : IO α) : IO (Except Failure α) := do
  try return .ok (← action) catch e => return .error (failureOf e)

/-- Runs an action; `none` if it takes longer than the limit. -/
def within {α : Type} (limit : Option UInt64) (action : Async α) : IO (Option α) :=
  let timed : Async (Option α) := do return some (← action)
  match limit with
  | none => timed.block
  | some time =>
    let expired : Async (Option α) := do
      sleep (.ofNat time.toNat)
      return none
    (Async.race timed expired).block

/-- A host without the brackets that keep the colons of an address apart from the port. -/
def bareHost (host : String) : String :=
  match host.toList with
  | '[' :: rest => if rest.getLast? = some ']' then String.ofList rest.dropLast else host
  | _ => host

/-- The network of the machine. -/
def machine : Network IO SocketAddress Socket where
  resolve endpoint := guarded do
    let found ← (DNS.getAddrInfo (bareHost endpoint.host) (toString endpoint.port.toNat)).block
    return found.toList.map fun
      | .v4 addr => .v4 ⟨addr, endpoint.port⟩
      | .v6 addr => .v6 ⟨addr, endpoint.port⟩
  attempt limit address := do
    let connected ← guarded do
      let socket ← TCP.Socket.Client.mk
      let done ← within limit (socket.connect address)
      if done.isSome then socket.noDelay
      return done.map fun _ => socket
    return connected.bind fun
      | some socket => .ok socket
      | none => .error (.io "connection timed out")

/-- The clock, in milliseconds since the start of 1970. -/
def clock : IO UInt64 := do
  let now ← Std.Time.Timestamp.now
  return UInt64.ofNat now.toMillisecondsSinceUnixEpoch.val.toNat

/-- What is left of a limit, given when the wait began. -/
def remaining (limit : Option UInt64) (began : Nat) : IO (Option UInt64) := do
  let passed := (← IO.monoMsNow) - began
  return limit.map fun time => UInt64.ofNat (time.toNat - passed)

/-- Feeds what comes in to the connection until the request has an outcome, the stream ends or the
time is up. -/
def listen (socket : Socket) (limit : Option UInt64) (began : Nat) (ticket : Ticket)
    (c : Connection) : IO Connection := do
  let mut c := c
  repeat
    if (c.exchange.poll ticket).1.isSome then break
    let time ← remaining limit began
    if time = some 0 then break
    match ← guarded (within time (socket.recv? 65536)) with
    | .error failure => return c.breakOff failure.message
    | .ok none => break
    | .ok (some none) => return c.endOfStream
    | .ok (some (some bytes)) => c := c.receive bytes.toList
  return c

/-- Carries a plan out. -/
def carryOut (plan : CommandLine.Plan) : IO (Option CommandLine.Ending) := do
  match ← machine.connect plan.config with
  | .error failure => return some (.unreached plan.config failure)
  | .ok socket =>
    let (request, c) := plan.launch (← clock)
    let writing := if c.written.isEmpty then pure () else socket.send ⟨c.written.toArray⟩
    let c ←
      match ← guarded (within plan.config.writeLimit writing) with
      | .ok (some ()) =>
        listen socket plan.config.requestLimit (← IO.monoMsNow) request.ticket c
      | .ok none =>
        pure { c with exchange := c.exchange.reject request.id (.io "write timed out") }
      | .error failure => pure { c with exchange := c.exchange.reject request.id failure }
    return plan.conclude c request.ticket

/-- Reports the end of a run. -/
def report (ending : CommandLine.Ending) : IO UInt32 := do
  IO.print ending.output
  match ending.complaint with
  | some complaint => IO.eprintln ("ERROR " ++ CommandLine.program ++ ": " ++ complaint)
  | none => if ending.exitCode ≠ 0 then IO.eprintln CommandLine.helpText
  return UInt32.ofNat ending.exitCode

end Switchboard.Program

/-- Carries out one command on a document server. -/
def main (words : List String) : IO UInt32 := do
  match Switchboard.CommandLine.Plan.ofWords words with
  | .error ending => Switchboard.Program.report ending
  | .ok plan =>
    match ← Switchboard.Program.carryOut plan with
    | some ending => Switchboard.Program.report ending
    | none => return 1
