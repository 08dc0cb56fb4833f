import Switchboard.Exchange

/-!
# Runs of an exchange

The life of an exchange is a list of steps: callers send requests, look after them and let go of
them, and events come in from outside. A run keeps what each step shows.
-/

namespace Switchboard.Exchange

/-- A step in the life of an exchange. -/
inductive Step where
  /-- Send a request. -/
  | dispatch (now : UInt64) (verb : String) (arguments : List String) (handover : Handover)
  /-- Let an event happen. -/
  | event (e : Event)
  /-- Ask for an outcome without waiting. -/
  | poll (ticket : Ticket)
  /-- Wait for an outcome for a limited time in which nothing happens. -/
  | waitFor (ticket : Ticket) (limit : UInt64)
  /-- Wait for an outcome for as long as it takes. -/
  | wait (ticket : Ticket)
  /-- Let go of a request. -/
  | discard (ticket : Ticket)

/-- What a step shows. -/
inductive Observation where
  | dispatched (d : Dispatched)
  | reported (r : Report)
  /-- The outcome, or `none` if there is none yet. -/
  | outcome (o : Option Outcome)
  | discarded

/-- Does one step. -/
def step (x : Exchange) : Step → Observation × Exchange
  | .dispatch now verb arguments handover =>
    let (d, x) := x.dispatch now verb arguments handover
    (.dispatched d, x)
  | .event e =>
    let (r, x) := x.perform e
    (.reported r, x)
  | .poll ticket =>
    let (o, x) := x.poll ticket
    (.outcome o, x)
  | .waitFor ticket limit =>
    let (o, x) := x.waitFor ticket limit
    (.outcome o, x)
  | .wait ticket =>
    let (o, x) := x.wait ticket
    (.outcome o, x)
  | .discard ticket => (.discarded, x.discard ticket)

/-- Does steps in order. -/
def run (x : Exchange) : List Step → List Observation × Exchange
  | [] => ([], x)
  | s :: rest =>
    let (o, x) := x.step s
    let (os, x) := x.run rest
    (o :: os, x)

end Switchboard.Exchange
