import Switchboard.Config
import Switchboard.Cut

/-!
# Endpoints

A server is named by a host and a port with a colon between them. The host stands for any number of
addresses, and a connection goes to the first of them that answers.
-/

namespace Switchboard

/-- A host and a port on it. -/
structure Endpoint where
  host : String
  port : UInt16
  deriving DecidableEq, Repr

namespace Endpoint

/-- Why a text names no endpoint. -/
inductive Fault where
  /-- There is no colon in it. -/
  | missingPort
  /-- What follows the last colon is no port. -/
  | invalidPort
  /-- The host cannot be looked up, for it has a NUL in it. -/
  | invalidHost
  deriving DecidableEq, Repr

def Fault.message : Fault → String
  | missingPort => "invalid socket address"
  | invalidPort => "invalid port value"
  | invalidHost => "file name contained an unexpected NUL byte"

/-- The endpoint of a text. The last colon counts, since an address in the host may have colons of
its own. -/
def ofText (text : String) : Except Fault Endpoint :=
  match cutAtLast ':' text.toList with
  | none => .error .missingPort
  | some (host, port) =>
    match Decimal.readBelow? UInt16.size port with
    | none => .error .invalidPort
    | some port =>
      if host.contains '\x00' then .error .invalidHost
      else .ok ⟨String.ofList host, UInt16.ofNat port⟩

end Endpoint

/-- What connecting needs of the outside world. -/
structure Network (m : Type → Type) (Address Stream : Type) where
  /-- The addresses of an endpoint. -/
  resolve : Endpoint → m (Except Failure (List Address))
  /-- One attempt to connect, within a time limit if there is one. -/
  attempt : Option UInt64 → Address → m (Except Failure Stream)

namespace Network

variable {m : Type → Type} [Monad m] {Address Stream : Type}

/-- Tries addresses in turn. If none answers, the last failure stands. -/
def firstReached (attempt : Address → m (Except Failure Stream)) (last : Failure) :
    List Address → m (Except Failure Stream)
  | [] => pure (.error last)
  | address :: rest => do
    match ← attempt address with
    | .ok stream => pure (.ok stream)
    | .error failure => firstReached attempt failure rest

/-- The failure to connect to a host without addresses. -/
def noAddress (c : Config) : Failure :=
  match c.connectLimit with
  | some _ => .config ("address '" ++ c.serverAddress ++ "' resolved to nothing")
  | none => .io "could not resolve to any addresses"

/-- Connects to the server of a configuration. -/
def connect (net : Network m Address Stream) (c : Config) : m (Except Failure Stream) :=
  match Endpoint.ofText c.serverAddress with
  | .error fault => pure (.error (.io fault.message))
  | .ok endpoint => do
    match ← net.resolve endpoint with
    | .error failure => pure (.error failure)
    | .ok addresses => firstReached (net.attempt c.connectLimit) (noAddress c) addresses

end Network

end Switchboard
