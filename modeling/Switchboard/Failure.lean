import Switchboard.RequestId
import Switchboard.Json.Printer

/-!
# Failures

The causes for which a request, a reply or a connection fails, and the message of each.
-/

namespace Switchboard

/-- How a peer, or a caller, breaks the rules of the wire. -/
inductive ProtocolFault where
  /-- A reply frame without the marker in front. -/
  | unmarkedFrame
  /-- A reply frame without an identifier. -/
  | missingId
  /-- A reply frame that ends after its identifier. -/
  | missingPayload (token : String)
  /-- A token that is not the canonical decimal of an identifier. -/
  | invalidId (token : String)
  /-- A reply that reports a failure and does not say which. -/
  | missingMessage (status : String)
  /-- A reply to an existence query that is no truth value. -/
  | notBoolean (data : Json)
  /-- A request that would not stay on one line. -/
  | lineBreak
  /-- Any other, in words. -/
  | other (text : String)

/-- The token in front of every frame. -/
def marker : String := "ID"

namespace ProtocolFault

def message : ProtocolFault → String
  | unmarkedFrame => "frame does not start with '" ++ marker ++ "'"
  | missingId => "frame has no identifier"
  | missingPayload token => "frame " ++ token ++ " has no payload"
  | invalidId token => "invalid request id '" ++ token ++ "'"
  | missingMessage status => "reply with status '" ++ status ++ "' has no message"
  | notBoolean data => "EXISTS returned non-boolean data: " ++ data.compact
  | lineBreak => "frame contains a line break and cannot be sent"
  | other text => text

end ProtocolFault

/-- Why something fails. -/
inductive Failure where
  /-- The operating system refuses. -/
  | io (text : String)
  /-- A JSON text or value is not what is wanted. -/
  | serialization (error : Json.ReadError)
  /-- The rules of the wire are broken. -/
  | protocol (fault : ProtocolFault)
  /-- The server reports a failure; its words are passed on untouched. -/
  | remote (text : String)
  /-- The connection is gone. -/
  | disconnected (reason : String)
  /-- No reply within the time allowed. -/
  | timeout (id : RequestId) (waited : UInt64)
  /-- The request was withdrawn, or its outcome was read before. -/
  | abandoned (id : RequestId)
  /-- The transport cannot take a frame. -/
  | network (text : String)
  /-- The configuration is of no use. -/
  | config (text : String)

/-- The outcome of a request: the data of the reply, or why there is none. -/
abbrev Outcome := Except Failure Json

/-- A 64-bit word in decimal. -/
def spellWord (n : UInt64) : String := String.ofList (Decimal.digits n.toNat)

namespace Failure

def message : Failure → String
  | io text => "IO error: " ++ text
  | serialization error => "Serialization error: " ++ error.category
  | protocol fault => "Protocol error: " ++ fault.message
  | remote text => text
  | disconnected reason => "Connection closed: " ++ reason
  | timeout id waited =>
    "Request " ++ id.token ++ " timed out after " ++ spellWord waited ++ " ms"
  | abandoned id => "Request " ++ id.token ++ " was abandoned before a reply arrived"
  | network text => "Network error: " ++ text
  | config text => "Configuration error: " ++ text

/-- The server's own words, if it was the server that failed. -/
def remoteMessage? : Failure → Option String
  | remote text => some text
  | _ => none

end Failure

namespace RequestId

/-- The identifier of a token, or the fault that names the token. -/
def ofToken (token : String) : Except Failure RequestId :=
  match ofToken? token with
  | some id => .ok id
  | none => .error (.protocol (.invalidId token))

end RequestId

end Switchboard
