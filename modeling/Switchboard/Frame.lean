import Switchboard.Command
import Switchboard.Cut
import Switchboard.Reply

/-!
# Frames

A request frame is the marker, the identifier, the verb and the arguments, with single blanks
between them. A reply frame is the marker, an identifier token and a payload, which is all that
stands after the second blank and keeps its own blanks.
-/

namespace Switchboard

/-- The frame of a request. -/
def requestFrame (id : RequestId) (verb : String) (arguments : List String) : String :=
  marker ++ " " ++ id.token ++ " " ++ spellRequest verb arguments

/-- The frame of a command. -/
def Command.frame (id : RequestId) (c : Command) : String :=
  requestFrame id c.verb.token c.arguments

/-- A reply frame in its two parts. -/
structure ReplyFrame where
  token : String
  payload : String
  deriving DecidableEq, Repr

namespace ReplyFrame

/-- Cuts a reply frame into its parts. The token is not checked yet. -/
def split (frame : String) : Except Failure ReplyFrame :=
  let (front, afterMarker) := cutAt ' ' frame.toList
  if front ≠ marker.toList then .error (.protocol .unmarkedFrame)
  else
    match afterMarker with
    | none => .error (.protocol .missingId)
    | some rest =>
      let (token, payload) := cutAt ' ' rest
      if token = [] then .error (.protocol .missingId)
      else
        match payload with
        | none => .error (.protocol (.missingPayload (String.ofList token)))
        | some payload => .ok ⟨String.ofList token, String.ofList payload⟩

/-- Cuts a reply frame and reads its payload. -/
def decode (frame : String) : Except Failure (String × Reply) :=
  match split frame with
  | .error e => .error e
  | .ok f => (Reply.read f.payload).map fun reply => (f.token, reply)

end ReplyFrame

end Switchboard
