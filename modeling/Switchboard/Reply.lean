import Switchboard.Failure
import Switchboard.Json.Reader

/-!
# Replies

The payload of a reply is an envelope: an object with a status, and either data or a message, or an
array with the three in order. The envelope is read as it comes, field by field. Members may stand
in any order; a field that comes twice is refused as soon as its key is read, and members of other
names are passed over.
-/

namespace Switchboard

/-- What a member of an envelope is for. -/
inductive Slot where
  | status
  | data
  | message
  | other
  deriving DecidableEq, Repr

/-- The slot of a key. -/
def Slot.ofKey (key : String) : Slot :=
  if key = "status" then .status
  else if key = "data" then .data
  else if key = "message" then .message
  else .other

/-- The fields of an envelope; `none` for one that has not been read. -/
structure Envelope where
  status : Option String := none
  data : Option Json := none
  message : Option (Option String) := none

namespace Envelope

/-- Whether a slot has its value already. Other members are never kept. -/
def holds (e : Envelope) : Slot → Bool
  | .status => e.status.isSome
  | .data => e.data.isSome
  | .message => e.message.isSome
  | .other => false

/-- Puts a value into its slot, if it is of the kind that the slot takes. -/
def fill (e : Envelope) (slot : Slot) (v : Json) : Except Json.ReadError Envelope :=
  match slot, v with
  | .status, .string s => .ok { e with status := some s }
  | .data, v => .ok { e with data := some v }
  | .message, .string s => .ok { e with message := some (some s) }
  | .message, .null => .ok { e with message := some none }
  | .other, _ => .ok e
  | _, _ => .error .mismatched

end Envelope

/-- The two layouts of an envelope. -/
inductive Layout where
  | members
  | elements
  deriving DecidableEq, Repr

/-- An envelope being read. -/
inductive EnvelopeReader where
  /-- Before the first character that is not blank. -/
  | start
  /-- Inside a value that is no envelope, but may still turn out to be no JSON. -/
  | foreign (r : Json.Reader)
  /-- Just after the opening brace. -/
  | firstKey
  /-- After a comma between members. -/
  | nextKey (e : Envelope)
  /-- Inside a key. -/
  | key (e : Envelope) (q : Json.Quoted)
  /-- After the key of a slot. -/
  | colon (e : Envelope) (slot : Slot)
  /-- Just after the opening bracket. -/
  | firstElement
  /-- Before the value of a slot. -/
  | value (layout : Layout) (e : Envelope) (slot : Slot)
  /-- Inside the value of a slot. -/
  | reading (layout : Layout) (e : Envelope) (slot : Slot) (r : Json.Reader)
  /-- After the value of a slot. -/
  | after (layout : Layout) (e : Envelope) (slot : Slot)
  /-- After the end of the envelope. -/
  | closed (status : String) (e : Envelope)

namespace EnvelopeReader

open Json (Care ReadError isBlank)

/-- The value of any slot but the known three is passed over. -/
def careFor : Slot → Care
  | .other => .skip
  | _ => .keep

/-- How deep a value inside the envelope may nest; the envelope itself is one level. -/
def valueDepth : Nat := Json.greatestDepth - 1

/-- Whether a container is refused at once where the value of a slot starts. -/
def refusesContainers : Slot → Bool
  | .status | .message => true
  | .data | .other => false

/-- The first character of the value of a slot. -/
def startValue (layout : Layout) (e : Envelope) (slot : Slot) (c : Char) :
    Except ReadError EnvelopeReader :=
  if isBlank c then .ok (.value layout e slot)
  else if refusesContainers slot ∧ (c = '[' ∨ c = '{') then .error .mismatched
  else (Json.Reader.startValue (careFor slot) valueDepth [] c).map (.reading layout e slot)

/-- The end of the envelope. Without a status it is not of the wanted shape. -/
def close (e : Envelope) : Except ReadError EnvelopeReader :=
  match e.status with
  | some status => .ok (.closed status e)
  | none => .error .mismatched

/-- The slot of the element after that of a slot, if there is one. -/
def nextElement? : Slot → Option Slot
  | .status => some .data
  | .data => some .message
  | _ => none

/-- A character after the value of a slot: blank, a comma, or the end. -/
def afterValue (layout : Layout) (e : Envelope) (slot : Slot) (c : Char) :
    Except ReadError EnvelopeReader :=
  if isBlank c then .ok (.after layout e slot)
  else
    match layout with
    | .members =>
      if c = ',' then .ok (.nextKey e)
      else if c = '}' then close e
      else .error .malformed
    | .elements =>
      if c = ']' then close e
      else
        match nextElement? slot with
        | some next => if c = ',' then .ok (.value .elements e next) else .error .malformed
        | none => .error .malformed

/-- A key that has been read to its end. -/
def takeKey (e : Envelope) (name : String) : Except ReadError EnvelopeReader :=
  let slot := Slot.ofKey name
  if e.holds slot then .error .mismatched else .ok (.colon e slot)

/-- Reads one more character. -/
def step (s : EnvelopeReader) (c : Char) : Except ReadError EnvelopeReader :=
  match s with
  | .start =>
    if isBlank c then .ok .start
    else if c = '{' then .ok .firstKey
    else if c = '[' then .ok .firstElement
    else (Json.Reader.startValue .keep Json.greatestDepth [] c).map .foreign
  | .foreign r =>
    match r.step .keep Json.greatestDepth c with
    | .error e => .error e
    | .ok (.more r) => .ok (.foreign r)
    | .ok (.done _) | .ok (.before _) => .error .mismatched
  | .firstKey =>
    if isBlank c then .ok .firstKey
    else if c = '}' then close {}
    else if c = '"' then .ok (.key {} (.plain []))
    else .error .malformed
  | .nextKey e =>
    if isBlank c then .ok (.nextKey e)
    else if c = '"' then .ok (.key e (.plain []))
    else .error .malformed
  | .key e q =>
    match q.step .keep c with
    | .error problem => .error problem
    | .ok (.more q) => .ok (.key e q)
    | .ok (.done name) | .ok (.before name) => takeKey e name
  | .colon e slot =>
    if isBlank c then .ok (.colon e slot)
    else if c = ':' then .ok (.value .members e slot)
    else .error .malformed
  | .firstElement =>
    if isBlank c then .ok .firstElement
    else if c = ']' then .error .mismatched
    else startValue .elements {} .status c
  | .value layout e slot => startValue layout e slot c
  | .reading layout e slot r =>
    match r.step (careFor slot) valueDepth c with
    | .error problem => .error problem
    | .ok (.more r) => .ok (.reading layout e slot r)
    | .ok (.done v) => (e.fill slot v).map fun e => .after layout e slot
    | .ok (.before v) => (e.fill slot v).bind fun e => afterValue layout e slot c
  | .after layout e slot => afterValue layout e slot c
  | .closed status e => if isBlank c then .ok (.closed status e) else .error .malformed

/-- The end of the text. A value that is over by then is judged before the text is found to be too
short. -/
def finish : EnvelopeReader → Except ReadError (String × Envelope)
  | .closed status e => .ok (status, e)
  | .foreign r => (r.finish .keep).bind fun _ => .error .mismatched
  | .reading _ e slot r =>
    (r.finish (careFor slot)).bind fun v => (e.fill slot v).bind fun _ => .error .truncated
  | _ => .error .truncated

end EnvelopeReader

/-- Reads an envelope and its status from a text that holds nothing else. -/
def Envelope.read (text : String) : Except Json.ReadError (String × Envelope) :=
  (text.toList.foldlM EnvelopeReader.step .start).bind EnvelopeReader.finish

/-- A reply of the server. -/
inductive Reply where
  /-- The command was carried out; null when the server sent no data. -/
  | success (data : Json)
  /-- The command failed, in the server's words. -/
  | failure (text : String)

namespace Reply

/-- The status of a reply that reports success. -/
def successStatus : String := "success"

/-- What an envelope says. Any other status than that of success is a failure and needs a
message. -/
def ofEnvelope (status : String) (e : Envelope) : Except Failure Reply :=
  if status = successStatus then .ok (.success (e.data.getD .null))
  else
    match e.message with
    | some (some text) => .ok (.failure text)
    | _ => .error (.protocol (.missingMessage status))

/-- Reads the payload of a reply. -/
def read (payload : String) : Except Failure Reply :=
  match Envelope.read payload with
  | .ok (status, e) => ofEnvelope status e
  | .error problem => .error (.serialization problem)

/-- Whether the command was carried out. -/
def isSuccess : Reply → Bool
  | .success _ => true
  | .failure _ => false

/-- The outcome that a reply brings its request. -/
def outcome : Reply → Outcome
  | .success data => .ok data
  | .failure text => .error (.remote text)

end Reply

end Switchboard
