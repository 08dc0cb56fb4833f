import Switchboard.Json.Numeral
import Switchboard.Json.Quoted

/-!
# Reading JSON

The reader takes a text one character at a time and keeps what it has read so far as a value, so the
first problem from the left is the one that is reported, and a text that is cut off shows as a
reader that is not finished. The containers that are still open form a stack, innermost first.
-/

namespace Switchboard.Json

/-- A container that waits for the value being read to become its next part. -/
inductive Frame where
  /-- An array with the items read so far, newest first. -/
  | item (items : List Json)
  /-- An object with the members read so far, and the key of the value being read. -/
  | member (members : List (String × Json)) (key : String)

/-- The three literal words. -/
inductive Word where
  | null
  | true
  | false
  deriving DecidableEq, Repr

namespace Word

def letters : Word → List Char
  | null => ['n', 'u', 'l', 'l']
  | true => ['t', 'r', 'u', 'e']
  | false => ['f', 'a', 'l', 's', 'e']

def value : Word → Json
  | null => .null
  | true => .bool .true
  | false => .bool .false

/-- The word that starts with a letter. -/
def start? (c : Char) : Option Word :=
  if c = 'n' then some null
  else if c = 't' then some true
  else if c = 'f' then some false
  else none

end Word

/-- Where the reader stands inside the innermost open container. -/
inductive Focus where
  /-- A value has to start here. -/
  | value
  /-- Just after an opening bracket: a first item or the end. -/
  | firstItem
  /-- After an item: a comma or the end. -/
  | afterItem (items : List Json)
  /-- Just after an opening brace: a first key or the end. -/
  | firstKey
  /-- After a comma in an object: a key. -/
  | nextKey (members : List (String × Json))
  /-- Inside a key. -/
  | key (members : List (String × Json)) (q : Quoted)
  /-- After a key: a colon. -/
  | colon (members : List (String × Json)) (name : String)
  /-- After a member: a comma or the end. -/
  | afterMember (members : List (String × Json))
  /-- Inside a string. -/
  | quoted (q : Quoted)
  /-- Inside a numeral. -/
  | numeral (n : Numeral)
  /-- Inside a word, with the letters still to come. -/
  | word (w : Word) (rest : List Char)

/-- A reader of one value. -/
structure Reader where
  stack : List Frame
  focus : Focus

/-- How deep arrays and objects may nest. -/
def greatestDepth : Nat := 127

namespace Reader

/-- Before the first character of a value. -/
def fresh : Reader := ⟨[], .value⟩

/-- What a container looks like once it has its next part. -/
def accept (v : Json) : Frame → Focus
  | .item items => .afterItem (v :: items)
  | .member members key => .afterMember (insertMember key v members)

/-- Hands a finished value to the container that waits for it, or out if there is none. -/
def deliver (v : Json) : List Frame → Progress Reader Json
  | [] => .done v
  | frame :: stack => .more ⟨stack, accept v frame⟩

/-- The value of a finished numeral. A numeral that is passed over has no value worth keeping. -/
def numeralValue (care : Care) (n : Numeral) : Except ReadError Json :=
  match care with
  | .skip => .ok .null
  | .keep =>
    match n.value? with
    | some v => .ok (.number v)
    | none => .error .malformed

/-- The first character of a value that stands inside the containers of `stack`. Containers may
nest `depth` deep, unless they are passed over. -/
def startValue (care : Care) (depth : Nat) (stack : List Frame) (c : Char) :
    Except ReadError Reader :=
  if isBlank c then .ok ⟨stack, .value⟩
  else if c = '"' then .ok ⟨stack, .quoted (.plain [])⟩
  else if c = '[' ∨ c = '{' then
    if care = .keep ∧ depth ≤ stack.length then .error .malformed
    else .ok ⟨stack, if c = '[' then .firstItem else .firstKey⟩
  else
    match Word.start? c, Numeral.start? c with
    | some w, _ => .ok ⟨stack, .word w w.letters.tail⟩
    | none, some n => .ok ⟨stack, .numeral n⟩
    | none, none => .error .malformed

/-- A character directly after a part of a container: blank, a comma, or the end of it. -/
def afterPart (stack : List Frame) (focus : Focus) (c : Char) :
    Except ReadError (Progress Reader Json) :=
  if isBlank c then .ok (.more ⟨stack, focus⟩)
  else
    match focus with
    | .afterItem items =>
      if c = ',' then .ok (.more ⟨.item items :: stack, .value⟩)
      else if c = ']' then .ok (deliver (.array items.reverse) stack)
      else .error .malformed
    | .afterMember members =>
      if c = ',' then .ok (.more ⟨stack, .nextKey members⟩)
      else if c = '}' then .ok (deliver (.object members) stack)
      else .error .malformed
    | _ => .error .malformed

/-- Reads one more character. -/
def step (care : Care) (depth : Nat) (r : Reader) (c : Char) :
    Except ReadError (Progress Reader Json) :=
  match r.focus with
  | .value => (startValue care depth r.stack c).map .more
  | .firstItem =>
    if isBlank c then .ok (.more r)
    else if c = ']' then .ok (deliver (.array []) r.stack)
    else (startValue care depth (.item [] :: r.stack) c).map .more
  | .firstKey =>
    if isBlank c then .ok (.more r)
    else if c = '}' then .ok (deliver (.object []) r.stack)
    else if c = '"' then .ok (.more ⟨r.stack, .key [] (.plain [])⟩)
    else .error .malformed
  | .nextKey members =>
    if isBlank c then .ok (.more r)
    else if c = '"' then .ok (.more ⟨r.stack, .key members (.plain [])⟩)
    else .error .malformed
  | .key members q =>
    (q.step care c).map fun
      | .more q => .more ⟨r.stack, .key members q⟩
      | .done name | .before name => .more ⟨r.stack, .colon members name⟩
  | .colon members name =>
    if isBlank c then .ok (.more r)
    else if c = ':' then .ok (.more ⟨.member members name :: r.stack, .value⟩)
    else .error .malformed
  | .afterItem items => afterPart r.stack (.afterItem items) c
  | .afterMember members => afterPart r.stack (.afterMember members) c
  | .quoted q =>
    (q.step care c).map fun
      | .more q => .more ⟨r.stack, .quoted q⟩
      | .done s | .before s => deliver (.string s) r.stack
  | .word w rest =>
    match rest with
    | [] => .error .malformed
    | l :: rest =>
      if c ≠ l then .error .malformed
      else if rest.isEmpty then .ok (deliver w.value r.stack)
      else .ok (.more ⟨r.stack, .word w rest⟩)
  | .numeral n =>
    match n.step c with
    | .error e => .error e
    | .ok (.more n) => .ok (.more ⟨r.stack, .numeral n⟩)
    | .ok (.done n) | .ok (.before n) =>
      match numeralValue care n with
      | .error e => .error e
      | .ok v =>
        match r.stack with
        | [] => .ok (.before v)
        | frame :: stack => afterPart stack (accept v frame) c

/-- The end of the text. Only a numeral that stands alone can end here. A numeral that breaks off is
noticed as an unfinished text when it is kept, and as a wrong one when it is passed over. -/
def finish (care : Care) (r : Reader) : Except ReadError Json :=
  match r.focus with
  | .numeral n =>
    if n.isComplete then
      match numeralValue care n with
      | .error e => .error e
      | .ok v => if r.stack.isEmpty then .ok v else .error .truncated
    else
      match care with
      | .keep => .error .truncated
      | .skip => .error .malformed
  | _ => .error .truncated

end Reader

/-- A text being read that holds one value and nothing else. -/
inductive Document where
  | reading (r : Reader)
  | complete (v : Json)

namespace Document

/-- After the value only blanks may follow. -/
def trail (v : Json) (c : Char) : Except ReadError Document :=
  if isBlank c then .ok (.complete v) else .error .malformed

/-- Reads one more character. -/
def step (depth : Nat) : Document → Char → Except ReadError Document
  | .reading r, c =>
    match r.step .keep depth c with
    | .error e => .error e
    | .ok (.more r) => .ok (.reading r)
    | .ok (.done v) => .ok (.complete v)
    | .ok (.before v) => trail v c
  | .complete v, c => trail v c

/-- The end of the text. -/
def finish : Document → Except ReadError Json
  | .reading r => r.finish .keep
  | .complete v => .ok v

end Document

/-- Reads a text that holds one value, with blanks around it and nothing else. -/
def read (text : String) : Except ReadError Json :=
  (text.toList.foldlM (Document.step greatestDepth) (.reading .fresh)).bind Document.finish

end Switchboard.Json
