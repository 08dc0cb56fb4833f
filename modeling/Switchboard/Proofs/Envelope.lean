import Switchboard.Reply
import Switchboard.Proofs.Json.Taking
import Switchboard.Proofs.Reply

/-! # The envelope is read by its fields

How an envelope is laid out does not matter: its members may stand in any order and with any blanks
between them, members of other names may stand among them, and the fields may stand in an array
instead. What it says is what its fields say, and it is refused if there is no status or if a field
comes twice.
-/

namespace Switchboard

open Json (Blank Body BringsQuoted IsQuoted Padded ReadError Takes WellFormed isBlank)

/-- What a member of an envelope says. -/
inductive Field where
  | status (s : String)
  | data (v : Json)
  /-- A message, which may be null. -/
  | message (m : Option String)
  /-- A member that is passed over, by its key. -/
  | other (key : String)

/-- A text that by itself reads as a string. -/
def Spells (cs : List Char) (s : String) : Prop :=
  IsQuoted cs ∧ Json.read (String.ofList cs) = .ok (.string s)

namespace Field

def slot : Field → Slot
  | status _ => .status
  | data _ => .data
  | message _ => .message
  | other _ => .other

def key : Field → String
  | status _ => "status"
  | data _ => "data"
  | message _ => "message"
  | other key => key

/-- A way to write the value of a field. The data by itself reads as the value and nests at most 126
deep, as the envelope is a level of its own. A value that is passed over only has to follow the
grammar. -/
def Written : Field → List Char → Prop
  | status s, cs => Spells cs s
  | data v, cs => WellFormed EnvelopeReader.valueDepth cs ∧ Json.read (String.ofList cs) = .ok v
  | message (some m), cs => Spells cs m
  | message none, cs => cs = Json.Word.null.letters
  | other key, cs => key ∉ ["status", "data", "message"] ∧ ∃ depth, WellFormed depth cs

def status? : Field → Option String
  | status s => some s
  | _ => none

def data? : Field → Option Json
  | data v => some v
  | _ => none

def message? : Field → Option (Option String)
  | message m => some m
  | _ => none

/-- The envelope with a field put in. -/
def into (e : Envelope) : Field → Envelope
  | status s => { e with status := some s }
  | data v => { e with data := some v }
  | message m => { e with message := some m }
  | other _ => e

def put (e : Envelope) (f : Field) : Except ReadError Envelope :=
  if e.holds f.slot then .error .mismatched else .ok (f.into e)

end Field

/-- A field with a text for its value. -/
structure Entry where
  field : Field
  value : Padded
  written : field.Written value.core

/-- An entry with a text for its key. -/
structure Member where
  key : Padded
  entry : Entry
  named : Spells key.core entry.field.key

def Member.text (m : Member) : List Char := m.key.text ++ ':' :: m.entry.value.text

/-- The two layouts of an envelope: an object with the entries in any order, or an array with the three
fields in order, where trailing ones may be missing. -/
inductive LaysOut : List Entry → List Char → Prop
  | members {members : List Member} {body : List Char} (written : Body (members.map Member.text) body) :
      LaysOut (members.map Member.entry) ('\x7b' :: (body ++ ['\x7d']))
  | elements {entries : List Entry} {body : List Char}
      (ordered : entries.map (·.field.slot) <+: [.status, .data, .message])
      (written : Body (entries.map (·.value.text)) body) : LaysOut entries ('[' :: (body ++ [']']))

section Values

variable {cs : List Char} {s : String} {f : Field}

theorem Spells.brings (spells : Spells cs s) : BringsQuoted .keep cs (.ok s) := by
  obtain ⟨is, reads⟩ := spells
  obtain ⟨name, -, brings⟩ := is.brings .keep
  have same := Json.read_of_takes (Json.takes_quoted brings)
  rw [reads] at same
  cases name with
  | error problem => simp [Except.map] at same
  | ok t =>
      obtain rfl : s = t := by simpa [Except.map] using same
      exact brings

theorem Spells.quote (s : String) : Spells (Json.quote s) s :=
  ⟨Json.isQuoted_quote s, Json.read_of_takes (Json.takes_quoted (Json.bringsQuoted_quote s))⟩

/-- The value of a field is one that its slot takes. -/
structure Fills (f : Field) (cs : List Char) (v : Json) : Prop where
  takes : Takes (EnvelopeReader.careFor f.slot) EnvelopeReader.valueDepth [] cs (.ok v)
  fill : ∀ e : Envelope, e.fill f.slot v = .ok (f.into e)
  starts : EnvelopeReader.StartsValue f.slot cs

theorem Field.Written.fills (written : f.Written cs) : ∃ v, Fills f cs v := by
  match f with
  | .status s | .message (some s) =>
      obtain ⟨rest, rfl, brings⟩ := Spells.brings written
      exact ⟨.string s, Json.takes_quoted ⟨rest, rfl, brings⟩, fun _ => rfl,
        ⟨_, _, rfl, by decide, by decide, fun _ => by decide⟩⟩
  | .message none =>
      obtain rfl : cs = Json.Word.null.letters := written
      exact ⟨.null, Json.takes_word .null, fun _ => rfl,
        ⟨_, _, rfl, by decide, by decide, fun _ => by decide⟩⟩
  | .data v =>
      obtain ⟨formed, reads⟩ := written
      -- The reader inside the envelope has a level less, and what it makes of the text is the same.
      obtain ⟨outcome, -, takes⟩ := formed.takes .keep
      have whole := takes Json.greatestDepth [] fun _ => by
        simp [EnvelopeReader.valueDepth, Json.greatestDepth]
      rw [Json.read_of_takes whole] at reads
      obtain ⟨c, rest, spelled, blank, other⟩ := formed.opening
      refine ⟨v, reads ▸ takes EnvelopeReader.valueDepth [] fun _ => by simp, fun _ => rfl, ?_⟩
      exact ⟨c, rest, spelled, blank, other, nofun⟩
  | .other key =>
      obtain ⟨-, depth, formed⟩ := written
      obtain ⟨outcome, passes, takes⟩ := formed.takes .skip
      obtain ⟨v, rfl⟩ := passes rfl
      obtain ⟨c, rest, spelled, blank, other⟩ := formed.opening
      exact ⟨v, takes _ [] nofun, fun _ => rfl, ⟨c, rest, spelled, blank, other, nofun⟩⟩

end Values

namespace EnvelopeReader

variable {e : Envelope} {layout : Layout} {slot : Slot} {r s : EnvelopeReader} {f : Field}
  {cs gap : List Char}

theorem foldlM_blank (loops : ∀ c, isBlank c → step r c = .ok r) (blank : Blank gap) :
    gap.foldlM step r = .ok r := by
  induction gap with
  | nil => rfl
  | cons c gap ih =>
      obtain ⟨first, later⟩ := List.forall_mem_cons.mp blank
      rw [List.foldlM_cons, loops c first]
      exact ih later

theorem foldlM_append_of_error {problem : ReadError} {front back : List Char}
    (first : front.foldlM step r = .error problem) : (front ++ back).foldlM step r = .error problem := by
  rw [List.foldlM_append, first]
  rfl

/-- A state in which the value of a slot may start. -/
structure Awaits (r : EnvelopeReader) (layout : Layout) (e : Envelope) (slot : Slot) : Prop where
  loops : ∀ c, isBlank c → step r c = .ok r
  starts : ∀ c, isBlank c = false → c ≠ ']' → step r c = step (.value layout e slot) c

theorem awaits_value : Awaits (.value layout e slot) layout e slot where
  loops := fun c blank => by simp [step, startValue, blank]
  starts := fun _ _ _ => rfl

theorem awaits_firstElement : Awaits .firstElement .elements {} .status where
  loops := fun c blank => by simp [step, blank]
  starts := fun c blank other => by simp [step, blank, other]

theorem afterValue_blank {c : Char} (blank : isBlank c) :
    afterValue layout e slot c = .ok (.after layout e slot) := by
  simp only [afterValue, blank, if_true]

theorem foldlM_entry (entry : Entry) (awaits : Awaits r layout e entry.field.slot) :
    ∃ s, entry.value.text.foldlM step r = .ok s ∧
      Stands s layout (entry.field.into e) entry.field.slot := by
  obtain ⟨v, fills⟩ := entry.written.fills
  obtain ⟨c, rest, spelled, blank, other, -⟩ := fills.starts
  obtain ⟨s, core, stands⟩ : ∃ s, entry.value.core.foldlM step r = .ok s ∧
      Stands s layout (entry.field.into e) entry.field.slot := by
    rw [spelled, List.foldlM_cons, awaits.starts c blank other, ← List.foldlM_cons, ← spelled]
    exact foldlM_value fills.starts fills.takes (fills.fill e)
  rw [Padded.text, foldlM_append_of_ok (foldlM_blank awaits.loops entry.value.blankBefore),
    foldlM_append_of_ok core]
  -- A numeral is only over with the first character after it, so the first blank is apart.
  have blankAfter := entry.value.blankAfter
  cases after : entry.value.after with
  | nil => exact ⟨s, rfl, stands⟩
  | cons d gap =>
      rw [after] at blankAfter
      obtain ⟨ends, later⟩ := List.forall_mem_cons.mp blankAfter
      refine ⟨.after layout (entry.field.into e) entry.field.slot, ?_, fun c _ => rfl⟩
      rw [List.foldlM_cons, stands d (Json.Numeral.endsAt_of_isBlank ends), afterValue_blank ends]
      exact foldlM_blank (fun c blank => afterValue_blank blank) later

/-- A state in which a key may start. -/
structure AwaitsKey (r : EnvelopeReader) (e : Envelope) : Prop where
  loops : ∀ c, isBlank c → step r c = .ok r
  starts : step r '"' = .ok (.key e (.plain []))

theorem awaitsKey_firstKey : AwaitsKey .firstKey {} where
  loops := fun c blank => by simp [step, blank]
  starts := rfl

theorem awaitsKey_nextKey : AwaitsKey (.nextKey e) e where
  loops := fun c blank => by simp [step, blank]
  starts := rfl

/-- A key is judged as soon as it is over. -/
theorem foldlM_key {key : Padded} {name : String} (awaits : AwaitsKey r e)
    (spells : Spells key.core name) :
    key.text.foldlM step r =
      if e.holds (Slot.ofKey name) then .error .mismatched else .ok (.colon e (Slot.ofKey name)) := by
  obtain ⟨rest, quoted, brings⟩ := spells.brings
  rw [Padded.text, foldlM_append_of_ok (foldlM_blank awaits.loops key.blankBefore), quoted]
  generalize outcome : Except.ok name = result at brings
  cases brings with
  | @ends front q t moves ended =>
      obtain rfl := Except.ok.inj outcome
      have inside : front.foldlM step (.key e (.plain [])) = .ok (.key e q) :=
        moves.foldlM (fun q => EnvelopeReader.key e q) fun takes => by simp only [step, takes]
      have over_ : step (.key e q) '"' = takeKey e name := by simp only [step, ended]
      have opened : ('"' :: front).foldlM step r = .ok (.key e q) := by
        rw [List.foldlM_cons, awaits.starts]
        exact inside
      -- A slot that has its value refuses the key here, before the blanks and whatever follows them.
      rw [← List.cons_append, List.append_assoc, foldlM_append_of_ok opened, List.singleton_append,
        List.foldlM_cons, over_, takeKey]
      split
      · rfl
      · exact foldlM_blank (fun c blank => by simp [step, blank]) key.blankAfter
  | faulty => contradiction

theorem ofKey_key (entry : Entry) : Slot.ofKey entry.field.key = entry.field.slot := by
  obtain ⟨field, value, written⟩ := entry
  cases field with
  | status | data | message => rfl
  | other key =>
      have apart := written.1
      simp only [List.mem_cons, List.not_mem_nil, or_false, not_or] at apart
      obtain ⟨status, data, message⟩ := apart
      simp [Field.key, Field.slot, Slot.ofKey, status, data, message]

/-- A member puts its field in, or is refused by its key. -/
theorem foldlM_member (m : Member) (awaits : AwaitsKey r e) :
    match m.entry.field.put e with
    | .error problem => m.text.foldlM step r = .error problem
    | .ok e' => ∃ s, m.text.foldlM step r = .ok s ∧ Stands s .members e' m.entry.field.slot := by
  have key := foldlM_key awaits m.named
  rw [ofKey_key] at key
  rw [Field.put, Member.text, List.foldlM_append, key]
  by_cases twice : e.holds m.entry.field.slot
  · simp only [if_pos twice]
    rfl
  · simp only [if_neg twice]
    exact foldlM_entry m.entry awaits_value

/-- Members put their fields in one after the other, from where the first one may start to the closing
brace. -/
theorem foldlM_members {members : List Member} (filled : members ≠ []) (awaits : AwaitsKey r e) :
    ([','].intercalate (members.map Member.text) ++ ['\x7d']).foldlM step r =
      ((members.map (·.entry.field)).foldlM Field.put e).bind close := by
  induction members generalizing r e with
  | nil => contradiction
  | cons m rest ih =>
      have first := foldlM_member m awaits
      rw [List.map_cons, List.map_cons, List.foldlM_cons]
      cases put : m.entry.field.put e with
      | error problem =>
          -- The key comes a second time, and what stands behind it is not looked at.
          rw [put] at first
          cases rest with
          | nil =>
              rw [List.map_nil, List.intercalate_singleton]
              exact foldlM_append_of_error first
          | cons n rest =>
              rw [List.map_cons, List.intercalate_cons_cons, List.append_assoc, List.append_assoc]
              exact foldlM_append_of_error first
      | ok e' =>
          rw [put] at first
          obtain ⟨s, reads, stands⟩ := first
          cases rest with
          | nil =>
              have ended : step s '\x7d' = close e' := stands '\x7d' (by simp [Json.Numeral.EndsAt])
              rw [List.map_nil, List.intercalate_singleton, foldlM_append_of_ok reads, foldlM_singleton,
                ended]
              rfl
          | cons n rest =>
              have comma : step s ',' = .ok (.nextKey e') := stands ',' (by simp [Json.Numeral.EndsAt])
              rw [List.map_cons, List.intercalate_cons_cons, List.append_assoc, List.append_assoc,
                foldlM_append_of_ok reads, List.singleton_append, List.foldlM_cons, comma]
              exact ih (List.cons_ne_nil n rest) awaitsKey_nextKey

theorem foldlM_element {entry : Entry} {next : Slot} (awaits : Awaits r .elements e entry.field.slot)
    (follows : nextElement? entry.field.slot = some next) (rest : List Char) :
    (entry.value.text ++ ([','] ++ rest)).foldlM step r =
      rest.foldlM step (.value .elements (entry.field.into e) next) := by
  obtain ⟨s, reads, stands⟩ := foldlM_entry entry awaits
  have comma : step s ',' = .ok (.value .elements (entry.field.into e) next) := by
    rw [stands ',' (by simp [Json.Numeral.EndsAt])]
    simp [afterValue, isBlank, follows]
  rw [foldlM_append_of_ok reads, List.singleton_append, List.foldlM_cons, comma]
  rfl

theorem foldlM_lastElement {entry : Entry} (awaits : Awaits r .elements e entry.field.slot) :
    (entry.value.text ++ [']']).foldlM step r = close (entry.field.into e) := by
  obtain ⟨s, reads, stands⟩ := foldlM_entry entry awaits
  rw [foldlM_append_of_ok reads, foldlM_singleton, stands ']' (by simp [Json.Numeral.EndsAt])]
  simp [afterValue, isBlank]

theorem holds_into {f : Field} (e : Envelope) (apart : f.slot ≠ slot) :
    (f.into e).holds slot = e.holds slot := by
  cases f <;> cases slot <;> first | rfl | contradiction

theorem put_into {f : Field} (room : e.holds f.slot = false) : f.put e = .ok (f.into e) := by
  simp [Field.put, room]

/-- The slots of an array from one on. -/
def slotsFrom : Slot → List Slot
  | .status => [.status, .data, .message]
  | .data => [.data, .message]
  | .message => [.message]
  | .other => []

theorem slotsFrom_cons {rest : List Slot} (filled : rest ≠ []) (ordered : rest <+: (slotsFrom slot).tail) :
    ∃ next, nextElement? slot = some next ∧ (slotsFrom slot).tail = slotsFrom next ∧
      slot ∉ slotsFrom next := by
  cases slot with
  | status => exact ⟨.data, rfl, rfl, by decide⟩
  | data => exact ⟨.message, rfl, rfl, by decide⟩
  | message | other => exact absurd (List.prefix_nil.mp ordered) filled

theorem foldlM_elements {entries : List Entry} (filled : entries ≠ [])
    (ordered : entries.map (·.field.slot) <+: slotsFrom slot) (awaits : Awaits r .elements e slot)
    (unset : ∀ t ∈ slotsFrom slot, e.holds t = false) :
    ([','].intercalate (entries.map (·.value.text)) ++ [']']).foldlM step r =
      ((entries.map Entry.field).foldlM Field.put e).bind close := by
  induction entries generalizing r e slot with
  | nil => contradiction
  | cons a rest ih =>
      obtain ⟨rfl, more, later⟩ : a.field.slot = slot ∧
          a.field.slot ∈ slotsFrom slot ∧ rest.map (·.field.slot) <+: (slotsFrom slot).tail := by
        cases slot <;> simp_all [slotsFrom, List.cons_prefix_cons]
      rw [List.map_cons, List.map_cons, List.foldlM_cons, put_into (unset _ more)]
      cases rest with
      | nil =>
          rw [List.map_nil, List.intercalate_singleton]
          exact foldlM_lastElement awaits
      | cons b rest =>
          obtain ⟨next, follows, tail, apart⟩ := slotsFrom_cons (by simp) later
          rw [List.map_cons, List.intercalate_cons_cons, List.append_assoc, List.append_assoc,
            foldlM_element awaits follows]
          refine ih (List.cons_ne_nil b rest) (tail ▸ later) awaits_value ?_
          intro t member
          rw [holds_into e (fun same => apart (same ▸ member))]
          exact unset t (List.mem_of_mem_tail (tail ▸ member))

/-- An envelope in either layout says what its fields make of it, one after the other. -/
theorem foldlM_laysOut {entries : List Entry} (laid : LaysOut entries cs) :
    cs.foldlM step .start = ((entries.map Entry.field).foldlM Field.put {}).bind close := by
  cases laid with
  | @members members body written =>
      rw [List.map_map, List.foldlM_cons]
      change (body ++ ['\x7d']).foldlM step .firstKey = _
      rcases written with ⟨none, blank⟩ | ⟨filled, rfl⟩
      · rw [List.map_eq_nil_iff.mp none, foldlM_append_of_ok (foldlM_blank awaitsKey_firstKey.loops blank)]
        rfl
      · exact foldlM_members (mt List.map_eq_nil_iff.mpr filled) awaitsKey_firstKey
  | @elements _ body ordered written =>
      rw [List.foldlM_cons]
      change (body ++ [']']).foldlM step .firstElement = _
      rcases written with ⟨none, blank⟩ | ⟨filled, rfl⟩
      · rw [List.map_eq_nil_iff.mp none,
          foldlM_append_of_ok (foldlM_blank awaits_firstElement.loops blank)]
        rfl
      · have unset : ∀ t ∈ slotsFrom .status, ({} : Envelope).holds t = false := by decide
        refine foldlM_elements (mt List.map_eq_nil_iff.mpr filled) ?_ awaits_firstElement unset
        exact ordered

end EnvelopeReader

theorem Envelope.read_laysOut {entries : List Entry} {whole : Padded} (laid : LaysOut entries whole.core) :
    read (String.ofList whole.text) =
      ((entries.map Entry.field).foldlM Field.put {}).bind fun e =>
        match e.status with
        | some status => .ok (status, e)
        | none => .error .mismatched := by
  have front := EnvelopeReader.foldlM_blank (r := .start)
    (fun c blank => by simp [EnvelopeReader.step, blank]) whole.blankBefore
  rw [read, String.toList_ofList, Padded.text, EnvelopeReader.foldlM_append_of_ok front,
    List.foldlM_append, EnvelopeReader.foldlM_laysOut laid]
  cases (entries.map Entry.field).foldlM Field.put {} with
  | error problem => rfl
  | ok e =>
      cases status : e.status with
      | none => simp [Except.bind, EnvelopeReader.close, status, bind]
      | some name =>
          have trailing := EnvelopeReader.foldlM_blank (r := .closed name e)
            (fun c blank => by simp [EnvelopeReader.step, blank]) whole.blankAfter
          simp [Except.bind, EnvelopeReader.close, status, bind, trailing, EnvelopeReader.finish]

section Counting

variable {fields : List Field}

/-- What stands in the fields of each kind, in order. -/
def statuses (fields : List Field) : List String := fields.filterMap Field.status?

def datas (fields : List Field) : List Json := fields.filterMap Field.data?

def messages (fields : List Field) : List (Option String) := fields.filterMap Field.message?

/-- Fields are put in just if none of the three comes twice. -/
theorem foldlM_put (fields : List Field) (e : Envelope) :
    fields.foldlM Field.put e =
      if (e.status.toList ++ statuses fields).length ≤ 1 ∧ (e.data.toList ++ datas fields).length ≤ 1 ∧
          (e.message.toList ++ messages fields).length ≤ 1 then
        .ok ⟨(e.status.toList ++ statuses fields).head?, (e.data.toList ++ datas fields).head?,
          (e.message.toList ++ messages fields).head?⟩
      else .error .mismatched := by
  induction fields generalizing e with
  | nil =>
      obtain ⟨status, data, message⟩ := e
      cases status <;> cases data <;> cases message <;> rfl
  | cons f rest ih =>
      rw [List.foldlM_cons]
      obtain ⟨status, data, message⟩ := e
      cases f with
      | other key => exact ih ⟨status, data, message⟩
      | status s =>
          cases status with
          | none => exact ih ⟨some s, data, message⟩
          | some t =>
              rw [if_neg fun single => absurd single.1 (by simp [statuses, Field.status?])]
              rfl
      | data v =>
          cases data with
          | none => exact ih ⟨status, some v, message⟩
          | some w =>
              rw [if_neg fun single => absurd single.2.1 (by simp [datas, Field.data?])]
              rfl
      | message m =>
          cases message with
          | none => exact ih ⟨status, data, some m⟩
          | some n =>
              rw [if_neg fun single => absurd single.2.2 (by simp [messages, Field.message?])]
              rfl

/-- None of the three fields comes twice. -/
def NoneTwice (fields : List Field) : Prop :=
  (statuses fields).length ≤ 1 ∧ (datas fields).length ≤ 1 ∧ (messages fields).length ≤ 1

instance (fields : List Field) : Decidable (NoneTwice fields) :=
  inferInstanceAs (Decidable (_ ∧ _ ∧ _))

theorem foldlM_put_empty (fields : List Field) :
    fields.foldlM Field.put {} =
      if NoneTwice fields then
        .ok ⟨(statuses fields).head?, (datas fields).head?, (messages fields).head?⟩
      else .error .mismatched :=
  foldlM_put fields {}

/-- What a reply says, by its fields. -/
def said (fields : List Field) : Except Failure Reply :=
  if NoneTwice fields then
    match (statuses fields).head? with
    | some s => Reply.ofEnvelope s ⟨some s, (datas fields).head?, (messages fields).head?⟩
    | none => .error (.serialization .mismatched)
  else .error (.serialization .mismatched)

theorem Reply.read_laysOut {entries : List Entry} {whole : Padded} (laid : LaysOut entries whole.core) :
    read (String.ofList whole.text) = said (entries.map Entry.field) := by
  rw [read, Envelope.read_laysOut laid, foldlM_put_empty, said]
  by_cases single : NoneTwice (entries.map Entry.field)
  · rw [if_pos single, if_pos single]
    cases first : (statuses (entries.map Entry.field)).head? <;> simp [Except.bind]
  · rw [if_neg single, if_neg single]
    rfl

/-- A payload says what these fields say, whatever else stands in it. -/
structure SaidBy (fields : List Field) (payload : String) : Prop where
  /-- Whatever the message is. -/
  success (alone : statuses fields = ["success"]) (single : NoneTwice fields) :
    Reply.read payload = .ok (.success ((datas fields).head?.getD .null))
  /-- Whatever the data is. -/
  failure {s m : String} (alone : statuses fields = [s]) (other : s ≠ "success")
    (told : messages fields = [some m]) (single : NoneTwice fields) :
    Reply.read payload = .ok (.failure m)
  unexplained {s : String} (alone : statuses fields = [s]) (other : s ≠ "success")
    (untold : messages fields = [] ∨ messages fields = [none]) (single : NoneTwice fields) :
    Reply.read payload = .error (.protocol (.missingMessage s))
  refused (broken : statuses fields = [] ∨ ¬ NoneTwice fields) :
    Reply.read payload = .error (.serialization .mismatched)

theorem SaidBy.of_said {payload : String} (same : Reply.read payload = said fields) :
    SaidBy fields payload where
  success alone single := by
    rw [same, said, if_pos single, alone]
    rfl
  failure alone other told single := by
    simp [same, said, single, alone, told, Reply.ofEnvelope, Reply.successStatus, other]
  unexplained alone other untold single := by
    rcases untold with untold | untold <;>
      simp [same, said, single, alone, untold, Reply.ofEnvelope, Reply.successStatus, other]
  refused broken := by
    rcases broken with missing | twice
    · simp [same, said, missing]
    · simp [same, said, twice]

/-- The fields that an envelope is read for. -/
def known (fields : List Field) : List Field := fields.filter fun f => f.slot != .other

theorem filterMap_known {α : Type} {f : Field → Option α} (passes : ∀ key, f (.other key) = none)
    (fields : List Field) : (known fields).filterMap f = fields.filterMap f := by
  rw [known, List.filterMap_filter]
  refine List.filterMap_congr fun field _ => ?_
  cases field with
  | other key => exact (passes key).symm
  | status | data | message => rfl

theorem head?_eq_of_perm {α : Type} {l m : List α} (perm : l.Perm m) (single : l.length ≤ 1) :
    l.head? = m.head? := by
  match l with
  | [] => rw [perm.nil_eq]
  | [a] => rw [List.singleton_perm.mp perm]
  | _ :: _ :: _ => simp at single

/-- The order of the fields does not matter, nor what is passed over. -/
theorem said_of_known_perm {others : List Field} (same : (known fields).Perm (known others)) :
    said fields = said others := by
  have statusPerm := same.filterMap Field.status?
  have dataPerm := same.filterMap Field.data?
  have messagePerm := same.filterMap Field.message?
  rw [filterMap_known fun _ => rfl, filterMap_known fun _ => rfl] at statusPerm dataPerm messagePerm
  have once : NoneTwice fields ↔ NoneTwice others := by
    simp only [NoneTwice, statuses, datas, messages, statusPerm.length_eq, dataPerm.length_eq,
      messagePerm.length_eq]
  rw [said, said]
  by_cases single : NoneTwice fields
  · obtain ⟨oneStatus, oneDatum, oneMessage⟩ := single
    rw [if_pos ⟨oneStatus, oneDatum, oneMessage⟩, if_pos (once.mp ⟨oneStatus, oneDatum, oneMessage⟩),
      statuses, datas, messages, head?_eq_of_perm statusPerm oneStatus,
      head?_eq_of_perm dataPerm oneDatum, head?_eq_of_perm messagePerm oneMessage]
    rfl
  · rw [if_neg single, if_neg (mt once.mpr single)]

end Counting

/-- An envelope is read by its fields and not by its layout. What its fields say is what is read, and
envelopes with the same fields read alike, in whatever order and layout and with whatever else they
hold. -/
theorem Reply.envelope_is_read_by_its_fields {entries : List Entry} {whole : Padded}
    (laid : LaysOut entries whole.core) :
    SaidBy (entries.map Entry.field) (String.ofList whole.text) ∧
      ∀ {others : List Entry} {other : Padded}, LaysOut others other.core →
        (known (entries.map Entry.field)).Perm (known (others.map Entry.field)) →
          read (String.ofList whole.text) = read (String.ofList other.text) := by
  refine ⟨.of_said (read_laysOut laid), ?_⟩
  intro others other laidOther same
  rw [read_laysOut laid, read_laysOut laidOther]
  exact said_of_known_perm same

theorem isNumeral_seven : Json.IsNumeral ['7'] :=
  ⟨[], ['7'], [], [], Or.inl rfl, by decide, Or.inl rfl, Or.inl rfl, rfl⟩

theorem read_seven : Json.read (String.ofList ['7']) = .ok (.number (.exact ⟨7, by decide, by decide⟩)) := by
  rw [Json.read, String.toList_ofList]
  rfl

theorem isQuoted_half : Json.IsQuoted ['"', '\\', 'u', 'd', '8', '0', '0', '"'] := by
  refine ⟨_, .piece (.unit (a := 'd') (b := '8') (c := '0') (d := '0') ?_) .close, rfl⟩
  simp [Json.IsHexDigit]

def statusEntry : Entry := ⟨.status "ok", .bare (Json.quote "ok"), .quote "ok"⟩

def dataEntry : Entry :=
  ⟨.data (.number (.exact ⟨7, by decide, by decide⟩)), .bare ['7'], .numeral isNumeral_seven, read_seven⟩

def messageEntry : Entry :=
  ⟨.message none, ⟨[' '], Json.Word.null.letters, [], Json.blank_singleton rfl, Json.blank_nil⟩, rfl⟩

/-- Half a surrogate pair, which no string can hold, but which is passed over. -/
def otherEntry : Entry :=
  ⟨.other "x", .bare ['"', '\\', 'u', 'd', '8', '0', '0', '"'], by decide, 0, .quoted isQuoted_half⟩

/-- An entry with no blanks around its key. -/
def Entry.member (entry : Entry) : Member :=
  { key := .bare (Json.quote entry.field.key), entry, named := .quote entry.field.key }

def shuffled : List Member :=
  [otherEntry.member, messageEntry.member, dataEntry.member, statusEntry.member]

def shuffledText : Padded := .bare ('\x7b' :: ([','].intercalate (shuffled.map Member.text) ++ ['\x7d']))

def inOrder : List Entry := [statusEntry, dataEntry, messageEntry]

def inOrderText : Padded := .bare ('[' :: ([','].intercalate (inOrder.map (·.value.text)) ++ [']']))

theorem Reply.envelope_is_read_by_its_fields_shuffled :
    read "\x7b\"x\":\"\\ud800\",\"message\": null,\"data\":7,\"status\":\"ok\"\x7d" =
        .error (.protocol (.missingMessage "ok")) ∧
      read "[\"ok\",7, null]" = .error (.protocol (.missingMessage "ok")) := by
  have object : LaysOut (shuffled.map Member.entry) shuffledText.core := .members (Or.inr ⟨nofun, rfl⟩)
  have array : LaysOut inOrder inOrderText.core := .elements (by decide) (Or.inr ⟨nofun, rfl⟩)
  have same : (known ((shuffled.map Member.entry).map Entry.field)).Perm
      (known (inOrder.map Entry.field)) :=
    List.reverse_perm [statusEntry.field, dataEntry.field, messageEntry.field]
  obtain ⟨byFields, alike⟩ := envelope_is_read_by_its_fields object
  have unexplained := byFields.unexplained rfl (by decide) (Or.inr rfl) (by decide)
  exact ⟨unexplained, (alike array same).symm.trans unexplained⟩

/-- An object with one member that stands there twice, first with arrays 126 deep. -/
def sunken : List Char :=
  '\x7b' :: '"' :: 'a' :: '"' :: ':' :: (List.replicate 126 '[' ++ List.replicate 126 ']' ++
    [',', '"', 'a', '"', ':', '1', '\x7d'])

set_option maxRecDepth 2048 in
/-- How deep a value nests is not how deep its text does: what a repeated key replaces leaves no trace in
the value, but has to fit the envelope all the same. -/
theorem Reply.replaced_member_is_too_deep :
    Json.read (String.ofList sunken) = .ok (.object [("a", .number (.exact ⟨1, by decide, by decide⟩))]) ∧
      Json.Fits 1 (.object [("a", .number (.exact ⟨1, by decide, by decide⟩))]) ∧
      read (successPayload (String.ofList sunken)) = .error (.serialization .malformed) := by
  refine ⟨?_, .object (List.pairwise_singleton _ _) (by simpa using .integer _), ?_⟩
  · rw [Json.read, String.toList_ofList]
    rfl
  · rw [read, Envelope.read, EnvelopeReader.foldlM_successPayload, String.toList_ofList]
    rfl

end Switchboard
