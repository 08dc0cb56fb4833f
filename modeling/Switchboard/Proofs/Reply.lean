import Switchboard.Proofs.Frame
import Switchboard.Proofs.Json.RoundTrip

/-! # A value inside a reply

The envelope hands each character of a data field on to a reader of its own, so a value is read there
as it is read anywhere else. The envelope is one container more, and it is the closing brace of the
envelope that ends a numeral.
-/

namespace Switchboard

open Json (Moves Takes Fits)

def successOpening : String := "\x7b\"status\":\"success\",\"data\":"

/-- The payload of a reply that reports success and brings data. -/
def successPayload (data : String) : String := successOpening ++ data ++ "\x7d"

/-- The frame of such a reply. -/
def successFrame (id : RequestId) (data : String) : String :=
  marker ++ " " ++ id.token ++ " " ++ successPayload data

namespace EnvelopeReader

variable {e e' : Envelope} {layout : Layout} {slot : Slot} {r s : EnvelopeReader} {cs : List Char}
  {v : Json}

theorem foldlM_singleton (s : EnvelopeReader) (c : Char) : [c].foldlM step s = step s c := by
  rw [List.foldlM_cons]
  cases step s c <;> rfl

theorem foldlM_append_of_ok {front back : List Char} (first : front.foldlM step r = .ok s) :
    (front ++ back).foldlM step r = back.foldlM step s := by
  rw [List.foldlM_append, first]
  rfl

/-- Texts that start like a value of a slot. -/
def StartsValue (slot : Slot) (cs : List Char) : Prop :=
  ∃ c rest, cs = c :: rest ∧ Json.isBlank c = false ∧ c ≠ ']' ∧
    (refusesContainers slot → c ≠ '[' ∧ c ≠ '\x7b')

/-- The value of a slot is read by a reader of its own from its first character on. -/
theorem foldlM_value_eq_reading (starts : StartsValue slot cs) :
    cs.foldlM step (.value layout e slot) = cs.foldlM step (.reading layout e slot .fresh) := by
  obtain ⟨c, rest, rfl, blank, -, allowed⟩ := starts
  have fits : ¬ (refusesContainers slot ∧ (c = '[' ∨ c = '\x7b')) := by
    rintro ⟨refuses, bracket⟩
    exact bracket.elim (allowed refuses).1 (allowed refuses).2
  have first : step (.value layout e slot) c = step (.reading layout e slot .fresh) c := by
    simp only [step, startValue, blank, Json.Reader.step, Json.Reader.fresh]
    rw [if_neg (by decide), if_neg fits]
    cases Json.Reader.startValue (careFor slot) valueDepth [] c <;> simp [Except.map]
  rw [List.foldlM_cons, List.foldlM_cons, first]

/-- The reader has come to the end of the value of a slot, though a numeral may only end with the
next character. -/
def Stands (s : EnvelopeReader) (layout : Layout) (e : Envelope) (slot : Slot) : Prop :=
  ∀ c, Json.Numeral.EndsAt c → step s c = afterValue layout e slot c

/-- However a value ends, what comes after it finds it in its slot. -/
theorem foldlM_value (starts : StartsValue slot cs)
    (takes : Takes (careFor slot) valueDepth [] cs (.ok v)) (fills : e.fill slot v = .ok e') :
    ∃ s, cs.foldlM step (.value layout e slot) = .ok s ∧ Stands s layout e' slot := by
  have inside {t : Json.Reader} {front : List Char}
      (moves : Moves (Json.Reader.step (careFor slot) valueDepth) .fresh front t) :
      front.foldlM step (.reading layout e slot .fresh) = .ok (.reading layout e slot t) :=
    moves.foldlM (fun t => EnvelopeReader.reading layout e slot t) fun takes => by
      simp only [step, takes]
  rw [foldlM_value_eq_reading starts]
  generalize outcome : Except.ok v = result at takes
  cases takes with
  | @closed front last t w moves delivers =>
      obtain rfl := Except.ok.inj outcome
      refine ⟨.after layout e' slot, ?_, fun c _ => rfl⟩
      rw [foldlM_append_of_ok (inside moves), foldlM_singleton]
      simp [step, delivers, Json.Reader.deliver, fills, Except.map]
  | @numeral _ n moves complete =>
      refine ⟨_, inside moves, fun c ends => ?_⟩
      simp [step, Json.Reader.step, Json.Numeral.step_of_isComplete complete ends, ← outcome, fills,
        Except.bind]
  | faulty => contradiction

theorem foldlM_successOpening : successOpening.toList.foldlM step .start =
    .ok (.value .members { status := some "success" } .data) := by
  rfl

/-- Up to the data field nothing depends on what comes. -/
theorem foldlM_successPayload (data : String) :
    (successPayload data).toList.foldlM step .start =
      (data.toList ++ ['\x7d']).foldlM step (.value .members { status := some "success" } .data) := by
  have parts : (successPayload data).toList =
      successOpening.toList ++ (data.toList ++ ['\x7d']) := by
    rw [successPayload, String.toList_append, String.toList_append, List.append_assoc]
    rfl
  rw [parts, List.foldlM_append, foldlM_successOpening]
  rfl

theorem foldlM_data (fits : Fits valueDepth v) :
    (v.spell ++ ['\x7d']).foldlM step (.value .members e .data) = close { e with data := some v } := by
  obtain ⟨c, cs, spelled, blank, other⟩ := fits.opening
  have starts : StartsValue .data v.spell := ⟨c, cs, spelled, blank, other, nofun⟩
  have takes : Takes (careFor .data) valueDepth [] v.spell (.ok v) :=
    fits.takes_spell [] (Nat.le_of_eq (Nat.zero_add valueDepth))
  obtain ⟨s, reads, stands⟩ : ∃ s, v.spell.foldlM step (.value .members e .data) = .ok s ∧
      Stands s .members { e with data := some v } .data := foldlM_value starts takes rfl
  rw [foldlM_append_of_ok reads, foldlM_singleton]
  exact stands '\x7d' (by simp [Json.Numeral.EndsAt])

end EnvelopeReader

variable {v : Json}

/-- A value that leaves the envelope its level comes out of the reply as it went in. -/
theorem Reply.read_successPayload (fits : Fits EnvelopeReader.valueDepth v) :
    Reply.read (successPayload v.compact) = .ok (.success v) := by
  have text : v.compact.toList = v.spell := by simp [Json.compact]
  simp only [Reply.read, Envelope.read, EnvelopeReader.foldlM_successPayload, text,
    EnvelopeReader.foldlM_data fits]
  rfl

theorem ReplyFrame.decode_successFrame (id : RequestId) (fits : Fits EnvelopeReader.valueDepth v) :
    decode (successFrame id v.compact) = .ok (id.token, .success v) := by
  rw [decode_eq_ok_iff]
  exact ⟨successPayload v.compact, rfl, id.token_ne_empty, id.blank_not_mem_token,
    Reply.read_successPayload fits⟩

end Switchboard
