import Switchboard.Frame
import Switchboard.Proofs.RequestId

/-! # The shape of a reply frame

A text is cut into a token and a payload just when it is the marker, the token and the payload with
single blanks between them. The token has no blank, so the cut is the only one, and whatever blanks
the payload has stay in it. The parts are looked for from the front, and the first that is not there is
the one that is missed.
-/

namespace Switchboard

/-- A text has no blank, or it is cut at the first one. -/
theorem unbroken_or_cut (text : String) :
    ' ' ∉ text.toList ∨ ∃ front rest : String, text = front ++ " " ++ rest ∧ ' ' ∉ front.toList := by
  by_cases blank : ' ' ∈ text.toList
  · obtain ⟨front, rest, spelled, unbroken⟩ := List.eq_append_cons_of_mem blank
    refine Or.inr ⟨String.ofList front, String.ofList rest, String.toList_injective ?_, ?_⟩
    · simp [spelled]
    · rwa [String.toList_ofList]
  · exact Or.inl blank

/-- The text in front of the first blank of a text. -/
def firstWord (text : String) : String := String.ofList (text.toList.takeWhile (· ≠ ' '))

theorem firstWord_of_unbroken {text : String} (unbroken : ' ' ∉ text.toList) : firstWord text = text := by
  have whole : text.toList.takeWhile (· ≠ ' ') = text.toList := by
    rw [List.takeWhile_eq_self_iff]
    intro c member
    simpa using ne_of_mem_of_not_mem member unbroken
  rw [firstWord, whole, String.ofList_toList]

theorem firstWord_append {front : String} (unbroken : ' ' ∉ front.toList) (rest : String) :
    firstWord (front ++ " " ++ rest) = front := by
  have cut := cutAt_append ' ' rest.toList unbroken
  have spelled : (front ++ " " ++ rest).toList = front.toList ++ ' ' :: rest.toList := by simp
  rw [firstWord, ← cutAt_fst, spelled, cut, String.ofList_toList]

namespace ReplyFrame

theorem toList_spelled (token payload : String) :
    (marker ++ " " ++ token ++ " " ++ payload).toList =
      marker.toList ++ ' ' :: (token.toList ++ ' ' :: payload.toList) := by
  simp

theorem toList_marked (rest : String) :
    (marker ++ " " ++ rest).toList = marker.toList ++ ' ' :: rest.toList := by
  simp

/-- The ways in which a text can be cut, and what each comes to. -/
inductive Cuts : String → Except Failure ReplyFrame → Prop where
  /-- Something else than the marker stands in front of the first blank. -/
  | unmarked {text : String} (other : firstWord text ≠ marker) :
      Cuts text (.error (.protocol .unmarkedFrame))
  | bare : Cuts marker (.error (.protocol .missingId))
  | ended : Cuts (marker ++ " ") (.error (.protocol .missingId))
  | nameless (rest : String) : Cuts (marker ++ " " ++ (" " ++ rest)) (.error (.protocol .missingId))
  | unfilled {token : String} (named : token ≠ "") (unbroken : ' ' ∉ token.toList) :
      Cuts (marker ++ " " ++ token) (.error (.protocol (.missingPayload token)))
  | whole {f : ReplyFrame} (named : f.token ≠ "") (unbroken : ' ' ∉ f.token.toList) :
      Cuts (marker ++ " " ++ f.token ++ " " ++ f.payload) (.ok f)

variable {text : String} {result : Except Failure ReplyFrame}

theorem Cuts.split_eq (cuts : Cuts text result) : split text = result := by
  have first : ' ' ∉ marker.toList := by decide
  cases cuts with
  | unmarked other =>
      have front : (cutAt ' ' text.toList).1 ≠ marker.toList := by
        intro same
        rw [firstWord, ← cutAt_fst, same, String.ofList_toList] at other
        exact other rfl
      exact if_pos front
  | bare => simp [split, cutAt_of_not_mem first]
  | ended =>
      have spelled : (marker ++ " ").toList = marker.toList ++ [' '] := by simp
      rw [split, spelled, cutAt_append _ _ first]
      simp [cutAt]
  | nameless rest =>
      rw [split, toList_marked, cutAt_append _ _ first]
      simp [cutAt]
  | unfilled named unbroken =>
      have filled := mt String.toList_eq_nil_iff.mp named
      rw [split, toList_marked, cutAt_append _ _ first]
      simp [cutAt_of_not_mem unbroken, filled]
  | @whole f named unbroken =>
      have filled := mt String.toList_eq_nil_iff.mp named
      rw [split, toList_spelled, cutAt_append _ _ first]
      simp [cutAt_append _ _ unbroken, filled]

theorem exists_cuts (text : String) : ∃ result, Cuts text result := by
  rcases unbroken_or_cut text with unbroken | ⟨front, rest, rfl, unbroken⟩
  · by_cases marked : text = marker
    · exact marked ▸ ⟨_, .bare⟩
    · exact ⟨_, .unmarked (by rwa [firstWord_of_unbroken unbroken])⟩
  · by_cases marked : front = marker
    · subst marked
      rcases unbroken_or_cut rest with unfilled | ⟨token, payload, rfl, unbroken⟩
      · by_cases named : rest = ""
        · rw [named, String.append_empty]
          exact ⟨_, .ended⟩
        · exact ⟨_, .unfilled named unfilled⟩
      · by_cases named : token = ""
        · rw [named, String.empty_append]
          exact ⟨_, .nameless payload⟩
        · rw [← String.append_assoc, ← String.append_assoc]
          exact ⟨_, @Cuts.whole ⟨token, payload⟩ named unbroken⟩
    · exact ⟨_, .unmarked (by rwa [firstWord_append unbroken])⟩

theorem split_eq_iff : split text = result ↔ Cuts text result := by
  constructor
  · rintro rfl
    obtain ⟨result, cuts⟩ := exists_cuts text
    exact cuts.split_eq.symm ▸ cuts
  · exact Cuts.split_eq

theorem split_eq_ok_iff {f : ReplyFrame} :
    split text = .ok f ↔
      text = marker ++ " " ++ f.token ++ " " ++ f.payload ∧ f.token ≠ "" ∧ ' ' ∉ f.token.toList := by
  rw [split_eq_iff]
  constructor
  · intro cuts
    cases cuts with
    | whole named unbroken => exact ⟨rfl, named, unbroken⟩
  · rintro ⟨rfl, named, unbroken⟩
    exact .whole named unbroken

theorem split_eq_unmarkedFrame_iff :
    split text = .error (.protocol .unmarkedFrame) ↔ firstWord text ≠ marker := by
  rw [split_eq_iff]
  constructor
  · intro cuts
    cases cuts with
    | unmarked other => exact other
  · exact .unmarked

theorem split_eq_missingId_iff :
    split text = .error (.protocol .missingId) ↔
      text = marker ∨ text = marker ++ " " ∨ ∃ rest, text = marker ++ " " ++ " " ++ rest := by
  rw [split_eq_iff]
  constructor
  · intro cuts
    cases cuts with
    | bare => exact Or.inl rfl
    | ended => exact Or.inr (Or.inl rfl)
    | nameless rest => exact Or.inr (Or.inr ⟨rest, String.append_assoc.symm⟩)
  · rintro (rfl | rfl | ⟨rest, rfl⟩)
    · exact .bare
    · exact .ended
    · rw [String.append_assoc]
      exact .nameless rest

theorem split_eq_missingPayload_iff {token : String} :
    split text = .error (.protocol (.missingPayload token)) ↔
      text = marker ++ " " ++ token ∧ token ≠ "" ∧ ' ' ∉ token.toList := by
  rw [split_eq_iff]
  constructor
  · intro cuts
    cases cuts with
    | unfilled named unbroken => exact ⟨rfl, named, unbroken⟩
  · rintro ⟨rfl, named, unbroken⟩
    exact .unfilled named unbroken

theorem split_cases (text : String) :
    (∃ f, split text = .ok f) ∨ split text = .error (.protocol .unmarkedFrame) ∨
      split text = .error (.protocol .missingId) ∨
      ∃ token, split text = .error (.protocol (.missingPayload token)) := by
  obtain ⟨result, cuts⟩ := exists_cuts text
  rw [cuts.split_eq]
  cases cuts with
  | unmarked => exact Or.inr (Or.inl rfl)
  | bare | ended | nameless => exact Or.inr (Or.inr (Or.inl rfl))
  | unfilled => exact Or.inr (Or.inr (Or.inr ⟨_, rfl⟩))
  | whole => exact Or.inl ⟨_, rfl⟩

theorem message_missingPayload (token : String) :
    (Failure.protocol (.missingPayload token)).message =
      "Protocol error: frame " ++ token ++ " has no payload" := by
  have opening : "Protocol error: frame " = "Protocol error: " ++ "frame " := by decide
  have whole : (Failure.protocol (.missingPayload token)).message =
      "Protocol error: " ++ ("frame " ++ token ++ " has no payload") := rfl
  rw [whole, opening]
  simp only [String.append_assoc]

theorem decode_eq_ok_iff {text token : String} {reply : Reply} :
    decode text = .ok (token, reply) ↔
      ∃ payload, text = marker ++ " " ++ token ++ " " ++ payload ∧ token ≠ "" ∧
        ' ' ∉ token.toList ∧ Reply.read payload = .ok reply := by
  rw [decode]
  cases cut : split text with
  | error problem =>
      constructor
      · intro decoded
        contradiction
      · rintro ⟨payload, spelled, named, unbroken, -⟩
        have whole : split text = .ok ⟨token, payload⟩ := split_eq_ok_iff.mpr ⟨spelled, named, unbroken⟩
        rw [cut] at whole
        contradiction
  | ok f =>
      constructor
      · intro decoded
        cases read : Reply.read f.payload with
        | error problem => simp [read, Except.map] at decoded
        | ok found =>
            simp only [read, Except.map, Except.ok.injEq, Prod.mk.injEq] at decoded
            obtain ⟨rfl, rfl⟩ := decoded
            obtain ⟨spelled, named, unbroken⟩ := split_eq_ok_iff.mp cut
            exact ⟨f.payload, spelled, named, unbroken, read⟩
      · rintro ⟨payload, spelled, named, unbroken, read⟩
        have whole : split text = .ok ⟨token, payload⟩ := split_eq_ok_iff.mpr ⟨spelled, named, unbroken⟩
        rw [cut] at whole
        cases whole
        simp only [read, Except.map]

/-- A text is a reply frame under some token, or it is none at all. -/
theorem exists_decode_iff {text : String} :
    (∃ frame, decode text = .ok frame) ↔
      ∃ token payload reply, text = marker ++ " " ++ token ++ " " ++ payload ∧ token ≠ "" ∧
        ' ' ∉ token.toList ∧ Reply.read payload = .ok reply := by
  constructor
  · rintro ⟨⟨token, reply⟩, decoded⟩
    obtain ⟨payload, parts⟩ := decode_eq_ok_iff.mp decoded
    exact ⟨token, payload, reply, parts⟩
  · rintro ⟨token, payload, reply, parts⟩
    exact ⟨(token, reply), decode_eq_ok_iff.mpr ⟨payload, parts⟩⟩

/-- What cutting a text comes to, in the order in which the parts are looked for. -/
structure Parted (text : String) : Prop where
  /-- A frame has a token without a blank and any payload, an empty one too. -/
  whole : ∀ f, split text = .ok f ↔
    text = "ID " ++ f.token ++ " " ++ f.payload ∧ f.token ≠ "" ∧ ' ' ∉ f.token.toList
  /-- Frames have the same parts just if they are the same. -/
  parts : ∀ other f g, split text = .ok f → split other = .ok g → (f = g ↔ text = other)
  /-- First comes the marker. -/
  unmarked : (split text = .error (.protocol .unmarkedFrame) ↔ firstWord text ≠ "ID") ∧
    (Failure.protocol .unmarkedFrame).message = "Protocol error: frame does not start with 'ID'"
  /-- Then comes the token. It is missing, or it is empty at the end of the text or before a blank. -/
  nameless : (split text = .error (.protocol .missingId) ↔
      text = "ID" ∨ text = "ID " ∨ ∃ rest, text = "ID  " ++ rest) ∧
    (Failure.protocol .missingId).message = "Protocol error: frame has no identifier"
  /-- Then comes the blank in front of the payload. -/
  unfilled : ∀ token, (split text = .error (.protocol (.missingPayload token)) ↔
      text = "ID " ++ token ∧ token ≠ "" ∧ ' ' ∉ token.toList) ∧
    (Failure.protocol (.missingPayload token)).message =
      "Protocol error: frame " ++ token ++ " has no payload"
  /-- Nothing else can happen. -/
  total : (∃ f, split text = .ok f) ∨ split text = .error (.protocol .unmarkedFrame) ∨
    split text = .error (.protocol .missingId) ∨
    ∃ token, split text = .error (.protocol (.missingPayload token))

theorem cutting_accepts_its_grammar (text : String) : Parted text := by
  have opening : "ID " = marker ++ " " := by decide
  have wider : "ID  " = marker ++ " " ++ " " := by decide
  constructor
  case whole =>
    intro f
    rw [opening, split_eq_ok_iff]
  case parts =>
    intro other f g first second
    constructor
    · rintro rfl
      exact (split_eq_ok_iff.mp first).1.trans (split_eq_ok_iff.mp second).1.symm
    · rintro rfl
      exact Except.ok.inj (first.symm.trans second)
  case unmarked => exact ⟨split_eq_unmarkedFrame_iff, by decide⟩
  case nameless =>
    rw [opening, wider]
    exact ⟨split_eq_missingId_iff, by decide⟩
  case unfilled =>
    intro token
    rw [opening]
    exact ⟨split_eq_missingPayload_iff, message_missingPayload token⟩
  case total => exact split_cases text

end ReplyFrame

end Switchboard
