import Switchboard.Failure
import Switchboard.Proofs.Lines
import Switchboard.Proofs.RequestId

/-! # Tokens and identifiers

Each identifier has one token, and each text that is a token has one identifier. Which texts are tokens is
said by their characters: digits without a needless zero, and not too many of them. Whether the digits are
looked for among the characters of a text or among its bytes makes no difference, for no byte of a longer
character is a digit.
-/

namespace Switchboard.RequestId

/-- A text that stands for an identifier. -/
structure IsToken (text : String) : Prop where
  filled : text ≠ ""
  digits : ∀ c ∈ text.toList, '0' ≤ c ∧ c ≤ '9'
  /-- No zero stands in front of other digits. -/
  leading : text.toList.head? = some '0' → text = "0"
  fits : Decimal.value text.toList < 2 ^ 64

variable {text : String} {id : RequestId}

theorem isDigit_iff_between {c : Char} : c.isDigit ↔ '0' ≤ c ∧ c ≤ '9' := by
  simp only [Char.isDigit, Bool.and_eq_true, decide_eq_true_eq]
  exact Iff.rfl

theorem isCanonical_toList_iff :
    Decimal.isCanonical text.toList ↔
      text ≠ "" ∧ (∀ c ∈ text.toList, '0' ≤ c ∧ c ≤ '9') ∧
        (text.toList.head? = some '0' → text = "0") := by
  have zero : "0".toList = ['0'] := rfl
  have filled : text.toList ≠ [] ↔ text ≠ "" := not_congr String.toList_eq_nil_iff
  have leading : (1 < text.toList.length → text.toList.head? ≠ some '0') ↔
      (text.toList.head? = some '0' → text = "0") := by
    rw [← String.toList_inj, zero]
    rcases text.toList with _ | ⟨c, _ | ⟨d, rest⟩⟩ <;> simp
  simp only [Decimal.isCanonical_iff, filled, leading, isDigit_iff_between]

theorem exists_ofToken?_iff : (∃ id, ofToken? text = some id) ↔ IsToken text := by
  have size : UInt64.size = 2 ^ 64 := rfl
  unfold ofToken? Decimal.read?
  by_cases canonical : Decimal.isCanonical text.toList
  · obtain ⟨filled, digits, leading⟩ := isCanonical_toList_iff.mp canonical
    simp only [if_pos canonical, size, Option.ite_none_right_eq_some, Option.some.injEq]
    constructor
    · rintro ⟨id, fits, -⟩
      exact ⟨filled, digits, leading, fits⟩
    · intro token
      exact ⟨_, token.fits, rfl⟩
  · simp only [if_neg canonical, reduceCtorEq, exists_false, false_iff]
    rintro ⟨filled, digits, leading, -⟩
    exact canonical (isCanonical_toList_iff.mpr ⟨filled, digits, leading⟩)

theorem ofToken_eq_ok_iff : ofToken text = .ok id ↔ text = id.token := by
  rw [← ofToken?_eq_some_iff, ofToken]
  cases ofToken? text <;> simp

theorem ofToken_eq_error_iff :
    ofToken text = .error (.protocol (.invalidId text)) ↔ ¬ ∃ id, ofToken? text = some id := by
  rw [ofToken]
  cases ofToken? text <;> simp

/-- A character is a digit just when its bytes are. -/
theorem digit_bytes_iff {c : Char} :
    (∀ b ∈ String.utf8EncodeChar c, 48 ≤ b ∧ b ≤ 57) ↔ '0' ≤ c ∧ c ≤ '9' := by
  have code : ('0' ≤ c ∧ c ≤ '9') ↔ 48 ≤ c.val.toNat ∧ c.val.toNat ≤ 57 := by
    rw [← isDigit_iff_between, Decimal.isDigit_iff_toNat]
    exact Iff.rfl
  rw [code]
  simp only [String.utf8EncodeChar, UInt8.le_iff_toNat_le]
  generalize c.val.toNat = n
  split
  case isTrue =>
    simp
    omega
  case isFalse =>
    -- A longer character starts with a byte that has its two highest bits set.
    split <;> [skip; split] <;> simp <;> omega

theorem message_invalidId (text : String) :
    (Failure.protocol (.invalidId text)).message =
      "Protocol error: invalid request id '" ++ text ++ "'" := by
  have opening : "Protocol error: invalid request id '" =
      "Protocol error: " ++ "invalid request id '" := by decide
  have whole : (Failure.protocol (.invalidId text)).message =
      "Protocol error: " ++ ("invalid request id '" ++ text ++ "'") := rfl
  rw [whole, opening]
  simp only [String.append_assoc]

/-- What becomes of a text that comes in as a token. -/
structure Judged (text : String) : Prop where
  /-- It is read as an identifier just if it is the token of that one. -/
  read : ∀ id, ofToken text = .ok id ↔ text = id.token
  /-- There is such an identifier just if its characters say so. -/
  accepted : (∃ id, ofToken text = .ok id) ↔ IsToken text
  /-- Every other text is refused, and the refusal names it. -/
  refused : (ofToken text = .error (.protocol (.invalidId text)) ↔ ¬ IsToken text) ∧
    (Failure.protocol (.invalidId text)).message =
      "Protocol error: invalid request id '" ++ text ++ "'"
  /-- It has the characters of digits just if it has their bytes. -/
  bytes : (∀ b ∈ text.toUTF8.toList, 48 ≤ b ∧ b ≤ 57) ↔ ∀ c ∈ text.toList, '0' ≤ c ∧ c ≤ '9'

/-- The token of an identifier is its number in decimal, and is read as that identifier again. No other
text is read as any. -/
theorem tokens_match_identifiers :
    (∀ id : RequestId, id.token = toString id.value.toNat ∧ ofToken id.token = .ok id) ∧
      ∀ text, Judged text := by
  refine ⟨fun id => ⟨id.token_eq_toString, ofToken_eq_ok_iff.mpr rfl⟩, fun text => ?_⟩
  have readable : (∃ id, ofToken text = .ok id) ↔ IsToken text := by
    simp only [ofToken_eq_ok_iff, ← ofToken?_eq_some_iff, exists_ofToken?_iff]
  constructor
  case read => exact fun id => ofToken_eq_ok_iff
  case accepted => exact readable
  case refused => exact ⟨by rw [ofToken_eq_error_iff, exists_ofToken?_iff], message_invalidId text⟩
  case bytes =>
    simp only [Lines.toUTF8_toList, List.forall_mem_flatMap, digit_bytes_iff]

/-- The first number that is too large. -/
example : ofToken "18446744073709551616" =
    .error (.protocol (.invalidId "18446744073709551616")) := by
  cbv

end Switchboard.RequestId
