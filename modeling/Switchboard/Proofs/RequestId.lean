import Switchboard.IdSource
import Switchboard.Proofs.Decimal

/-! # Identifiers, their tokens and their source

A token names exactly one identifier, and it holds no blank, so a frame that is cut at blanks keeps
it whole. The source counts upwards as long as the next number is still a 64-bit word.
-/

namespace Switchboard

namespace RequestId

theorem lt_iff_toNat {a b : RequestId} : a < b ↔ a.value.toNat < b.value.toNat := Iff.rfl

theorem eq_of_toNat {a b : RequestId} (same : a.value.toNat = b.value.toNat) : a = b := by
  cases a
  cases b
  exact congrArg RequestId.mk (UInt64.toNat_inj.mp same)

theorem ne_of_lt {a b : RequestId} (below : a < b) : a ≠ b := by
  rintro rfl
  exact Nat.lt_irrefl _ (lt_iff_toNat.mp below)

theorem lt_of_not_lt {a b : RequestId} (notBelow : ¬ a < b) (different : a ≠ b) : b < a := by
  have unequal : a.value.toNat ≠ b.value.toNat := fun same => different (eq_of_toNat same)
  rw [lt_iff_toNat] at notBelow ⊢
  omega

theorem token_toList (id : RequestId) : id.token.toList = Decimal.digits id.value.toNat :=
  String.toList_ofList

theorem token_eq_toString (id : RequestId) : id.token = toString id.value.toNat := by
  rw [token, Decimal.digits_eq_toDigits, Nat.toString_eq_repr, Nat.repr_eq_ofList_toDigits]

theorem token_ne_empty (id : RequestId) : id.token ≠ "" := by
  rw [ne_eq, ← String.toList_eq_nil_iff, token_toList]
  exact Decimal.digits_ne_nil _

theorem token_injective {a b : RequestId} (same : a.token = b.token) : a = b := by
  have digits := congrArg String.toList same
  rw [token_toList, token_toList] at digits
  exact eq_of_toNat (Decimal.digits_injective digits)

theorem blank_not_mem_token (id : RequestId) : ' ' ∉ id.token.toList := by
  rw [token_toList]
  intro member
  exact absurd (Decimal.isDigit_of_mem_digits member) (by decide)

theorem ofToken?_token (id : RequestId) : ofToken? id.token = some id := by
  have read : Decimal.read? id.token.toList = some id.value.toNat :=
    Decimal.read?_eq_some_iff.mpr (token_toList id)
  have fits : id.value.toNat < UInt64.size := id.value.toNat_lt_size
  simp only [ofToken?, read, if_pos fits, UInt64.ofNat_toNat]

/-- A token is read as an identifier just when it is the one that the identifier is written as. -/
theorem ofToken?_eq_some_iff {token : String} {id : RequestId} :
    ofToken? token = some id ↔ token = id.token := by
  constructor
  · intro accepted
    rw [ofToken?] at accepted
    split at accepted
    case h_2 => contradiction
    case h_1 n read =>
      rw [Option.ite_none_right_eq_some] at accepted
      obtain ⟨fits, found⟩ := accepted
      have value : id.value.toNat = n := by
        rw [← Option.some.inj found]
        exact UInt64.toNat_ofNat_of_lt' fits
      apply String.toList_injective
      rw [token_toList, value]
      exact Decimal.read?_eq_some_iff.mp read
  · rintro rfl
    exact ofToken?_token id

end RequestId

theorem toNat_max (a b : UInt64) : (max a b).toNat = max a.toNat b.toNat := by
  have split : max a b = if a ≤ b then b else a := rfl
  rw [split]
  by_cases below : a ≤ b
  · rw [if_pos below, Nat.max_eq_right (UInt64.le_iff_toNat_le.mp below)]
  · rw [if_neg below, Nat.max_eq_left (Nat.le_of_not_le (mt UInt64.le_iff_toNat_le.mpr below))]

namespace IdSource

/-- There is one more 64-bit word to count to. -/
def HasNext (source : IdSource) : Prop := source.last.toNat + 1 < UInt64.size

variable {source : IdSource}

theorem toNat_succ_last (room : source.HasNext) :
    (source.last + 1).toNat = source.last.toNat + 1 := by
  rw [UInt64.toNat_add]
  exact Nat.mod_eq_of_lt room

theorem toNat_peek_counter (room : source.HasNext) (strategy : source.strategy = .counter)
    (now : UInt64) : (source.peek now).value.toNat = source.last.toNat + 1 := by
  simp only [peek, strategy, toNat_succ_last room]

theorem toNat_peek_timestamp (room : source.HasNext) (strategy : source.strategy = .timestamp)
    (now : UInt64) :
    (source.peek now).value.toNat = max now.toNat (source.last.toNat + 1) := by
  simp only [peek, strategy, toNat_max, toNat_succ_last room]

theorem last_lt_peek (room : source.HasNext) (now : UInt64) :
    source.last.toNat < (source.peek now).value.toNat := by
  cases strategy : source.strategy with
  | counter =>
      rw [toNat_peek_counter room strategy]
      omega
  | timestamp =>
      rw [toNat_peek_timestamp room strategy]
      omega

@[simp] theorem next_last (source : IdSource) (now : UInt64) :
    (source.next now).2.last = (source.peek now).value := rfl

@[simp] theorem next_strategy (source : IdSource) (now : UInt64) :
    (source.next now).2.strategy = source.strategy := rfl

end IdSource

end Switchboard
