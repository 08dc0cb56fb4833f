import Switchboard.Decimal
import Mathlib

/-! # Canonical numerals

`digits` writes exactly the texts that `read?` accepts. The key fact is that a canonical text is the
spelling of its own value, so no two texts stand for one number.
-/

namespace Switchboard.Decimal

theorem toNat_digitChar {d : Nat} (small : d < 10) : (digitChar d).toNat = 48 + d := by
  have valid : (48 + d).isValidChar := by
    left
    omega
  have eq : digitChar d = Char.ofNat (48 + d) := rfl
  rw [eq, Char.toNat_ofNat, if_pos valid]

theorem isDigit_iff_toNat {c : Char} : c.isDigit ↔ 48 ≤ c.toNat ∧ c.toNat ≤ 57 := by
  simp only [Char.isDigit, Bool.and_eq_true, decide_eq_true_eq, Char.toNat, UInt32.le_iff_toNat_le]
  exact Iff.rfl

theorem isDigit_digitChar {d : Nat} (small : d < 10) : (digitChar d).isDigit := by
  rw [isDigit_iff_toNat, toNat_digitChar small]
  omega

theorem digitValue_digitChar {d : Nat} (small : d < 10) : digitValue (digitChar d) = d := by
  have zero : '0'.toNat = 48 := rfl
  simp only [digitValue, toNat_digitChar small, zero]
  omega

theorem digitValue_lt {c : Char} (digit : c.isDigit) : digitValue c < 10 := by
  have range := isDigit_iff_toNat.mp digit
  have zero : '0'.toNat = 48 := rfl
  simp only [digitValue, zero]
  omega

theorem digitChar_digitValue {c : Char} (digit : c.isDigit) : digitChar (digitValue c) = c := by
  have range := isDigit_iff_toNat.mp digit
  have zero : '0'.toNat = 48 := rfl
  have same : (digitChar (digitValue c)).toNat = c.toNat := by
    rw [toNat_digitChar (digitValue_lt digit)]
    simp only [digitValue, zero]
    omega
  exact Char.toNat_inj.mp same

theorem digits_of_lt {n : Nat} (small : n < 10) : digits n = [digitChar n] := by
  rw [digits, if_pos small]

theorem digits_of_le {n : Nat} (large : 10 ≤ n) :
    digits n = digits (n / 10) ++ [digitChar (n % 10)] := by
  rw [digits, if_neg (by omega)]

theorem digitChar_eq_digitChar {d : Nat} (small : d < 10) : digitChar d = Nat.digitChar d := by
  interval_cases d <;> rfl

/-- The spelling is the one that the library prints. -/
theorem digits_eq_toDigits (n : Nat) : digits n = Nat.toDigits 10 n := by
  induction n using Nat.strong_induction_on with
  | _ n ih =>
      rw [Nat.toDigits_eq_if (by decide)]
      by_cases small : n < 10
      · rw [digits_of_lt small, if_pos small, digitChar_eq_digitChar small]
      · have last : n % 10 < 10 := Nat.mod_lt n (by decide)
        rw [digits_of_le (Nat.le_of_not_lt small), if_neg small, ih (n / 10) (by omega),
          digitChar_eq_digitChar last]

theorem digits_append_digit {n : Nat} {c : Char} (positive : 0 < n) (digit : c.isDigit) :
    digits (10 * n + digitValue c) = digits n ++ [c] := by
  have small := digitValue_lt digit
  have front : (10 * n + digitValue c) / 10 = n := by omega
  have last : (10 * n + digitValue c) % 10 = digitValue c := by omega
  rw [digits_of_le (by omega), front, last, digitChar_digitValue digit]

theorem digits_ne_nil (n : Nat) : digits n ≠ [] := by
  by_cases small : n < 10
  · simp only [digits_of_lt small, ne_eq, List.cons_ne_nil, not_false_eq_true]
  · simp only [digits_of_le (Nat.le_of_not_lt small), ne_eq, List.append_eq_nil_iff,
      List.cons_ne_nil, and_false, not_false_eq_true]

theorem isDigit_of_mem_digits {n : Nat} {c : Char} (member : c ∈ digits n) : c.isDigit := by
  induction n using Nat.strong_induction_on with
  | _ n ih =>
      by_cases small : n < 10
      · rw [digits_of_lt small, List.mem_singleton] at member
        rw [member]
        exact isDigit_digitChar small
      · rw [digits_of_le (Nat.le_of_not_lt small), List.mem_append, List.mem_singleton] at member
        rcases member with front | last
        · exact ih (n / 10) (by omega) front
        · rw [last]
          exact isDigit_digitChar (Nat.mod_lt n (by omega))

@[simp] theorem value_append_singleton (cs : List Char) (c : Char) :
    value (cs ++ [c]) = 10 * value cs + digitValue c := by
  simp only [value, List.foldl_append, List.foldl_cons, List.foldl_nil]

@[simp] theorem value_singleton (c : Char) : value [c] = digitValue c := by
  simpa only [List.nil_append, value, List.foldl_nil, Nat.mul_zero, Nat.zero_add] using
    value_append_singleton [] c

theorem value_digits (n : Nat) : value (digits n) = n := by
  induction n using Nat.strong_induction_on with
  | _ n ih =>
      by_cases small : n < 10
      · rw [digits_of_lt small, value_singleton, digitValue_digitChar small]
      · rw [digits_of_le (Nat.le_of_not_lt small), value_append_singleton, ih (n / 10) (by omega),
          digitValue_digitChar (Nat.mod_lt n (by omega))]
        omega

theorem head?_digits {n : Nat} (positive : 0 < n) : (digits n).head? ≠ some '0' := by
  induction n using Nat.strong_induction_on with
  | _ n ih =>
      by_cases small : n < 10
      · rw [digits_of_lt small, List.head?_cons]
        intro same
        have code := congrArg Char.toNat (Option.some.inj same)
        rw [toNat_digitChar small] at code
        have zero : '0'.toNat = 48 := rfl
        omega
      · rw [digits_of_le (Nat.le_of_not_lt small), List.head?_append_of_ne_nil _ (digits_ne_nil _)]
        exact ih (n / 10) (by omega) (by omega)

/-- A text of digits is canonical when no zero stands in front of others. -/
theorem isCanonical_iff {cs : List Char} :
    isCanonical cs ↔
      cs ≠ [] ∧ (∀ c ∈ cs, c.isDigit) ∧ (1 < cs.length → cs.head? ≠ some '0') := by
  match cs with
  | [] => simp [isCanonical]
  | [c] => simp [isCanonical]
  | c :: d :: cs =>
      simp only [isCanonical, Bool.and_eq_true, List.all_eq_true, bne_iff_ne, ne_eq,
        List.cons_ne_nil, not_false_eq_true, true_and, List.forall_mem_cons, List.length_cons,
        List.head?_cons, Option.some.injEq]
      constructor
      · rintro ⟨⟨first, nonzero⟩, rest⟩
        exact ⟨⟨first, rest⟩, fun _ => nonzero⟩
      · rintro ⟨⟨first, rest⟩, nonzero⟩
        exact ⟨⟨first, nonzero (by omega)⟩, rest⟩

theorem isCanonical_digits (n : Nat) : isCanonical (digits n) := by
  refine isCanonical_iff.mpr ⟨digits_ne_nil n, fun c member => isDigit_of_mem_digits member, ?_⟩
  intro long
  refine head?_digits ?_
  by_contra zero
  have none : n = 0 := by omega
  rw [none, digits_of_lt (by omega)] at long
  simp only [List.length_cons, List.length_nil, Nat.lt_irrefl] at long

/-- A canonical text is the spelling of its value. The induction takes digits off at the end, and
what is left is canonical and positive, for its first digit is still not zero. -/
theorem digits_value {cs : List Char} (canonical : isCanonical cs) : digits (value cs) = cs := by
  induction cs using List.reverseRecOn with
  | nil => exact absurd rfl (isCanonical_iff.mp canonical).1
  | append_singleton cs c ih =>
      obtain ⟨_, allDigits, nonzero⟩ := isCanonical_iff.mp canonical
      have digit : c.isDigit := allDigits c (by simp)
      by_cases single : cs = []
      · subst single
        rw [List.nil_append, value_singleton, digits_of_lt (digitValue_lt digit),
          digitChar_digitValue digit]
      · have length : 0 < cs.length := List.length_pos_iff.mpr single
        have head : cs.head? ≠ some '0' := by
          have whole := nonzero (by rw [List.length_append, List.length_singleton]; omega)
          rwa [List.head?_append_of_ne_nil _ single] at whole
        have front : digits (value cs) = cs := by
          refine ih (isCanonical_iff.mpr ⟨single, ?_, fun _ => head⟩)
          intro d member
          exact allDigits d (List.mem_append_left _ member)
        have positive : 0 < value cs := by
          by_contra zero
          have none : value cs = 0 := by omega
          rw [none, digits_of_lt (by omega)] at front
          rw [← front] at head
          exact head rfl
        rw [value_append_singleton, digits_append_digit positive digit, front]

theorem read?_eq_some_iff {cs : List Char} {n : Nat} : read? cs = some n ↔ cs = digits n := by
  constructor
  · intro accepted
    rw [read?, Option.ite_none_right_eq_some] at accepted
    obtain ⟨canonical, found⟩ := accepted
    rw [← Option.some.inj found, digits_value canonical]
  · rintro rfl
    rw [read?, if_pos (isCanonical_digits n), value_digits]

theorem digits_injective {m n : Nat} (same : digits m = digits n) : m = n := by
  rw [← value_digits m, same, value_digits]

end Switchboard.Decimal
