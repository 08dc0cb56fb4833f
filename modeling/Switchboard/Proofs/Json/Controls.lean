import Switchboard.Proofs.Json.Tokens

/-! # Printed values have no control characters

Between its tokens the compact layout has nothing, and inside a string every control character is escaped,
in a key as in a value. So whatever a value holds, its text has no character below the blank, and above all
no line break.
-/

namespace Switchboard.Json

/-- No character is below the blank. -/
def NoControls (cs : List Char) : Prop := ∀ c ∈ cs, 0x20 ≤ c.toNat

section Lists

variable {c : Char} {cs ds : List Char}

@[simp] theorem noControls_nil : NoControls [] := List.forall_mem_nil _

@[simp] theorem noControls_cons : NoControls (c :: cs) ↔ 0x20 ≤ c.toNat ∧ NoControls cs :=
  List.forall_mem_cons

@[simp] theorem noControls_append : NoControls (cs ++ ds) ↔ NoControls cs ∧ NoControls ds :=
  List.forall_mem_append

theorem NoControls.subset (free : NoControls cs) (inside : ds ⊆ cs) : NoControls ds :=
  fun c member => free c (inside member)

end Lists

section Strings

theorem hexDigit_ge : ∀ d < 16, 0x20 ≤ (hexDigit d).toNat := by
  decide

theorem letters_ge : ∀ p ∈ letters, 0x20 ≤ p.2.toNat := by
  decide

theorem noControls_escapeChar (c : Char) : NoControls (escapeChar c) := by
  by_cases lettered : c ∈ letters.map Prod.fst
  · obtain ⟨p, member, rfl⟩ := List.mem_map.mp lettered
    rw [(escapeChar_letters p member).2.2]
    simp [letters_ge p member]
  · rw [escapeChar_of_not_mem lettered]
    split
    case isTrue control =>
      have high := hexDigit_ge (c.toNat / 16) (by omega)
      have low := hexDigit_ge (c.toNat % 16) (Nat.mod_lt _ (by decide))
      simp [high, low]
    case isFalse plain => simpa using plain

theorem noControls_quote (s : String) : NoControls (quote s) := by
  have inside : NoControls (s.toList.flatMap escapeChar) := by
    intro c member
    obtain ⟨d, -, escaped⟩ := List.mem_flatMap.mp member
    exact noControls_escapeChar d c escaped
  simp [quote, inside]

end Strings

section Numbers

theorem noControls_digits (n : Nat) : NoControls (Decimal.digits n) := by
  intro c member
  have range := Decimal.isDigit_iff_toNat.mp (Decimal.isDigit_of_mem_digits member)
  omega

theorem noControls_spellInt (n : Int) : NoControls (spellInt n) := by
  unfold spellInt
  split <;> simp [noControls_digits]

variable {l : DoubleLayout} {digits : List Char}

theorem noControls_replicate (n : Nat) : NoControls (List.replicate n '0') := by
  intro c member
  rw [List.eq_of_mem_replicate member]
  decide

theorem DoubleLayout.noControls_plain (fraction : NoControls l.emptyFraction)
    (free : NoControls digits) (places : Int) : NoControls (l.plain digits places) := by
  have front := free.subset (List.take_subset places.toNat digits)
  have back := free.subset (List.drop_subset places.toNat digits)
  unfold plain
  split
  · simp [noControls_replicate, free]
  · split <;> simp [noControls_replicate, free, fraction, front, back]

theorem DoubleLayout.noControls_scientific (plus : NoControls l.plus) (free : NoControls digits)
    (leading : Int) : NoControls (l.scientific digits leading) := by
  have exponent : NoControls (if leading < 0 then spellInt leading else l.plus ++ spellInt leading) := by
    split <;> simp [noControls_spellInt, plus]
  rcases digits with _ | ⟨first, _ | ⟨second, rest⟩⟩ <;> simp_all [scientific]

theorem DoubleLayout.noControls_spell (fraction : NoControls l.emptyFraction) (plus : NoControls l.plus)
    (x : Binary64) : NoControls (l.spell x) := by
  have free : NoControls ((Decimal.digits x.shortest.significand).reverse.dropWhile (· == '0')).reverse := by
    refine (noControls_digits x.shortest.significand).subset fun c member => ?_
    exact List.mem_reverse.mp ((List.dropWhile_sublist _).subset (List.mem_reverse.mp member))
  unfold spell
  extract_lets d all leading digits magnitude
  have unsigned : NoControls magnitude := by
    unfold magnitude
    split
    · simp [fraction]
    · split
      · exact noControls_plain fraction free _
      · exact noControls_scientific plus free _
  split <;> simp [unsigned]

theorem noControls_spellNumber (n : JsonNumber) : NoControls (spellNumber n) := by
  cases n with
  | exact n => exact noControls_spellInt n.val
  | double x => exact doubleLayout.noControls_spell (by simp [doubleLayout]) (by simp [doubleLayout]) x

end Numbers

section Values

mutual

theorem noControls_spell (v : Json) : NoControls (spell v) := by
  cases v with
  | null => simp [spell]
  | bool b => cases b <;> simp [spell]
  | number n => exact noControls_spellNumber n
  | string s => exact noControls_quote s
  | array items => simp [spell, noControls_spellItems items]
  | object members => simp [spell, noControls_spellMembers members]

theorem noControls_spellItems (items : List Json) : NoControls (spellItems items) := by
  cases items with
  | nil => exact noControls_nil
  | cons v rest =>
      have later := noControls_spellItems rest
      cases rest <;> simp_all [spellItems, noControls_spell v]

theorem noControls_spellMembers (members : List (String × Json)) :
    NoControls (spellMembers members) := by
  cases members with
  | nil => exact noControls_nil
  | cons m rest =>
      obtain ⟨key, v⟩ := m
      have later := noControls_spellMembers rest
      cases rest <;> simp_all [spellMembers, noControls_quote, noControls_spell v]

end

theorem noControls_compact (v : Json) : NoControls v.compact.toList := by
  rw [compact, String.toList_ofList]
  exact noControls_spell v

end Values

end Switchboard.Json
