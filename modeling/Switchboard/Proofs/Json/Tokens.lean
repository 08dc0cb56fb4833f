import Switchboard.Json.Printer
import Switchboard.Json.Reader
import Switchboard.Proofs.Decimal

/-! # Tokens are read back

What the printer writes for a string or an integer, the automata of the reader take back. A string
announces its end, so its last character brings it out. A numeral does not: after its last digit the
automaton still waits, and the number is only there once a character comes that cannot go on with it.
-/

namespace Switchboard.Json

section Moves

variable {σ τ α : Type} {step : σ → Char → Except ReadError (Progress σ α)} {s t u : σ}

/-- An automaton goes from one state to another and is never over on the way. -/
inductive Moves (step : σ → Char → Except ReadError (Progress σ α)) : σ → List Char → σ → Prop
  | nil (s : σ) : Moves step s [] s
  | cons {s t u : σ} {c : Char} {cs : List Char} (first : step s c = .ok (.more t))
      (rest : Moves step t cs u) : Moves step s (c :: cs) u

namespace Moves

theorem single {c : Char} (takes : step s c = .ok (.more t)) : Moves step s [c] t := .cons takes (.nil t)

theorem append {first second : List Char} (front : Moves step s first t)
    (rest : Moves step t second u) : Moves step s (first ++ second) u := by
  induction front with
  | nil => exact rest
  | cons takes _ ih => exact .cons takes (ih rest)

/-- An automaton inside another one. -/
theorem lift {β : Type} {outer : τ → Char → Except ReadError (Progress τ β)} (f : σ → τ)
    (carries : ∀ {s c t}, step s c = .ok (.more t) → outer (f s) c = .ok (.more (f t)))
    {cs : List Char} (moves : Moves step s cs t) : Moves outer (f s) cs (f t) := by
  induction moves with
  | nil => exact .nil _
  | cons takes _ ih => exact .cons (carries takes) ih

theorem foldlM {outer : τ → Char → Except ReadError τ} (f : σ → τ)
    (carries : ∀ {s c t}, step s c = .ok (.more t) → outer (f s) c = .ok (f t)) {cs : List Char}
    (moves : Moves step s cs t) : cs.foldlM outer (f s) = .ok (f t) := by
  induction moves with
  | nil => rfl
  | cons takes _ ih =>
      rw [List.foldlM_cons, carries takes]
      exact ih

end Moves

end Moves

section Strings

variable {text : List Char} {c : Char}

/-- The characters that are written as a letter after a backslash, with their letters. -/
def letters : List (Char × Char) :=
  [('"', '"'), ('\\', '\\'), ('\x08', 'b'), ('\t', 't'), ('\n', 'n'), ('\x0c', 'f'), ('\r', 'r')]

theorem escapeChar_letters : ∀ p ∈ letters,
    p.2 ≠ 'u' ∧ unescape? p.2 = some p.1 ∧ escapeChar p.1 = ['\\', p.2] := by
  decide

theorem escapeChar_of_not_mem (other : c ∉ letters.map Prod.fst) :
    escapeChar c = if c.toNat < 0x20 then
      ['\\', 'u', '0', '0', hexDigit (c.toNat / 16), hexDigit (c.toNat % 16)] else [c] := by
  simp only [letters, List.map_cons, List.map_nil, List.mem_cons, List.not_mem_nil, or_false,
    not_or] at other
  simp only [escapeChar, other, if_false]

theorem hexUnit?_control :
    ∀ n < 32, hexUnit? ['0', '0', hexDigit (n / 16), hexDigit (n % 16)] = some n := by
  decide

theorem byteCount_control : ∀ n < 32,
    Quoted.byteCount ['0', '0', hexDigit (n / 16)] = 3 ∧
      Quoted.byteCount ['0', '0', hexDigit (n / 16), hexDigit (n % 16)] = 4 := by
  decide

namespace Quoted

theorem moves_letter {care : Care} {letter : Char} (other : letter ≠ 'u')
    (names : unescape? letter = some c) :
    Moves (step care) (.plain text) ['\\', letter] (.plain (c :: text)) := by
  refine .cons (t := .escape text) rfl (.single ?_)
  simp only [step, if_neg other, names]

/-- A control character without a letter of its own is written as its unit. -/
theorem moves_unit (control : c.toNat < 0x20) :
    Moves (step .keep) (.plain text)
      ['\\', 'u', '0', '0', hexDigit (c.toNat / 16), hexDigit (c.toNat % 16)] (.plain (c :: text)) := by
  obtain ⟨three, four⟩ := byteCount_control c.toNat control
  have unit := hexUnit?_control c.toNat control
  refine .cons (t := .escape text) rfl ?_
  refine .cons (t := .hex text none []) rfl ?_
  refine .cons (t := .hex text none ['0']) rfl ?_
  refine .cons (t := .hex text none ['0', '0']) rfl ?_
  refine .cons (t := .hex text none ['0', '0', hexDigit (c.toNat / 16)]) ?_ (.single ?_)
  · simp [step, three]
  · have low : isTrailing c.toNat = false ∧ isLeading c.toNat = false := by
      constructor <;> simp [isTrailing, isLeading] <;> omega
    simp [step, four, unit, takeUnit, low, Except.map, Char.ofNat_toNat]

theorem moves_escapeChar (text : List Char) (c : Char) :
    Moves (step .keep) (.plain text) (escapeChar c) (.plain (c :: text)) := by
  by_cases lettered : c ∈ letters.map Prod.fst
  · obtain ⟨p, member, rfl⟩ := List.mem_map.mp lettered
    obtain ⟨other, names, written⟩ := escapeChar_letters p member
    rw [written]
    exact moves_letter other names
  · rw [escapeChar_of_not_mem lettered]
    split
    case isTrue control => exact moves_unit control
    case isFalse plain =>
      have quote : c ≠ '"' := by
        rintro rfl
        exact lettered (by decide)
      have backslash : c ≠ '\\' := by
        rintro rfl
        exact lettered (by decide)
      apply Moves.single
      simp only [step, if_neg quote, if_neg backslash, if_neg plain]

theorem moves_escaped (text cs : List Char) :
    Moves (step .keep) (.plain text) (cs.flatMap escapeChar) (.plain (cs.reverse ++ text)) := by
  induction cs generalizing text with
  | nil => exact .nil _
  | cons c cs ih =>
      have rest := ih (c :: text)
      rw [List.flatMap_cons, List.reverse_cons, List.append_assoc]
      exact (moves_escapeChar text c).append rest

/-- Up to its closing quote, a string in quotes is taken in, and the quote brings it out. -/
theorem reads_quote (s : String) :
    ∃ q, Moves (step .keep) (.plain []) (s.toList.flatMap escapeChar) q ∧
      q.step .keep '"' = .ok (.done s) := by
  refine ⟨_, moves_escaped [] s.toList, ?_⟩
  simp [step]

end Quoted

end Strings

section Integers

variable {n : Numeral} {i : WordInt}

namespace Numeral

/-- The numeral of an integer, when its last digit has been read. -/
structure Spells (n : Numeral) (i : WordInt) : Prop where
  whole : n.isWhole
  value : n.value? = some (.exact i)

/-- The characters that a numeral may start with. -/
def Opens (c : Char) : Prop := c = '-' ∨ c.isDigit

theorem Opens.ne {c d : Char} (opens : Opens c) (sign : d ≠ '-') (digit : ¬ d.isDigit) : c ≠ d := by
  rintro rfl
  exact opens.elim sign digit

theorem Opens.isBlank {c : Char} (opens : Opens c) : isBlank c = false := by
  simp [Json.isBlank, opens.ne (d := ' '), opens.ne (d := '\t'), opens.ne (d := '\n'),
    opens.ne (d := '\r')]

/-- The characters that no numeral goes on with. -/
def EndsAt (c : Char) : Prop := ¬ c.isDigit ∧ c ≠ '.' ∧ c ≠ 'e' ∧ c ≠ 'E'

theorem moves_digits (n : Numeral) (stage : n.stage = .whole) {cs : List Char}
    (digits : ∀ c ∈ cs, c.isDigit) :
    Moves step n cs { n with whole := cs.reverse ++ n.whole } := by
  induction cs generalizing n with
  | nil => exact .nil n
  | cons c cs ih =>
      obtain ⟨digit, later⟩ := List.forall_mem_cons.mp digits
      have takes : n.step c = .ok (.more { n with whole := c :: n.whole }) := by
        simp [step, stage, digit]
      have rest := ih { n with whole := c :: n.whole } stage later
      rw [List.reverse_cons, List.append_assoc]
      exact .cons takes rest

/-- The numeral after its first digit. -/
def opened (negative : Bool) (c : Char) : Numeral :=
  { stage := if c = '0' then .zero else .whole, negative, whole := [c] }

/-- The numeral after all its digits. -/
def ofDigits (negative : Bool) (cs : List Char) : Numeral :=
  { stage := if cs = ['0'] then .zero else .whole, negative, whole := cs.reverse }

theorem start?_of_isDigit {c : Char} (digit : c.isDigit) : start? c = some (opened false c) := by
  have sign : c ≠ '-' := by
    rintro rfl
    contradiction
  by_cases zero : c = '0'
  · subst zero
    rfl
  · simp [start?, opened, sign, zero, digit]

theorem step_sign {c : Char} (digit : c.isDigit) :
    step { stage := .sign, negative := true } c = .ok (.more (opened true c)) := by
  by_cases zero : c = '0'
  · subst zero
    rfl
  · simp [step, opened, zero, digit]

theorem moves_opened (negative : Bool) {c : Char} {cs : List Char}
    (canonical : Decimal.isCanonical (c :: cs)) :
    Moves step (opened negative c) cs (ofDigits negative (c :: cs)) := by
  obtain ⟨-, digits, nonzero⟩ := Decimal.isCanonical_iff.mp canonical
  cases cs with
  | nil =>
      have same : ofDigits negative [c] = opened negative c := by simp [ofDigits, opened]
      rw [same]
      exact .nil _
  | cons d ds =>
      have first : c ≠ '0' := by simpa using nonzero
      have later : ∀ e ∈ d :: ds, e.isDigit := fun e member => digits e (List.mem_cons_of_mem c member)
      have run := moves_digits (opened negative c) (by simp [opened, first]) later
      have same : ofDigits negative (c :: d :: ds) =
          { opened negative c with whole := (d :: ds).reverse ++ (opened negative c).whole } := by
        simp [ofDigits, opened, first]
      rwa [same]

theorem toWord?_of_negative (whole : n.isWhole) (negative : n.negative) (below : i.val < 0)
    (size : Decimal.value n.whole.reverse = i.val.natAbs) : n.toWord? = some i := by
  have least := i.least
  have magnitude : -(Decimal.value n.whole.reverse : Int) = i.val := by omega
  simp only [toWord?, if_pos whole, if_pos negative]
  rw [dif_pos (by omega)]
  simp only [magnitude]

theorem toWord?_of_not_negative (whole : n.isWhole) (positive : n.negative = false)
    (above : 0 ≤ i.val) (size : Decimal.value n.whole.reverse = i.val.natAbs) :
    n.toWord? = some i := by
  have greatest := i.greatest
  have magnitude : (Decimal.value n.whole.reverse : Int) = i.val := by omega
  simp only [toWord?, if_pos whole, positive, Bool.false_eq_true, if_false]
  rw [dif_pos (by omega)]
  simp only [magnitude]

theorem spells_ofDigits (i : WordInt) :
    (ofDigits (decide (i.val < 0)) (Decimal.digits i.val.natAbs)).Spells i := by
  let n := ofDigits (decide (i.val < 0)) (Decimal.digits i.val.natAbs)
  have whole : n.isWhole := by
    by_cases zero : Decimal.digits i.val.natAbs = ['0'] <;> simp [n, ofDigits, isWhole, zero]
  have size : Decimal.value n.whole.reverse = i.val.natAbs := by
    simp only [n, ofDigits, List.reverse_reverse, Decimal.value_digits]
  have word : n.toWord? = some i := by
    by_cases below : i.val < 0
    · exact toWord?_of_negative whole (decide_eq_true below) below size
    · exact toWord?_of_not_negative whole (decide_eq_false below) (by omega) size
  exact ⟨whole, by rw [value?, word]⟩

end Numeral

/-- An integer is read digit by digit, and then the automaton waits for what ends it. -/
theorem reads_spellInt (i : WordInt) :
    ∃ first rest start n, spellInt i.val = first :: rest ∧ Numeral.Opens first ∧
      Numeral.start? first = some start ∧ Moves Numeral.step start rest n ∧ n.Spells i := by
  have canonical := Decimal.isCanonical_digits i.val.natAbs
  have spelled := Numeral.spells_ofDigits i
  obtain ⟨c, cs, digits⟩ := List.exists_cons_of_ne_nil (Decimal.digits_ne_nil i.val.natAbs)
  have digit : c.isDigit := Decimal.isDigit_of_mem_digits (by rw [digits]; exact List.mem_cons_self)
  rw [digits] at canonical spelled
  by_cases negative : i.val < 0
  · refine ⟨'-', c :: cs, _, _, ?_, Or.inl rfl, rfl, ?_, spelled⟩
    · rw [spellInt, if_pos negative, digits]
    · rw [decide_eq_true negative]
      exact .cons (Numeral.step_sign digit) (Numeral.moves_opened true canonical)
  · refine ⟨c, cs, _, _, ?_, Or.inr digit, Numeral.start?_of_isDigit digit, ?_, spelled⟩
    · rw [spellInt, if_neg negative, digits]
    · rw [decide_eq_false negative]
      exact Numeral.moves_opened false canonical

end Integers

end Switchboard.Json
