import Switchboard.Proofs.Json.Tokens

/-! # The grammar of JSON

Which texts are JSON, said without a reader. A text is a word, a numeral, a string in quotes, or a
container whose parts stand between commas, with blanks around every token. How deep containers nest
is part of the statement. What a value can hold is not: a numeral may be beyond every double, and an
escape may be half a surrogate pair.
-/

namespace Switchboard.Json

/-- Nothing but white space between tokens. -/
def Blank (cs : List Char) : Prop := ∀ c ∈ cs, isBlank c

theorem blank_nil : Blank [] := fun _ member => absurd member List.not_mem_nil

theorem blank_singleton {c : Char} (blank : isBlank c) : Blank [c] := by simpa [Blank] using blank

/-- A text with blanks around it. -/
structure Padded where
  before : List Char
  core : List Char
  after : List Char
  blankBefore : Blank before
  blankAfter : Blank after

namespace Padded

def text (p : Padded) : List Char := p.before ++ (p.core ++ p.after)

/-- A text with no blanks around it. -/
abbrev bare (cs : List Char) : Padded := ⟨[], cs, [], blank_nil, blank_nil⟩

end Padded

def IsHexDigit (c : Char) : Prop := c.isDigit ∨ 'a' ≤ c ∧ c ≤ 'f' ∨ 'A' ≤ c ∧ c ≤ 'F'

instance (c : Char) : Decidable (IsHexDigit c) := inferInstanceAs (Decidable (_ ∨ _ ∧ _ ∨ _ ∧ _))

/-- A character between quotes, or an escape for one. -/
inductive QuotedPiece : List Char → Prop
  | plain {c : Char} (quote : c ≠ '"') (backslash : c ≠ '\\') (printable : 0x20 ≤ c.toNat) :
      QuotedPiece [c]
  | letter {c : Char} (named : c ∈ ['"', '\\', '/', 'b', 'f', 'n', 'r', 't']) : QuotedPiece ['\\', c]
  | unit {a b c d : Char} (digits : ∀ x ∈ [a, b, c, d], IsHexDigit x) :
      QuotedPiece ['\\', 'u', a, b, c, d]

/-- A string in quotes, after its opening quote. -/
inductive QuotedRest : List Char → Prop
  | close : QuotedRest ['"']
  | piece {p rest : List Char} (first : QuotedPiece p) (more : QuotedRest rest) : QuotedRest (p ++ rest)

def IsQuoted (cs : List Char) : Prop := ∃ rest, QuotedRest rest ∧ cs = '"' :: rest

def Digits (cs : List Char) : Prop := cs ≠ [] ∧ ∀ c ∈ cs, c.isDigit

/-- A point and digits, or nothing. -/
def IsFraction (cs : List Char) : Prop := cs = [] ∨ ∃ ds, Digits ds ∧ cs = '.' :: ds

/-- A mark, a sign and digits, or nothing. -/
def IsExponent (cs : List Char) : Prop :=
  cs = [] ∨ ∃ mark sign ds, (mark = 'e' ∨ mark = 'E') ∧ (sign = [] ∨ sign = ['+'] ∨ sign = ['-']) ∧
    Digits ds ∧ cs = mark :: (sign ++ ds)

def IsNumeral (cs : List Char) : Prop :=
  ∃ sign whole fraction exponent, (sign = [] ∨ sign = ['-']) ∧ Decimal.isCanonical whole ∧
    IsFraction fraction ∧ IsExponent exponent ∧ cs = sign ++ (whole ++ (fraction ++ exponent))

/-- What stands between the brackets of a container: its parts between commas, and blanks if it has
none. -/
def Body (parts : List (List Char)) (cs : List Char) : Prop :=
  parts = [] ∧ Blank cs ∨ parts ≠ [] ∧ cs = [','].intercalate parts

/-- A value in the grammar of JSON, with no blanks around it, whose containers nest at most `depth`
deep. -/
inductive WellFormed : Nat → List Char → Prop
  | word {depth : Nat} (w : Word) : WellFormed depth w.letters
  | numeral {depth : Nat} {cs : List Char} (is : IsNumeral cs) : WellFormed depth cs
  | quoted {depth : Nat} {cs : List Char} (is : IsQuoted cs) : WellFormed depth cs
  | array {depth : Nat} {items : List Padded} {body : List Char}
      (each : ∀ p ∈ items, WellFormed depth p.core) (written : Body (items.map Padded.text) body) :
      WellFormed (depth + 1) ('[' :: (body ++ [']']))
  | object {depth : Nat} {members : List (Padded × Padded)} {body : List Char}
      (keys : ∀ m ∈ members, IsQuoted m.1.core) (each : ∀ m ∈ members, WellFormed depth m.2.core)
      (written : Body (members.map fun m => m.1.text ++ ':' :: m.2.text) body) :
      WellFormed (depth + 1) ('\x7b' :: (body ++ ['\x7d']))

section Numerals

namespace Numeral

variable {n : Numeral} {c : Char} {cs : List Char}

/-- A numeral that may end ends at what it cannot go on with. -/
theorem step_of_isComplete (complete : n.isComplete) (ends : EndsAt c) : n.step c = .ok (.before n) := by
  obtain ⟨digit, point, mark, capital⟩ := ends
  have after : n.afterWhole c = .before n := by simp [afterWhole, point, mark, capital]
  cases stage : n.stage with
  | zero | whole => simp [step, stage, digit, after]
  | fraction | exponent => simp [step, stage, digit, mark, capital]
  | sign | point | mark | markSign => simp [isComplete, stage] at complete

theorem isComplete_of_isWhole (whole : n.isWhole) : n.isComplete := by
  cases stage : n.stage <;> simp_all [isWhole, isComplete]

/-- More digits do not lead out of a run of digits. -/
theorem moves_run {stage : Stage} (run : stage ∈ [.whole, .fraction, .exponent]) (at_ : n.stage = stage)
    (digits : ∀ c ∈ cs, c.isDigit) : ∃ m, Moves step n cs m ∧ m.stage = stage := by
  induction cs generalizing n with
  | nil => exact ⟨n, .nil n, at_⟩
  | cons c cs ih =>
      obtain ⟨digit, later⟩ := List.forall_mem_cons.mp digits
      obtain ⟨next, takes, stays⟩ : ∃ next, n.step c = .ok (.more next) ∧ next.stage = stage := by
        rw [List.mem_cons, List.mem_pair] at run
        rcases run with rfl | rfl | rfl <;> simp [step, at_, digit]
      obtain ⟨m, moves, there⟩ := ih stays later
      exact ⟨m, .cons takes moves, there⟩

theorem moves_whole {sign whole : List Char} (signed : sign = [] ∨ sign = ['-'])
    (canonical : Decimal.isCanonical whole) :
    ∃ first rest start n, sign ++ whole = first :: rest ∧ Opens first ∧ start? first = some start ∧
      Moves step start rest n ∧ n.isWhole := by
  obtain ⟨filled, digits, -⟩ := Decimal.isCanonical_iff.mp canonical
  obtain ⟨c, cs, rfl⟩ := List.exists_cons_of_ne_nil filled
  have digit := digits c List.mem_cons_self
  have ends negative : (ofDigits negative (c :: cs)).isWhole := by
    by_cases zero : c :: cs = ['0'] <;> simp [ofDigits, isWhole, zero]
  rcases signed with rfl | rfl
  · exact ⟨c, cs, _, _, rfl, Or.inr digit, start?_of_isDigit digit, moves_opened false canonical, ends _⟩
  · exact ⟨'-', c :: cs, _, _, rfl, Or.inl rfl, rfl,
      .cons (step_sign digit) (moves_opened true canonical), ends _⟩

theorem moves_fraction (whole : n.isWhole) (is : IsFraction cs) :
    ∃ m, Moves step n cs m ∧ m.stage ∈ [.zero, .whole, .fraction] := by
  rcases is with rfl | ⟨ds, ⟨filled, digits⟩, rfl⟩
  · refine ⟨n, .nil n, ?_⟩
    cases stage : n.stage <;> simp_all [isWhole]
  · obtain ⟨c, cs, rfl⟩ := List.exists_cons_of_ne_nil filled
    obtain ⟨digit, later⟩ := List.forall_mem_cons.mp digits
    have point : n.step '.' = .ok (.more { n with stage := .point }) := by
      cases stage : n.stage <;> simp_all [isWhole, step, afterWhole]
    have first : step { n with stage := .point } c =
        .ok (.more { n with stage := .fraction, fraction := [c] }) := by simp [step, digit]
    obtain ⟨m, moves, there⟩ :=
      moves_run (n := { n with stage := .fraction, fraction := [c] }) (by simp) rfl later
    exact ⟨m, .cons point (.cons first moves), by simp [there]⟩

theorem moves_exponent (number : n.stage ∈ [.zero, .whole, .fraction]) (is : IsExponent cs) :
    ∃ m, Moves step n cs m ∧ m.isComplete := by
  rcases is with rfl | ⟨mark, sign, ds, marks, signs, ⟨filled, digits⟩, rfl⟩
  · refine ⟨n, .nil n, ?_⟩
    cases stage : n.stage <;> simp_all [isComplete]
  · obtain ⟨c, cs, rfl⟩ := List.exists_cons_of_ne_nil filled
    obtain ⟨digit, later⟩ := List.forall_mem_cons.mp digits
    have marked : n.step mark = .ok (.more { n with stage := .mark }) := by
      cases stage : n.stage <;> rcases marks with rfl | rfl <;> simp_all [step, afterWhole]
    have first (m : Numeral) (stage : m.stage = .mark ∨ m.stage = .markSign) :
        m.step c = .ok (.more { m with stage := .exponent, exponent := [c] }) := by
      have plus : c ≠ '+' := by
        rintro rfl
        contradiction
      have minus : c ≠ '-' := by
        rintro rfl
        contradiction
      rcases stage with stage | stage <;> simp [step, stage, plus, minus, digit]
    obtain ⟨next, signed, there⟩ : ∃ next, Moves step { n with stage := .mark } (sign ++ [c]) next ∧
        next.stage = .exponent := by
      rcases signs with rfl | rfl | rfl
      · exact ⟨_, .single (first _ (Or.inl rfl)), rfl⟩
      · exact ⟨_, .cons rfl (.single (first _ (Or.inr rfl))), rfl⟩
      · exact ⟨_, .cons rfl (.single (first _ (Or.inr rfl))), rfl⟩
    obtain ⟨m, moves, ended⟩ := moves_run (by simp) there later
    refine ⟨m, ?_, by simp [isComplete, ended]⟩
    rw [List.append_cons]
    exact .cons marked (signed.append moves)

end Numeral

/-- A numeral is read to a state in which it may end. -/
theorem IsNumeral.moves {cs : List Char} (is : IsNumeral cs) :
    ∃ first rest start n, cs = first :: rest ∧ Numeral.Opens first ∧
      Numeral.start? first = some start ∧ Moves Numeral.step start rest n ∧ n.isComplete := by
  obtain ⟨sign, whole, fraction, exponent, signed, canonical, point, mark, rfl⟩ := is
  obtain ⟨first, rest, start, n, spelled, opens, starts, front, isWhole⟩ :=
    Numeral.moves_whole signed canonical
  obtain ⟨m, middle, number⟩ := Numeral.moves_fraction isWhole point
  obtain ⟨k, back, complete⟩ := Numeral.moves_exponent number mark
  refine ⟨first, rest ++ (fraction ++ exponent), start, k, ?_, opens, starts,
    front.append (middle.append back), complete⟩
  rw [← List.append_assoc, spelled, List.cons_append]

end Numerals

section Faults

variable {σ τ α β : Type} {step : σ → Char → Except ReadError (Progress σ α)} {s t : σ}
  {problem : ReadError} {cs : List Char}

/-- An automaton refuses a text, with a character that it cannot go on with. -/
def Faults (step : σ → Char → Except ReadError (Progress σ α)) (s : σ) (cs : List Char)
    (problem : ReadError) : Prop :=
  ∃ front c rest t, cs = front ++ c :: rest ∧ Moves step s front t ∧ step t c = .error problem

namespace Faults

theorem single {c : Char} (refuses : step s c = .error problem) : Faults step s [c] problem :=
  ⟨[], c, [], s, rfl, .nil s, refuses⟩

theorem append (faults : Faults step s cs problem) (more : List Char) :
    Faults step s (cs ++ more) problem := by
  obtain ⟨front, c, rest, t, rfl, moves, refuses⟩ := faults
  exact ⟨front, c, rest ++ more, t, by rw [List.append_assoc, List.cons_append], moves, refuses⟩

theorem after {front : List Char} (moves : Moves step s front t) (faults : Faults step t cs problem) :
    Faults step s (front ++ cs) problem := by
  obtain ⟨middle, c, rest, u, rfl, onward, refuses⟩ := faults
  exact ⟨front ++ middle, c, rest, u, by rw [List.append_assoc], moves.append onward, refuses⟩

/-- What refuses a text inside another automaton refuses it there. -/
theorem lift {outer : τ → Char → Except ReadError (Progress τ β)} (f : σ → τ)
    (carries : ∀ {s c t}, step s c = .ok (.more t) → outer (f s) c = .ok (.more (f t)))
    (refuses : ∀ {s c problem}, step s c = .error problem → outer (f s) c = .error problem)
    (faults : Faults step s cs problem) : Faults outer (f s) cs problem := by
  obtain ⟨front, c, rest, t, rfl, moves, fails⟩ := faults
  exact ⟨front, c, rest, f t, rfl, moves.lift f carries, refuses fails⟩

theorem foldlM {outer : τ → Char → Except ReadError τ} (f : σ → τ)
    (carries : ∀ {s c t}, step s c = .ok (.more t) → outer (f s) c = .ok (f t))
    (refuses : ∀ {s c problem}, step s c = .error problem → outer (f s) c = .error problem)
    (faults : Faults step s cs problem) : cs.foldlM outer (f s) = .error problem := by
  obtain ⟨front, c, rest, t, rfl, moves, fails⟩ := faults
  rw [List.foldlM_append, moves.foldlM f carries]
  change (c :: rest).foldlM outer (f t) = _
  rw [List.foldlM_cons, refuses fails]
  rfl

end Faults

end Faults

section Strings

namespace Quoted

variable {care : Care} {q : Quoted} {text : List Char}

/-- Between two pieces of a string. A string that is kept may be in the middle of a surrogate pair. -/
def Between (care : Care) (q : Quoted) : Prop :=
  (∃ text, q = .plain text) ∨ care = .keep ∧ ∃ text lead, q = .half text lead

/-- A string in quotes is read to its end, or found to hold half a surrogate pair. -/
inductive Brings (care : Care) (q : Quoted) : List Char → Except ReadError String → Prop
  | ends {front : List Char} {r : Quoted} {s : String} (moves : Moves (step care) q front r)
      (ended : r.step care '"' = .ok (.done s)) : Brings care q (front ++ ['"']) (.ok s)
  | faulty {cs : List Char} {problem : ReadError} (faults : Faults (step care) q cs problem) :
      Brings care q cs (.error problem)

theorem Brings.after {front rest : List Char} {outcome : Except ReadError String} {r : Quoted}
    (moves : Moves (step care) q front r) (brings : Brings care r rest outcome) :
    Brings care q (front ++ rest) outcome := by
  cases brings with
  | ends onward ended =>
      rw [← List.append_assoc]
      exact .ends (moves.append onward) ended
  | faulty faults => exact .faulty (faults.after moves)

theorem hexValue?_of_isHexDigit {c : Char} (digit : IsHexDigit c) :
    (∃ n, hexValue? c = some n) ∧ c.utf8Size = 1 := by
  have ascii : c.toNat < 0x80 := by
    rcases digit with digit | ⟨-, last⟩ | ⟨-, last⟩
    · have range := Decimal.isDigit_iff_toNat.mp digit
      omega
    · have range : c.toNat ≤ 'f'.toNat := last
      have bound : 'f'.toNat = 102 := rfl
      omega
    · have range : c.toNat ≤ 'F'.toNat := last
      have bound : 'F'.toNat = 70 := rfl
      omega
  constructor
  · unfold hexValue?
    rcases digit with digit | lower | upper
    · exact ⟨_, if_pos digit⟩
    · split_ifs <;> exact ⟨_, rfl⟩
    · split_ifs <;> exact ⟨_, rfl⟩
  · rw [Char.utf8Size_eq_one_iff, UInt32.le_iff_toNat_le]
    exact Nat.le_of_lt_succ ascii

/-- Four digits make a unit, and what the string takes it for decides. -/
theorem moves_hex {a b c d : Char} (digits : ∀ x ∈ [a, b, c, d], IsHexDigit x) (care : Care)
    (text : List Char) (lead : Option Nat) :
    Moves (step care) (.hex text lead []) [a, b, c] (.hex text lead [a, b, c]) ∧
      ∃ unit, step care (.hex text lead [a, b, c]) d = (takeUnit care text lead unit).map .more := by
  simp only [List.forall_mem_cons] at digits
  obtain ⟨first, second, third, fourth, -⟩ := digits
  obtain ⟨⟨i, vi⟩, one⟩ := hexValue?_of_isHexDigit first
  obtain ⟨⟨j, vj⟩, two⟩ := hexValue?_of_isHexDigit second
  obtain ⟨⟨k, vk⟩, three⟩ := hexValue?_of_isHexDigit third
  obtain ⟨⟨l, vl⟩, four⟩ := hexValue?_of_isHexDigit fourth
  constructor
  · refine .cons (t := .hex text lead [a]) ?_ (.cons (t := .hex text lead [a, b]) ?_ (.single ?_))
    · simp [step, byteCount, one]
    · simp [step, byteCount, one, two]
    · simp [step, byteCount, one, two, three]
  · exact ⟨_, by simp [step, byteCount, one, two, three, four, hexUnit?, vi, vj, vk, vl]; rfl⟩

/-- A string that is passed over takes any unit, one that is kept no half of a pair. -/
theorem takeUnit_cases (care : Care) (text : List Char) (lead : Option Nat) (unit : Nat) :
    (∃ r, takeUnit care text lead unit = .ok r ∧ Between care r) ∨
      care = .keep ∧ ∃ problem, takeUnit care text lead unit = .error problem := by
  cases care with
  | skip => exact Or.inl ⟨_, rfl, Or.inl ⟨_, rfl⟩⟩
  | keep =>
      cases lead with
      | none =>
          simp only [takeUnit]
          split_ifs
          · exact Or.inr ⟨trivial, _, rfl⟩
          · exact Or.inl ⟨_, rfl, Or.inr ⟨rfl, _, _, rfl⟩⟩
          · exact Or.inl ⟨_, rfl, Or.inl ⟨_, rfl⟩⟩
      | some lead =>
          simp only [takeUnit]
          split_ifs
          · exact Or.inl ⟨_, rfl, Or.inl ⟨_, rfl⟩⟩
          · exact Or.inr ⟨trivial, _, rfl⟩

theorem letter_cases {c : Char} (named : c ∈ ['"', '\\', '/', 'b', 'f', 'n', 'r', 't']) :
    c ≠ 'u' ∧ ∃ d, unescape? c = some d := by
  simp only [List.mem_cons, List.not_mem_nil, or_false] at named
  rcases named with rfl | rfl | rfl | rfl | rfl | rfl | rfl | rfl <;> exact ⟨by decide, _, rfl⟩

/-- A piece of a string leads on to the next one, or holds half a surrogate pair. -/
theorem moves_piece {p : List Char} (piece : QuotedPiece p) (between : Between care q) :
    (∃ r, Moves (step care) q p r ∧ Between care r) ∨
      care = .keep ∧ ∃ problem, Faults (step care) q p problem := by
  rcases between with ⟨text, rfl⟩ | ⟨rfl, text, lead, rfl⟩
  · cases piece with
    | @plain c quote backslash printable =>
        refine Or.inl ⟨_, .single (t := .plain (c :: text)) ?_, Or.inl ⟨_, rfl⟩⟩
        simp [step, quote, backslash, Nat.not_lt.mpr printable]
    | letter named =>
        obtain ⟨other, d, names⟩ := letter_cases named
        exact Or.inl ⟨_, moves_letter other names, Or.inl ⟨_, rfl⟩⟩
    | @unit a b c d digits =>
        obtain ⟨front, unit, last⟩ := moves_hex digits care text none
        have opened : Moves (step care) (.plain text) ['\\', 'u', a, b, c] (.hex text none [a, b, c]) :=
          .cons rfl (.cons rfl front)
        rcases takeUnit_cases care text none unit with ⟨r, taken, between⟩ | ⟨rfl, problem, refused⟩
        · rw [taken] at last
          exact Or.inl ⟨r, opened.append (.single last), between⟩
        · rw [refused] at last
          exact Or.inr ⟨rfl, problem, Faults.after opened (.single last)⟩
  · cases piece with
    | @plain c quote backslash printable =>
        exact Or.inr ⟨rfl, .malformed, .single (by simp [step, backslash])⟩
    | letter named =>
        obtain ⟨other, -⟩ := letter_cases named
        exact Or.inr ⟨rfl, .malformed, Faults.after (.single (t := .halfEscape text lead) rfl)
          (.single (by simp [step, other]))⟩
    | @unit a b c d digits =>
        obtain ⟨front, unit, last⟩ := moves_hex digits .keep text (some lead)
        have opened : Moves (step .keep) (.half text lead) ['\\', 'u', a, b, c]
            (.hex text (some lead) [a, b, c]) := .cons rfl (.cons rfl front)
        rcases takeUnit_cases .keep text (some lead) unit with
          ⟨r, taken, between⟩ | ⟨-, problem, refused⟩
        · rw [taken] at last
          exact Or.inl ⟨r, opened.append (.single last), between⟩
        · rw [refused] at last
          exact Or.inr ⟨rfl, problem, Faults.after opened (.single last)⟩

/-- A string in quotes brings its text, or is found to hold half a surrogate pair, and only a string
that is kept is. -/
theorem brings_rest {rest : List Char} (is : QuotedRest rest) (between : Between care q) :
    ∃ outcome, Brings care q rest outcome ∧ (care = .skip → ∃ s, outcome = .ok s) := by
  -- On the pieces; between two of them a string that is kept may wait for the second half of a pair.
  induction is generalizing q with
  | close =>
      rcases between with ⟨text, rfl⟩ | ⟨rfl, text, lead, rfl⟩
      · exact ⟨_, Brings.ends (.nil _) rfl, fun _ => ⟨_, rfl⟩⟩
      · exact ⟨_, Brings.faulty (.single rfl), nofun⟩
  | piece first more ih =>
      rcases moves_piece first between with ⟨r, moves, onward⟩ | ⟨rfl, problem, faults⟩
      · obtain ⟨outcome, brings, whole⟩ := ih onward
        exact ⟨outcome, brings.after moves, whole⟩
      · exact ⟨_, .faulty (faults.append _), nofun⟩

end Quoted

/-- A string with both its quotes is read to its end, or found to hold half a surrogate pair. -/
def BringsQuoted (care : Care) (cs : List Char) (outcome : Except ReadError String) : Prop :=
  ∃ rest, cs = '"' :: rest ∧ Quoted.Brings care (.plain []) rest outcome

theorem IsQuoted.brings {cs : List Char} (is : IsQuoted cs) (care : Care) :
    ∃ name, (care = .skip → ∃ s, name = .ok s) ∧ BringsQuoted care cs name := by
  obtain ⟨rest, quoted, rfl⟩ := is
  obtain ⟨name, brings, whole⟩ := Quoted.brings_rest quoted (Or.inl ⟨[], rfl⟩)
  exact ⟨name, whole, rest, rfl, brings⟩

theorem bringsQuoted_quote (s : String) : BringsQuoted .keep (quote s) (.ok s) := by
  obtain ⟨q, moves, ended⟩ := Quoted.reads_quote s
  exact ⟨_, rfl, .ends moves ended⟩

theorem isHexDigit_hexDigit : ∀ n < 16, IsHexDigit (hexDigit n) := by
  decide

theorem quotedPiece_escapeChar (c : Char) : QuotedPiece (escapeChar c) := by
  by_cases lettered : c ∈ letters.map Prod.fst
  · obtain ⟨p, member, rfl⟩ := List.mem_map.mp lettered
    rw [(escapeChar_letters p member).2.2]
    have named : ∀ p ∈ letters, p.2 ∈ ['"', '\\', '/', 'b', 'f', 'n', 'r', 't'] := by decide
    exact .letter (named p member)
  · have quote : c ≠ '"' := by
      rintro rfl
      exact lettered (by decide)
    have backslash : c ≠ '\\' := by
      rintro rfl
      exact lettered (by decide)
    rw [escapeChar_of_not_mem lettered]
    split
    case isTrue control =>
      have high := isHexDigit_hexDigit (c.toNat / 16) (by omega)
      have low := isHexDigit_hexDigit (c.toNat % 16) (by omega)
      have zero : IsHexDigit '0' := Or.inl rfl
      exact .unit (by simp [zero, high, low])
    case isFalse plain => exact .plain quote backslash (by omega)

theorem isQuoted_quote (s : String) : IsQuoted (quote s) := by
  refine ⟨_, ?_, rfl⟩
  induction s.toList with
  | nil => exact .close
  | cons c cs ih =>
      rw [List.flatMap_cons, List.append_assoc]
      exact .piece (quotedPiece_escapeChar c) ih

end Strings

end Switchboard.Json
