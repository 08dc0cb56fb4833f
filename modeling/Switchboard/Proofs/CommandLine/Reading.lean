import Switchboard.CommandLine.Invocation

/-! # What a command line that makes sense can hold

A parameter is checked when the next one begins, or an operand, or the words are at an end. So each
parameter that has been read has as many values as it takes, and a filter that is given more than once
has the values of all its occurrences one behind the other.
-/

namespace Switchboard.CommandLine

/-- Each parameter that was given has as many values as it takes. -/
def Reading.Fits (r : Reading) : Prop := ∀ given ∈ r.given, given.2.length = given.1.arity

namespace Reading

variable {r s : Reading}

theorem Fits.settle (fits : r.Fits) (settled : r.settle = .ok s) : s.Fits := by
  unfold Reading.settle at settled
  cases begun : r.begun with
  | none =>
      rw [begun] at settled
      cases settled
      exact fits
  | some last =>
      obtain ⟨p, values⟩ := last
      simp only [begun] at settled
      split at settled
      · rename_i allowed
        cases settled
        intro given member
        rcases List.mem_append.mp member with earlier | here
        · exact fits given earlier
        · cases List.mem_singleton.mp here
          simp only [allows, Bool.and_eq_true, beq_iff_eq] at allowed
          exact allowed.1.1
      · contradiction

theorem Fits.start (fits : r.Fits) {p : Parameter} {attached : Option String}
    (started : r.start p attached = .ok s) : s.Fits := by
  unfold Reading.start at started
  cases settled : r.settle with
  | error stop => simp [settled] at started
  | ok t =>
      have kept : t.Fits := fits.settle settled
      simp only [settled] at started
      split at started
      · contradiction
      · contradiction
      · refine Fits.settle ?_ started
        exact kept
      · split at started
        · refine Fits.settle ?_ started
          exact kept
        · cases started
          exact kept

theorem Fits.takeLetters (parameters : List Parameter) {letters : List Char} (fits : r.Fits)
    (taken : r.takeLetters parameters letters = .ok s) : s.Fits := by
  induction letters generalizing r with
  | nil =>
      cases taken
      exact fits
  | cons c cs ih =>
      unfold Reading.takeLetters at taken
      split at taken
      · contradiction
      · split at taken
        · split at taken
          · contradiction
          · rename_i started
            exact ih (fits.start started) taken
        · split at taken
          · exact fits.start taken
          · exact fits.start taken
          · exact fits.start taken

theorem Fits.takeOperands (fits : r.Fits) {texts : List String}
    (taken : r.takeOperands texts = .ok s) : s.Fits := by
  unfold Reading.takeOperands at taken
  cases settled : r.settle with
  | error stop => simp [settled, Except.map] at taken
  | ok t =>
      rw [settled] at taken
      cases taken
      have kept : t.Fits := fits.settle settled
      exact kept

theorem Fits.read (level : Level) {words rest : List String} (fits : r.Fits)
    (read : level.read r words = .ok (s, rest)) : s.Fits := by
  induction words generalizing r with
  | nil =>
      cases read
      exact fits
  | cons text words ih =>
      unfold Level.read at read
      split at read
      case h_1 =>
        split at read
        · contradiction
        · cases taken : r.takeOperands words with
          | error stop => simp [taken, Except.map] at read
          | ok t =>
              rw [taken] at read
              cases read
              exact fits.takeOperands taken
      case h_2 =>
        split at read
        · contradiction
        · split at read
          · contradiction
          · rename_i started
            exact ih (fits.start started) read
      case h_3 =>
        split at read
        · contradiction
        · rename_i taken
          exact ih (fits.takeLetters level.parameters taken) read
      case h_4 =>
        split at read
        · exact ih (r := r.takeValue text) fits read
        · split at read
          · split at read
            · contradiction
            · rename_i taken
              exact ih (fits.takeOperands taken) read
          · cases read
            exact fits

/-- The values of a parameter are those of its occurrences, and there is at least one of these. -/
theorem Fits.values? (fits : r.Fits) {p : Parameter} {values : List String}
    (given : r.values? p = some values) : ∃ times, values.length = (times + 1) * p.arity := by
  unfold Reading.values? at given
  split at given
  · contradiction
  · rename_i occurs
    cases given
    refine ⟨(r.given.filter (·.1 = p)).length - 1, ?_⟩
    have each : ∀ occurrence ∈ r.given.filter (·.1 = p), occurrence.2.length = p.arity := by
      intro occurrence member
      obtain ⟨member, same⟩ := List.mem_filter.mp member
      rw [fits occurrence member, of_decide_eq_true same]
    have filled := List.length_pos_iff.mpr occurs
    rw [List.length_flatMap, List.map_congr_left each, List.map_const', List.sum_replicate_nat,
      Nat.sub_add_cancel filled]

end Reading

theorem Task.read_filter {verb : Verb} {words : List String} {collection : String}
    {values : List String} (read : Task.read verb words = .ok (.list collection (some values))) :
    ∃ times, values.length = (times + 1) * 3 := by
  unfold Task.read at read
  split at read
  · contradiction
  · contradiction
  · rename_i r reached
    split at read
    · contradiction
    · rename_i s settled
      have fits : s.Fits := by
        refine Reading.Fits.settle (Reading.Fits.read _ ?_ reached) settled
        intro given member
        contradiction
      split at read
      · rename_i task made
        cases read
        have found : s.values? .filter = some values := by
          unfold Task.ofReading? at made
          split at made <;> simp_all
        exact fits.values? found
      · contradiction

theorem Invocation.read_parts {words : List String} {invocation : Invocation}
    (read : Invocation.read words = .ok invocation) :
    ∃ r verb rest, invocation.config = configure r ∧ Task.read verb rest = .ok invocation.task := by
  unfold Invocation.read at read
  split at read
  · contradiction
  · contradiction
  · rename_i r text rest reached
    split at read
    · contradiction
    · split at read
      · contradiction
      · rename_i verb known
        split at read
        · contradiction
        · rename_i task reads
          cases settled : r.settle with
          | error stop => simp [settled, Except.map] at read
          | ok s =>
              rw [settled] at read
              cases read
              exact ⟨s, verb, rest, rfl, reads⟩

/-- The values of a filter come in threes. -/
theorem Invocation.read_filter {words : List String} {invocation : Invocation}
    (read : Invocation.read words = .ok invocation) {collection : String} {values : List String}
    (lists : invocation.task = .list collection (some values)) :
    ∃ times, values.length = (times + 1) * 3 := by
  obtain ⟨r, verb, rest, -, reads⟩ := Invocation.read_parts read
  rw [lists] at reads
  exact Task.read_filter reads

/-- No word on the command line keeps requests waiting past the end of the connection. -/
theorem Invocation.read_rejectsOnClose {words : List String} {invocation : Invocation}
    (read : Invocation.read words = .ok invocation) : invocation.config.rejectsOnClose = true := by
  obtain ⟨r, verb, rest, configured, -⟩ := Invocation.read_parts read
  rw [configured]
  rfl

end Switchboard.CommandLine
