/-!
# Cutting texts

A text is cut at a separator, and the separator goes. Cutting at the first one undoes joining, as
long as there is no separator in front.
-/

namespace Switchboard

/-- Cuts at the first separator; without one all is in front. -/
def cutAt (separator : Char) : List Char → List Char × Option (List Char)
  | [] => ([], none)
  | c :: cs =>
    if c = separator then ([], some cs)
    else
      let (front, rest) := cutAt separator cs
      (c :: front, rest)

theorem cutAt_append (separator : Char) {front : List Char} (rest : List Char)
    (h : separator ∉ front) : cutAt separator (front ++ separator :: rest) = (front, some rest) := by
  induction front with
  | nil => simp [cutAt]
  | cons c cs ih =>
    obtain ⟨hc, hcs⟩ := not_or.mp (mt List.mem_cons.mpr h)
    simp [cutAt, Ne.symm hc, ih hcs]

/-- Where the first separator stands is no matter of choice. -/
theorem eq_of_append_separator {separator : Char} {front other rest more : List Char}
    (h : separator ∉ front) (h' : separator ∉ other)
    (same : front ++ separator :: rest = other ++ separator :: more) : front = other ∧ rest = more := by
  have cut := congrArg (cutAt separator) same
  rw [cutAt_append separator rest h, cutAt_append separator more h'] at cut
  obtain ⟨fronts, rests⟩ := Prod.mk.inj cut
  exact ⟨fronts, Option.some.inj rests⟩

theorem cutAt_of_not_mem {separator : Char} {cs : List Char} (h : separator ∉ cs) :
    cutAt separator cs = (cs, none) := by
  induction cs with
  | nil => rfl
  | cons c cs ih =>
    obtain ⟨hc, hcs⟩ := not_or.mp (mt List.mem_cons.mpr h)
    simp [cutAt, Ne.symm hc, ih hcs]

theorem cutAt_fst (separator : Char) (cs : List Char) :
    (cutAt separator cs).1 = cs.takeWhile (· ≠ separator) := by
  induction cs with
  | nil => rfl
  | cons c cs ih =>
    by_cases here : c = separator
    · simp [cutAt, here]
    · simp [cutAt, here, ih]

/-- Cuts at the last separator; `none` if there is none. -/
def cutAtLast (separator : Char) : List Char → Option (List Char × List Char)
  | [] => none
  | c :: cs =>
    match cutAtLast separator cs with
    | some (front, rest) => some (c :: front, rest)
    | none => if c = separator then some ([], cs) else none

end Switchboard
