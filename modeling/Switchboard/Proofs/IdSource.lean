import Switchboard.Proofs.RequestId

/-! # Which identifiers a source hands out

The clock may stand still, jump or step back, and a jump ahead is felt by every identifier after it. Still
the readings up to an identifier are all that it depends on, and they give it at once: each of them counts
for itself and one more for every identifier since. Asking which identifier comes next leaves no trace.
-/

namespace Switchboard.IdSource

/-- What a source can be asked for. -/
inductive Call where
  /-- Hand out an identifier. -/
  | next (now : UInt64)
  /-- Say which identifier would be handed out. -/
  | peek (now : UInt64)

/-- The reading of the clock at a call that hands out an identifier. -/
def Call.reading? : Call → Option UInt64
  | .next now => some now
  | .peek _ => none

def readings (calls : List Call) : List UInt64 := calls.filterMap Call.reading?

def answer (source : IdSource) : Call → RequestId × IdSource
  | .next now => source.next now
  | .peek now => (source.peek now, source)

def after (source : IdSource) (calls : List Call) : IdSource :=
  calls.foldl (fun source call => (source.answer call).2) source

/-- The identifiers that are handed out in the course of some calls, in order. -/
def handedOut (source : IdSource) : List Call → List RequestId
  | [] => []
  | call :: rest =>
    let (id, source) := source.answer call
    (call.reading?.map fun _ => id).toList ++ source.handedOut rest

/-- What each reading has come to at the last of them, when one identifier more is gone for each. -/
def raised (readings : List UInt64) : List Nat :=
  readings.mapIdx fun j now => now.toNat + (readings.length - (j + 1))

/-- The identifier that is handed out at the last of some readings. -/
def closedForm (readings : List UInt64) : IdStrategy → Nat
  | .counter => readings.length
  | .timestamp => (raised readings).foldl max readings.length

section ClosedForm

variable {strategy : IdStrategy}

theorem raised_concat (readings : List UInt64) (now : UInt64) :
    raised (readings ++ [now]) = (raised readings).map (· + 1) ++ [now.toNat] := by
  apply List.ext_getElem
  · simp [raised]
  · intro j inside _
    rw [raised, List.length_mapIdx, List.length_append, List.length_singleton] at inside
    by_cases last : j = readings.length
    · simp [raised, last]
    · have earlier : j < readings.length := by omega
      simp [raised, earlier]
      omega

theorem foldl_max_map_succ (ns : List Nat) (n : Nat) :
    (ns.map (· + 1)).foldl max (n + 1) = ns.foldl max n + 1 := by
  induction ns generalizing n with
  | nil => rfl
  | cons m ns ih => rw [List.map_cons, List.foldl_cons, List.foldl_cons, Nat.add_max_add_right, ih]

theorem foldl_max_lt {ns : List Nat} {n bound : Nat} (first : n < bound)
    (all : ∀ m ∈ ns, m < bound) : ns.foldl max n < bound := by
  induction ns generalizing n with
  | nil => exact first
  | cons m ns ih =>
      obtain ⟨here, later⟩ := List.forall_mem_cons.mp all
      exact ih (Nat.max_lt.mpr ⟨first, here⟩) later

theorem closedForm_concat_counter (readings : List UInt64) (now : UInt64) :
    closedForm (readings ++ [now]) .counter = closedForm readings .counter + 1 := by
  simp only [closedForm, List.length_append, List.length_singleton]

/-- One reading more raises all that came before it by one. -/
theorem closedForm_concat_timestamp (readings : List UInt64) (now : UInt64) :
    closedForm (readings ++ [now]) .timestamp =
      max now.toNat (closedForm readings .timestamp + 1) := by
  simp only [closedForm, raised_concat, List.foldl_append, List.length_append, List.length_singleton,
    foldl_max_map_succ, List.foldl_cons, List.foldl_nil]
  exact Nat.max_comm _ _

theorem succ_closedForm_lt {readings : List UInt64} {bound : Nat}
    (count : readings.length + 1 < bound)
    (clock : strategy = .timestamp → ∀ now ∈ readings, now.toNat + readings.length < bound) :
    closedForm readings strategy + 1 < bound := by
  cases strategy with
  | counter => exact count
  | timestamp =>
      rw [closedForm, ← foldl_max_map_succ]
      refine foldl_max_lt count ?_
      intro m member
      obtain ⟨n, among, rfl⟩ := List.mem_map.mp member
      obtain ⟨j, inside, rfl⟩ := List.mem_mapIdx.mp among
      have reading := clock rfl _ (List.getElem_mem inside)
      omega

end ClosedForm

section Calls

variable {source : IdSource} {strategy : IdStrategy} {calls : List Call}

theorem readings_concat (calls : List Call) (call : Call) :
    readings (calls ++ [call]) = readings calls ++ call.reading?.toList := by
  rw [readings, List.filterMap_append]
  cases call <;> rfl

theorem after_concat (source : IdSource) (calls : List Call) (call : Call) :
    source.after (calls ++ [call]) = ((source.after calls).answer call).2 := by
  rw [after, List.foldl_append]
  rfl

theorem handedOut_concat (source : IdSource) (calls : List Call) (call : Call) :
    source.handedOut (calls ++ [call]) =
      source.handedOut calls ++
        (call.reading?.map fun _ => ((source.after calls).answer call).1).toList := by
  induction calls generalizing source with
  | nil => simp [handedOut, after]
  | cons first rest ih => simp only [List.cons_append, handedOut, ih, List.append_assoc]; rfl

def fresh (strategy : IdStrategy) : IdSource := { strategy }

/-- Where a source stands after some calls: what it handed out last comes from the readings alone, and
there is nothing past it. -/
structure Standing (strategy : IdStrategy) (calls : List Call) (source : IdSource) : Prop where
  reached : source = (fresh strategy).after calls
  follows : source.strategy = strategy
  last : source.last.toNat = closedForm (readings calls) strategy
  ascending : ((fresh strategy).handedOut calls).Pairwise (· < ·)
  bounded : ∀ id ∈ (fresh strategy).handedOut calls, id.value.toNat ≤ source.last.toNat
  newest : source.last = 0 ∨ ∃ id ∈ (fresh strategy).handedOut calls, id.value = source.last

namespace Standing

theorem fresh (strategy : IdStrategy) : Standing strategy [] (fresh strategy) where
  reached := rfl
  follows := rfl
  last := by cases strategy <;> rfl
  ascending := List.Pairwise.nil
  bounded := by simp [handedOut]
  newest := Or.inl rfl

theorem peek_eq (standing : Standing strategy calls source) (room : source.HasNext) (now : UInt64) :
    (source.peek now).value.toNat = closedForm (readings calls ++ [now]) strategy := by
  cases strategy with
  | counter =>
      rw [toNat_peek_counter room standing.follows, standing.last, closedForm_concat_counter]
  | timestamp =>
      rw [toNat_peek_timestamp room standing.follows, standing.last, closedForm_concat_timestamp]

/-- No smaller number would do. -/
theorem isLeast_peek (standing : Standing strategy calls source) (room : source.HasNext)
    (now : UInt64) :
    IsLeast {n | (∀ id ∈ (IdSource.fresh strategy).handedOut calls, id.value.toNat < n) ∧ 0 < n ∧
      (strategy = .timestamp → now.toNat ≤ n)} (source.peek now).value.toNat := by
  have past := last_lt_peek room now
  constructor
  · refine ⟨fun id member => Nat.lt_of_le_of_lt (standing.bounded id member) past, by omega, ?_⟩
    rintro rfl
    rw [toNat_peek_timestamp room standing.follows]
    exact Nat.le_max_left _ _
  · rintro n ⟨above, positive, reading⟩
    have beyond : source.last.toNat + 1 ≤ n := by
      rcases standing.newest with zero | ⟨id, member, same⟩
      · rw [zero]
        exact positive
      · rw [← same]
        exact above id member
    cases strategy with
    | counter => rwa [toNat_peek_counter room standing.follows]
    | timestamp =>
        rw [toNat_peek_timestamp room standing.follows]
        exact Nat.max_le.mpr ⟨reading rfl, beyond⟩

end Standing

/-- An identifier for each reading is a 64-bit word, and the clock never reads so much that it would
matter. A counter does not look at the clock. -/
structure LeavesRoom (strategy : IdStrategy) (calls : List Call) : Prop where
  count : (readings calls).length < 2 ^ 64
  clock : strategy = .timestamp → ∀ now ∈ readings calls, now.toNat + (readings calls).length < 2 ^ 64

theorem LeavesRoom.of_append {before later : List Call} (leaves : LeavesRoom strategy (before ++ later)) :
    LeavesRoom strategy before := by
  have split : readings (before ++ later) = readings before ++ readings later := List.filterMap_append
  obtain ⟨count, clock⟩ := leaves
  rw [split, List.length_append] at count clock
  refine ⟨by omega, fun chosen now member => ?_⟩
  have reading := clock chosen now (List.mem_append_left _ member)
  omega

theorem Standing.hasNext (standing : Standing strategy calls source)
    (leaves : LeavesRoom strategy calls) (more : (readings calls).length + 1 < 2 ^ 64) :
    source.HasNext := by
  rw [HasNext, standing.last]
  exact succ_closedForm_lt more leaves.clock

namespace Standing

theorem next (standing : Standing strategy calls source) (room : source.HasNext) (now : UInt64) :
    Standing strategy (calls ++ [.next now]) (source.next now).2 := by
  have past := last_lt_peek room now
  have before : ∀ id ∈ (IdSource.fresh strategy).handedOut calls, id < source.peek now :=
    fun id member => Nat.lt_of_le_of_lt (standing.bounded id member) past
  have one : (IdSource.fresh strategy).handedOut (calls ++ [.next now]) =
      (IdSource.fresh strategy).handedOut calls ++ [source.peek now] := by
    rw [handedOut_concat, ← standing.reached]
    rfl
  constructor
  case reached =>
    rw [after_concat, ← standing.reached]
    rfl
  case follows => rw [next_strategy, standing.follows]
  case last =>
    rw [next_last, standing.peek_eq room, readings_concat]
    rfl
  case ascending =>
    rw [one, List.pairwise_append]
    refine ⟨standing.ascending, List.pairwise_singleton _ _, fun id member other last => ?_⟩
    rw [List.mem_singleton.mp last]
    exact before id member
  case bounded =>
    intro id member
    rw [one, List.mem_append, List.mem_singleton] at member
    rcases member with earlier | rfl
    · exact Nat.le_of_lt (before id earlier)
    · exact Nat.le_refl _
  case newest => exact Or.inr ⟨source.peek now, by simp [one], rfl⟩

theorem peek (standing : Standing strategy calls source) (now : UInt64) :
    Standing strategy (calls ++ [.peek now]) source := by
  have silent : readings (calls ++ [.peek now]) = readings calls := by
    simp [readings_concat, Call.reading?]
  have none : (IdSource.fresh strategy).handedOut (calls ++ [.peek now]) =
      (IdSource.fresh strategy).handedOut calls := by
    simp [handedOut_concat, Call.reading?]
  constructor
  case reached =>
    rw [after_concat, ← standing.reached]
    rfl
  case follows => exact standing.follows
  case last => rw [silent, standing.last]
  case ascending => rw [none]; exact standing.ascending
  case bounded => rw [none]; exact standing.bounded
  case newest => rw [none]; exact standing.newest

end Standing

theorem standing_after (leaves : LeavesRoom strategy calls) :
    Standing strategy calls ((fresh strategy).after calls) := by
  induction calls using List.reverseRecOn with
  | nil => exact .fresh strategy
  | append_singleton calls call ih =>
      have standing := ih leaves.of_append
      rw [after_concat]
      cases call with
      | next now =>
          have count := leaves.count
          rw [readings_concat, List.length_append] at count
          exact standing.next (standing.hasNext leaves.of_append count) now
      | peek now => exact standing.peek now

/-- Only the calls that hand out an identifier count, and of them only the readings. -/
theorem handedOut_eq_handedOut_readings (source : IdSource) (calls : List Call) :
    source.handedOut calls = source.handedOut ((readings calls).map .next) := by
  induction calls generalizing source with
  | nil => rfl
  | cons call rest ih =>
      cases call with
      | next now => exact congrArg ((source.next now).1 :: ·) (ih (source.next now).2)
      | peek now => exact ih source

/-- What a source hands out, and what it says it would, is known from the clock. -/
structure Foreseeable (strategy : IdStrategy) (calls : List Call) : Prop where
  /-- The next number is always a word, and an identifier is the closed form of the readings up to it. It
  is the least number past zero and past every earlier identifier, or what the clock reads if that is
  more. -/
  handed : ∀ before now later, calls = before ++ .next now :: later →
    let source := (fresh strategy).after before
    let id := (source.next now).1.value.toNat
    source.HasNext ∧ id = closedForm (readings before ++ [now]) strategy ∧
      IsLeast {n | (∀ id ∈ (fresh strategy).handedOut before, id.value.toNat < n) ∧ 0 < n ∧
        (strategy = .timestamp → now.toNat ≤ n)} id
  /-- Whoever asks is told what would be handed out at the same reading. As long as there is an identifier
  left to count to, that is the closed form too, and the next number is a word. -/
  told : ∀ before now later, calls = before ++ .peek now :: later →
    let source := (fresh strategy).after before
    (source.answer (.peek now)).1 = (source.answer (.next now)).1 ∧
      ((readings before).length + 1 < 2 ^ 64 →
        source.HasNext ∧
          (source.peek now).value.toNat = closedForm (readings before ++ [now]) strategy)
  /-- Identifiers are handed out in strictly ascending order. -/
  ascending : ((fresh strategy).handedOut calls).Pairwise (· < ·)
  /-- They are the same whatever was asked in between. -/
  unswayed : ∀ others, readings others = readings calls →
    (fresh strategy).handedOut others = (fresh strategy).handedOut calls

/-- Every source is foreseeable, however its clock goes, as long as no reading of it comes to `2 ^ 64` with
the number of identifiers handed out. -/
theorem identifiers_in_closed_form (strategy : IdStrategy) (calls : List Call)
    (leaves : LeavesRoom strategy calls) : Foreseeable strategy calls := by
  constructor
  case handed =>
    rintro before now later rfl
    have standing := standing_after leaves.of_append
    have count := leaves.count
    rw [List.append_cons, readings, List.filterMap_append, List.length_append, ← readings,
      readings_concat, List.length_append] at count
    have room := standing.hasNext leaves.of_append (Nat.lt_of_le_of_lt (Nat.le_add_right _ _) count)
    exact ⟨room, standing.peek_eq room now, standing.isLeast_peek room now⟩
  case told =>
    rintro before now later rfl
    refine ⟨rfl, fun more => ?_⟩
    have standing := standing_after leaves.of_append
    have room := standing.hasNext leaves.of_append more
    exact ⟨room, standing.peek_eq room now⟩
  case ascending => exact (standing_after leaves).ascending
  case unswayed =>
    intro others same
    rw [handedOut_eq_handedOut_readings, same, ← handedOut_eq_handedOut_readings]

/-- A clock that starts at zero, stands still, jumps ahead and steps back. -/
def restlessClock : List Call :=
  [.next 0, .peek 9, .next 5, .next 5, .next 3, .peek 2, .next 100, .peek 200, .next 4]

theorem identifiers_in_closed_form_restlessClock :
    LeavesRoom .timestamp restlessClock ∧
      closedForm [0, 5, 5, 3, 100, 4] .timestamp = 101 ∧
      (((fresh .timestamp).after (restlessClock.take 8)).next 4).1.value.toNat = 101 ∧
      ((fresh .timestamp).handedOut restlessClock).Pairwise (· < ·) := by
  have times : readings restlessClock = [0, 5, 5, 3, 100, 4] := rfl
  have leaves : LeavesRoom .timestamp restlessClock := by
    constructor <;> simp [times]
  have foreseeable := identifiers_in_closed_form .timestamp restlessClock leaves
  obtain ⟨-, last, -⟩ := foreseeable.handed (restlessClock.take 8) 4 [] rfl
  have value : closedForm [0, 5, 5, 3, 100, 4] .timestamp = 101 := by decide +kernel
  exact ⟨leaves, value, last.trans value, foreseeable.ascending⟩

end Calls

end Switchboard.IdSource
