import Switchboard.Proofs.Exchange.History

/-! # Identifiers of a run

The table never sees an identifier twice. Pending identifiers are at most the last one handed out,
and every new one is past it, so an insertion never finds an entry in its way. Which requests have
been answered, withdrawn or refused by then plays no part.
-/

namespace Switchboard

/-- A request frame carries an identifier: its token stands between the marker and the verb. -/
def Carries (frame : String) (id : RequestId) : Prop :=
  ∃ rest, frame = marker ++ " " ++ id.token ++ " " ++ rest

theorem carries_requestFrame (id : RequestId) (verb : String) (arguments : List String) :
    Carries (requestFrame id verb arguments) id := ⟨_, rfl⟩

/-- A frame carries one identifier at most. A token has no blank, so the cut at the first blank after
the marker gives it back. -/
theorem Carries.unique {frame : String} {a b : RequestId} (first : Carries frame a)
    (second : Carries frame b) : a = b := by
  obtain ⟨rest, rfl⟩ := first
  obtain ⟨other, same⟩ := second
  have texts := congrArg String.toList same
  simp only [String.toList_append, List.append_assoc, List.append_cancel_left_eq] at texts
  have blank : " ".toList = [' '] := rfl
  rw [blank, List.singleton_append, List.singleton_append] at texts
  have tokens := (eq_of_append_separator (RequestId.blank_not_mem_token a)
    (RequestId.blank_not_mem_token b) texts).1
  exact RequestId.token_injective (String.toList_injective tokens)

namespace Exchange

/-- The table is in order, and it holds only identifiers that were handed out. -/
structure Ordered (x : Exchange) : Prop where
  ascending : x.pending.Ascending
  issued : ∀ p ∈ x.pending.entries, p.id.value ≤ x.ids.last

/-- The identifiers that a step hands out. A rejected request has none of its own. -/
def issuedBy (x : Exchange) : Step → List RequestId
  | .dispatch now verb arguments handover =>
    if x.isClosed then [] else [(x.dispatch now verb arguments handover).1.id]
  | _ => []

/-- The identifiers that dispatches on the open exchange hand out in a run, in order. -/
def issued (x : Exchange) : List Step → List RequestId
  | [] => []
  | s :: rest => x.issuedBy s ++ (x.step s).2.issued rest

def readings (steps : List Step) : List UInt64 :=
  steps.filterMap fun
    | .dispatch now _ _ _ => some now
    | _ => none

def Observation.frame? : Observation → Option String
  | .dispatched d => d.frame
  | _ => none

/-- The frames that a run hands to the transport, in order. -/
def sentFrames (x : Exchange) (steps : List Step) : List String :=
  (x.run steps).1.filterMap Observation.frame?

variable {x : Exchange}

namespace Ordered

theorem fresh (strategy : IdStrategy) (rejectsOnClose : Bool) :
    Ordered (Exchange.fresh strategy rejectsOnClose) where
  ascending := PendingTable.ascending_empty
  issued := by simp [Exchange.fresh]

theorem settle (ordered : Ordered x) (id : RequestId) (f : Mailbox → Mailbox) :
    Ordered (x.settle id f) where
  ascending := by
    rw [settle_pending]
    exact PendingTable.ascending_erase ordered.ascending id
  issued := by
    intro p member
    rw [settle_pending, PendingTable.mem_erase] at member
    rw [settle_ids]
    exact ordered.issued p member.1

theorem undergo (ordered : Ordered x) (h : Happening) : Ordered (x.undergo h) :=
  undergo_induction Ordered.ascending (fun _ id f _ kept => kept.settle id f)
    (fun _ kept => ⟨kept.ascending, kept.issued⟩) h ordered

theorem undergoAll (ordered : Ordered x) (hs : List Happening) : Ordered (x.undergoAll hs) :=
  undergoAll_induction (fun _ h _ kept => kept.undergo h) ordered

theorem value_le_last (ordered : Ordered x) {id : RequestId} (member : id ∈ x.pending.ids) :
    id.value ≤ x.ids.last := by
  obtain ⟨p, inside, rfl⟩ := PendingTable.mem_ids.mp member
  exact ordered.issued p inside

theorem peek_not_mem (ordered : Ordered x) (room : x.ids.HasNext) (now : UInt64) :
    x.ids.peek now ∉ x.pending.ids := by
  intro member
  have old := UInt64.le_iff_toNat_le.mp (ordered.value_le_last member)
  have new := IdSource.last_lt_peek room now
  omega

theorem issue_entries_perm (ordered : Ordered x) (room : x.ids.HasNext) (now : UInt64)
    (verb : String) :
    (x.issue now verb).2.pending.entries.Perm
      (⟨x.ids.peek now, verb, x.mailroom.nextTicket⟩ :: x.pending.entries) :=
  PendingTable.insert_perm (ordered.peek_not_mem room now)

theorem issue (ordered : Ordered x) (room : x.ids.HasNext) (now : UInt64) (verb : String) :
    Ordered (x.issue now verb).2 where
  ascending := PendingTable.ascending_insert (ordered.peek_not_mem room now) ordered.ascending
  issued := by
    intro p member
    rcases (PendingTable.mem_insert (ordered.peek_not_mem room now)).mp member with rfl | old
    · exact UInt64.le_refl _
    · have below := UInt64.le_iff_toNat_le.mp (ordered.issued p old)
      have past := IdSource.last_lt_peek room now
      exact UInt64.le_iff_toNat_le.mpr (Nat.le_trans below (Nat.le_of_lt past))

theorem touch (ordered : Ordered x) (ticket : Ticket) (f : Mailbox → Mailbox) :
    Ordered (x.touch ticket f) := ⟨ordered.ascending, ordered.issued⟩

theorem enter (ordered : Ordered x) {s : Step} (issuable : x.Issuable s) :
    Ordered (x.enter s) := by
  rcases x.enter_cases s with
    ⟨now, verb, arguments, handover, rfl, ⟨isOpen, same⟩ | ⟨reason, -, same⟩⟩ | ⟨e, -, same⟩ |
    ⟨ticket, -, same | same⟩ <;> rw [same]
  · exact ordered.issue (issuable isOpen) now verb
  · exact ⟨ordered.ascending, ordered.issued⟩
  · exact ordered
  · exact ordered.touch ticket _
  · exact ordered.touch ticket _

theorem step (ordered : Ordered x) {s : Step} (issuable : x.Issuable s) :
    Ordered (x.step s).2 := by
  rw [step_snd]
  exact (ordered.enter issuable).undergoAll _

theorem after (ordered : Ordered x) {steps : List Step} (along : x.Along Issuable steps) :
    Ordered (x.after steps) :=
  after_induction (fun _ _ kept issuable => kept.enter issuable) (fun _ h _ kept => kept.undergo h)
    ordered along

theorem moments (ordered : Ordered x) {steps : List Step} (along : x.Along Issuable steps) :
    ∀ m ∈ x.moments steps, Ordered m.1 :=
  moments_induction (fun _ _ kept issuable => kept.enter issuable) (fun _ h kept => kept.undergo h)
    ordered along

end Ordered

theorem issuedBy_of_open (isOpen : x.closedFor = none) (now : UInt64) (verb : String)
    (arguments : List String) (handover : Handover) :
    x.issuedBy (.dispatch now verb arguments handover) = [x.ids.peek now] := by
  simp only [issuedBy, isClosed, isOpen, Option.isSome_none, Bool.false_eq_true, if_false, dispatch,
    issue, IdSource.next]

theorem issuedBy_of_closed {reason : String} (closed : x.closedFor = some reason) (now : UInt64)
    (verb : String) (arguments : List String) (handover : Handover) :
    x.issuedBy (.dispatch now verb arguments handover) = [] := by
  simp only [issuedBy, isClosed, closed, Option.isSome_some, if_true]

theorem issuedBy_of_ticket? {s : Step} {ticket : Ticket} (looks : s.ticket? = some ticket) :
    x.issuedBy s = [] := by
  cases s with
  | dispatch | event => contradiction
  | poll | waitFor | wait | discard => rfl

/-- Only a dispatch on the open exchange hands out an identifier, and no other step moves the source. -/
theorem step_ids (x : Exchange) (s : Step) :
    (x.issuedBy s = [] ∧ (x.step s).2.ids = x.ids) ∨
      ∃ now verb arguments handover, s = .dispatch now verb arguments handover ∧
        x.closedFor = none ∧ x.issuedBy s = [x.ids.peek now] ∧
        (x.step s).2.ids = (x.ids.next now).2 := by
  rw [step_snd, undergoAll_ids]
  rcases x.enter_cases s with
    ⟨now, verb, arguments, handover, rfl, ⟨isOpen, same⟩ | ⟨reason, closed, same⟩⟩ | ⟨e, rfl, same⟩ |
    ⟨ticket, looks, same | same⟩ <;> rw [same]
  · right
    exact ⟨now, verb, arguments, handover, rfl, isOpen, issuedBy_of_open isOpen now verb _ _, rfl⟩
  · exact Or.inl ⟨issuedBy_of_closed closed now verb _ _, rfl⟩
  · exact Or.inl ⟨rfl, rfl⟩
  · exact Or.inl ⟨issuedBy_of_ticket? looks, rfl⟩
  · exact Or.inl ⟨issuedBy_of_ticket? looks, rfl⟩

/-- Identifiers are handed out in ascending order, all of them past the last one before the run. -/
theorem issued_ascending {steps : List Step} (along : x.Along Issuable steps) :
    (x.issued steps).Pairwise (· < ·) ∧
      ∀ id ∈ x.issued steps, x.ids.last.toNat < id.value.toNat := by
  induction steps generalizing x with
  | nil => exact ⟨List.Pairwise.nil, by simp [issued]⟩
  | cons s rest ih =>
      obtain ⟨issuable, later⟩ := along
      obtain ⟨ascending, above⟩ := ih later
      rcases x.step_ids s with
        ⟨none, kept⟩ | ⟨now, verb, arguments, handover, rfl, isOpen, one, moved⟩
      · rw [kept] at above
        simp only [issued, none, List.nil_append]
        exact ⟨ascending, above⟩
      · rw [moved, IdSource.next_last] at above
        have past := IdSource.last_lt_peek (issuable isOpen) now
        simp only [issued, one, List.singleton_append, List.pairwise_cons, List.forall_mem_cons]
        refine ⟨⟨above, ascending⟩, past, ?_⟩
        intro id member
        exact Nat.lt_trans past (above id member)

theorem sentFrames_cons (x : Exchange) (s : Step) (rest : List Step) :
    x.sentFrames (s :: rest) =
      (x.step s).1.frame?.toList ++ (x.step s).2.sentFrames rest := by
  cases sent : (x.step s).1.frame? with
  | none => exact List.filterMap_cons_none sent
  | some frame => exact List.filterMap_cons_some sent

/-- A step sends a frame just when it hands out an identifier, and the frame carries it. -/
theorem frame?_carries (x : Exchange) (s : Step) :
    List.Forall₂ Carries (x.step s).1.frame?.toList (x.issuedBy s) := by
  cases s with
  | dispatch now verb arguments handover =>
      cases closed : x.closedFor with
      | none =>
          have isOpen : x.isClosed = false := by simp only [isClosed, closed, Option.isSome_none]
          have sent : (x.dispatch now verb arguments handover).1.frame =
              some (requestFrame (x.dispatch now verb arguments handover).1.id verb arguments) := by
            simp only [dispatch, closed]
          simp only [step, Observation.frame?, sent, issuedBy, isOpen, Bool.false_eq_true, if_false]
          exact List.Forall₂.cons (carries_requestFrame _ verb arguments) List.Forall₂.nil
      | some reason =>
          have isClosed : x.isClosed = true := by
            simp only [Exchange.isClosed, closed, Option.isSome_some]
          have unsent : (x.dispatch now verb arguments handover).1.frame = none := by
            simp only [dispatch, closed]
          simp only [step, Observation.frame?, unsent, issuedBy, isClosed, if_true]
          exact List.Forall₂.nil
  | event | poll | waitFor | wait | discard => exact List.Forall₂.nil

theorem sentFrames_carry (x : Exchange) (steps : List Step) :
    List.Forall₂ Carries (x.sentFrames steps) (x.issued steps) := by
  induction steps generalizing x with
  | nil => exact List.Forall₂.nil
  | cons s rest ih =>
      rw [sentFrames_cons]
      exact List.rel_append (x.frame?_carries s) (ih (x.step s).2)

theorem disjoint_frames {frames : List String} {ids : List RequestId}
    (carry : List.Forall₂ Carries frames ids) (ascending : ids.Pairwise (· < ·)) :
    frames.Pairwise fun f g => ∀ id, Carries f id → ¬ Carries g id := by
  rw [List.pairwise_iff_getElem] at ascending ⊢
  intro i j insideI insideJ before id first second
  have length := carry.length_eq
  have carriesI : Carries frames[i] ids[i] := carry.get insideI (by omega)
  have carriesJ : Carries frames[j] ids[j] := carry.get insideJ (by omega)
  have same : ids[i] = ids[j] := (first.unique carriesI).symm.trans (second.unique carriesJ)
  exact RequestId.ne_of_lt (ascending i j (by omega) (by omega) before) same

theorem step_strategy (x : Exchange) (s : Step) :
    (x.step s).2.ids.strategy = x.ids.strategy := by
  rcases x.step_ids s with ⟨-, kept⟩ | ⟨now, verb, arguments, handover, -, -, -, moved⟩
  · rw [kept]
  · rw [moved, IdSource.next_strategy]

theorem issuable_of_issuedBy_nil {s : Step} (none : x.issuedBy s = []) : x.Issuable s := by
  cases s with
  | dispatch now verb arguments handover =>
      intro isOpen
      simp only [issuedBy, isClosed, isOpen, Option.isSome_none, Bool.false_eq_true, if_false,
        List.cons_ne_nil] at none
  | event | poll | waitFor | wait | discard => trivial

theorem readings_subset (s : Step) (rest : List Step) : readings rest ⊆ readings (s :: rest) :=
  ((List.sublist_cons_self s rest).filterMap _).subset

/-- Readings of the clock that leave room for all identifiers of a run leave room for each. With every
identifier handed out the last one grows, by one or to the reading, and one less is left to come. -/
theorem along_issuable {steps : List Step}
    (count : x.ids.last.toNat + (x.issued steps).length < 2 ^ 64)
    (clock : x.ids.strategy = .timestamp →
      ∀ now ∈ readings steps, now.toNat + (x.issued steps).length < 2 ^ 64) :
    x.Along Issuable steps := by
  induction steps generalizing x with
  | nil => trivial
  | cons s rest ih =>
      rcases x.step_ids s with
        ⟨none, kept⟩ | ⟨now, verb, arguments, handover, rfl, isOpen, one, moved⟩
      · simp only [issued, none, List.nil_append] at count clock
        refine ⟨issuable_of_issuedBy_nil none, ih (by rwa [kept]) ?_⟩
        intro strategy now member
        rw [step_strategy] at strategy
        exact clock strategy now (readings_subset s rest member)
      · simp only [issued, one, List.singleton_append, List.length_cons] at count clock
        have room : x.ids.HasNext := by
          have size : UInt64.size = 2 ^ 64 := rfl
          rw [IdSource.HasNext, size]
          omega
        refine ⟨fun _ => room, ih ?_ ?_⟩
        · rw [moved, IdSource.next_last]
          cases strategy : x.ids.strategy with
          | counter =>
              rw [IdSource.toNat_peek_counter room strategy]
              omega
          | timestamp =>
              have reading := clock strategy now List.mem_cons_self
              rw [IdSource.toNat_peek_timestamp room strategy]
              omega
        · intro strategy later member
          rw [step_strategy] at strategy
          have reading := clock strategy later (readings_subset _ rest member)
          omega

/-- No identifier of a run stands in the way of another. -/
structure DistinctIdentifiers (x : Exchange) (steps : List Step) : Prop where
  /-- They are handed out in strictly ascending order. -/
  ascending : (x.issued steps).Pairwise (· < ·)
  /-- Nothing pending is past the last one, be it at the end or while something happens. -/
  bounded : (∀ id ∈ (x.after steps).pending.ids, id.value ≤ (x.after steps).ids.last) ∧
    ∀ m ∈ x.moments steps, ∀ id ∈ m.1.pending.ids, id.value ≤ m.1.ids.last
  /-- A new entry finds its place free. -/
  free : ∀ before now verb arguments handover later,
    steps = before ++ .dispatch now verb arguments handover :: later →
    (x.after before).closedFor = none →
    (x.after before).pending.contains ((x.after before).ids.peek now) = false
  /-- A new entry pushes no other out of the table. -/
  added : ∀ before now verb arguments handover later,
    steps = before ++ .dispatch now verb arguments handover :: later →
    (x.after before).closedFor = none →
    ((x.after before).issue now verb).2.pending.entries.Perm
      (⟨(x.after before).ids.peek now, verb, (x.after before).mailroom.nextTicket⟩ ::
        (x.after before).pending.entries)
  /-- No two frames carry the same identifier. -/
  frames : (x.sentFrames steps).Pairwise fun f g => ∀ id, Carries f id → ¬ Carries g id

theorem distinctIdentifiers (ordered : Ordered x) {steps : List Step}
    (along : x.Along Issuable steps) : DistinctIdentifiers x steps := by
  have ascending := (issued_ascending along).1
  have reached : ∀ before now verb arguments handover later,
      steps = before ++ .dispatch now verb arguments handover :: later →
      (x.after before).closedFor = none →
      Ordered (x.after before) ∧ (x.after before).ids.HasNext := by
    rintro before now verb arguments handover later rfl isOpen
    obtain ⟨first, issuable, -⟩ := along_append.mp along
    exact ⟨ordered.after first, issuable isOpen⟩
  refine ⟨ascending, ?_, ?_, ?_, disjoint_frames (x.sentFrames_carry steps) ascending⟩
  · exact ⟨fun _ => (ordered.after along).value_le_last,
      fun m moment _ => (ordered.moments along m moment).value_le_last⟩
  · intro before now verb arguments handover later split isOpen
    obtain ⟨there, room⟩ := reached before now verb arguments handover later split isOpen
    simpa only [PendingTable.contains, List.contains_eq_mem, decide_eq_false_iff_not] using
      there.peek_not_mem room now
  · intro before now verb arguments handover later split isOpen
    obtain ⟨there, room⟩ := reached before now verb arguments handover later split isOpen
    exact there.issue_entries_perm room now verb

/-- Identifiers never collide, however the clock goes, as long as no reading of it comes to `2 ^ 64`
with the number of identifiers handed out. A counter reads no clock and starts from zero. -/
theorem identifiers_never_collide (strategy : IdStrategy) (rejectsOnClose : Bool) (steps : List Step)
    (count : ((fresh strategy rejectsOnClose).issued steps).length < 2 ^ 64)
    (clock : strategy = .timestamp → ∀ now ∈ readings steps,
      now.toNat + ((fresh strategy rejectsOnClose).issued steps).length < 2 ^ 64) :
    DistinctIdentifiers (fresh strategy rejectsOnClose) steps := by
  apply distinctIdentifiers (Ordered.fresh strategy rejectsOnClose)
  refine along_issuable ?_ clock
  have zero : (fresh strategy rejectsOnClose).ids.last.toNat = 0 := rfl
  omega

/-- A run in which the clock stands still and runs backwards while requests are withdrawn, refused
and rejected. -/
def clockTrouble : List Step :=
  [.dispatch 7 "GET" ["a"] {},
    .dispatch 7 "GET" ["b"] { meanwhile := [.cancel ⟨7⟩], failure := some (.network "gone") },
    .dispatch 3 "GET" ["c"] {},
    .event (.close "over"),
    .dispatch 20 "GET" ["d"] {}]

theorem identifiers_never_collide_clockTrouble :
    ((fresh .timestamp true).issued clockTrouble).length < 2 ^ 64 ∧
      (∀ now ∈ readings clockTrouble,
        now.toNat + ((fresh .timestamp true).issued clockTrouble).length < 2 ^ 64) ∧
      DistinctIdentifiers (fresh .timestamp true) clockTrouble := by
  have ids : (fresh .timestamp true).issued clockTrouble = [⟨7⟩, ⟨8⟩, ⟨9⟩] := rfl
  have count : ((fresh .timestamp true).issued clockTrouble).length < 2 ^ 64 := by
    rw [ids]
    decide
  have clock : ∀ now ∈ readings clockTrouble,
      now.toNat + ((fresh .timestamp true).issued clockTrouble).length < 2 ^ 64 := by
    have times : readings clockTrouble = [7, 7, 3, 20] := rfl
    simp [ids, times]
  exact ⟨count, clock, identifiers_never_collide .timestamp true clockTrouble count fun _ => clock⟩

end Exchange

end Switchboard
