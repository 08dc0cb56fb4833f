import Switchboard.Proofs.Exchange.Endings

/-! # The end of the connection is final

The first reason stays. From then on the exchange only dwindles: nothing is sent, no identifier is
handed out, and nothing new is pending, so whoever still sends a request is turned away at once. What
becomes of the requests that were pending is a matter of policy. If they are rejected, none is left.
If they are kept, each of them can still be completed.
-/

namespace Switchboard.Exchange

variable {x y z : Exchange} {steps : List Step} {reason : String}

/-- Nothing comes back, from one state to a later one, that the end of the connection has stopped. -/
def Dwindles (x y : Exchange) : Prop :=
  x.isClosed → y.closedFor = x.closedFor ∧ y.ids = x.ids ∧ y.pending.ids.Sublist x.pending.ids

/-- A request that was pending is over, and its holder finds the outcome. -/
def EndsIn (x y : Exchange) (p : Pending) (outcome : Outcome) : Prop :=
  p.id ∉ y.pending.ids ∧ (x.isHeld p.ticket → y.Finds p.ticket outcome)

/-- A pending request is open to a reply, to its withdrawal and to the refusal of its frame. -/
structure Completable (x : Exchange) (p : Pending) : Prop where
  answered : ∀ text reply, ReplyFrame.decode text = .ok (p.id.token, reply) →
    (x.receive text).1 = (if reply.isSuccess then .resolved p.id else .rejected p.id) ∧
      x.EndsIn (x.receive text).2 p reply.outcome
  withdrawn : (x.cancel p.id).1 = true ∧ x.EndsIn (x.cancel p.id).2 p (.error (.abandoned p.id))
  refused : ∀ failure, x.EndsIn (x.reject p.id failure) p (.error failure)

section Dwindling

theorem Dwindles.isClosed (dwindles : x.Dwindles y) (closed : x.isClosed) : y.isClosed := by
  rw [Exchange.isClosed, (dwindles closed).1]
  exact closed

theorem Dwindles.trans (first : x.Dwindles y) (second : y.Dwindles z) : x.Dwindles z := by
  intro closed
  obtain ⟨reason, source, fewer⟩ := first closed
  obtain ⟨reason', source', fewer'⟩ := second (first.isClosed closed)
  exact ⟨reason'.trans reason, source'.trans source, fewer'.trans fewer⟩

theorem enter_of_closed (closed : x.isClosed) (s : Step) :
    (x.enter s).ids = x.ids ∧ (x.enter s).pending = x.pending := by
  rcases x.enter_cases s with
    ⟨now, verb, arguments, handover, -, ⟨isOpen, -⟩ | ⟨reason, -, same⟩⟩ | ⟨e, -, same⟩ |
    ⟨ticket, -, same | same⟩
  · simp [isClosed, isOpen] at closed
  all_goals
    rw [same]
    exact ⟨rfl, rfl⟩

theorem ids_undergo_sublist (x : Exchange) (h : Happening) :
    (x.undergo h).pending.ids.Sublist x.pending.ids := by
  rcases undergo_cases x h with same | ⟨id, f, -, same⟩ | ⟨reason, -, same⟩ <;> rw [same]
  · rw [settle_pending, PendingTable.ids_erase]
    exact List.filter_sublist
  · rw [close_pending]
    split
    · exact List.nil_sublist _
    · exact List.Sublist.refl _

theorem dwindles_enter (x : Exchange) (s : Step) : x.Dwindles (x.enter s) := by
  intro closed
  obtain ⟨source, pending⟩ := enter_of_closed closed s
  rw [pending]
  exact ⟨x.enter_closedFor s, source, List.Sublist.refl _⟩

theorem dwindles_undergo (x : Exchange) (h : Happening) : x.Dwindles (x.undergo h) := by
  intro closed
  refine ⟨?_, x.undergo_ids h, x.ids_undergo_sublist h⟩
  rw [undergo_closedFor]
  cases gone : x.closedFor with
  | none => simp [isClosed, gone] at closed
  | some reason => rfl

theorem stages_dwindle (x : Exchange) (steps : List Step) :
    (x.stages steps).Pairwise fun m n => m.exchange.Dwindles n.exchange := by
  apply Stage.path_pairwise
  · exact Dwindles.trans
  · intro g move
    cases move with
    | caller s => exact g.exchange.dwindles_enter s
    | outside h => exact g.exchange.dwindles_undergo h

theorem stages_closedFor (isOpen : x.closedFor = none) (steps : List Step) :
    ∀ m ∈ x.stages steps, m.exchange.closedFor = firstReason m.past := by
  apply Stage.path_induction
  · intro g move _ known
    cases move with
    | caller s => exact (g.exchange.enter_closedFor s).trans known
    | outside h =>
        have single : firstReason [h] = h.reason? := by
          cases brings : h.reason? <;> simp [firstReason, brings]
        simp only [Stage.next, undergo_closedFor, firstReason_append, known, single]
  · exact isOpen

end Dwindling

section Silence

theorem step_isClosed (closed : x.isClosed) (s : Step) : (x.step s).2.isClosed := by
  have entered : (x.enter s).isClosed := (x.dwindles_enter s).isClosed closed
  rw [step_snd]
  exact undergoAll_induction (fun y h _ => (y.dwindles_undergo h).isClosed) entered

theorem issued_of_closed (closed : x.isClosed) (steps : List Step) : x.issued steps = [] := by
  induction steps generalizing x with
  | nil => rfl
  | cons s rest ih =>
      rw [issued, ih (step_isClosed closed s), List.append_nil]
      cases s with
      | dispatch => simp [issuedBy, closed]
      | event | poll | waitFor | wait | discard => rfl

theorem sentFrames_of_closed (closed : x.isClosed) (steps : List Step) : x.sentFrames steps = [] := by
  have carried := x.sentFrames_carry steps
  rw [issued_of_closed closed, List.forall₂_nil_right_iff] at carried
  exact carried

theorem issued_append (first second : List Step) :
    x.issued (first ++ second) = x.issued first ++ (x.after first).issued second := by
  induction first generalizing x with
  | nil => rfl
  | cons s rest ih => simp [issued, ih]

theorem last_le_after (along : x.Along Issuable steps) :
    x.ids.last.toNat ≤ (x.after steps).ids.last.toNat := by
  induction steps generalizing x with
  | nil => simp
  | cons s rest ih =>
      have later := ih along.2
      rw [after_cons]
      rcases x.step_ids s with ⟨-, kept⟩ | ⟨now, verb, arguments, handover, rfl, isOpen, -, moved⟩
      · rwa [kept] at later
      · have past := IdSource.last_lt_peek (along.1 isOpen) now
        rw [moved, IdSource.next_last] at later
        omega

theorem issued_le_last (along : x.Along Issuable steps) :
    ∀ id ∈ x.issued steps, id.value.toNat ≤ (x.after steps).ids.last.toNat := by
  induction steps generalizing x with
  | nil => simp [issued]
  | cons s rest ih =>
      have later := last_le_after along.2
      intro id member
      rw [after_cons]
      rcases List.mem_append.mp member with here | there
      · rcases x.step_ids s with ⟨none, -⟩ | ⟨now, verb, arguments, handover, -, -, one, moved⟩
        · simp [none] at here
        · rw [one, List.mem_singleton] at here
          rw [here]
          rwa [moved, IdSource.next_last] at later
      · exact ih along.2 id there

theorem dispatch_of_closed (closed : x.closedFor = some reason) (now : UInt64) (verb : String)
    (arguments : List String) (handover : Handover) :
    x.dispatch now verb arguments handover =
      (⟨x.ids.peek now, x.mailroom.nextTicket, none, []⟩, x.turnAway now reason) := by
  simp only [dispatch, closed, turnAway]

end Silence

section Draining

/-- Whoever ends the connection under this policy leaves nothing pending. -/
def Drained (x : Exchange) : Prop := x.rejectsOnClose → x.isClosed → x.pending.ids = []

theorem Drained.enter (drained : x.Drained) (s : Step) : (x.enter s).Drained := by
  intro rejects closed
  rw [enter_rejectsOnClose] at rejects
  rw [isClosed, enter_closedFor] at closed
  rw [(enter_of_closed closed s).2]
  exact drained rejects closed

theorem Drained.undergo (drained : x.Drained) (h : Happening) : (x.undergo h).Drained := by
  intro rejects closed
  rw [undergo_rejectsOnClose] at rejects
  by_cases before : x.isClosed
  · have fewer := x.ids_undergo_sublist h
    rw [drained rejects before] at fewer
    exact List.sublist_nil.mp fewer
  · have isOpen : x.closedFor = none := by simpa [isClosed] using before
    rw [isClosed, undergo_closedFor, isOpen, Option.none_or] at closed
    cases h with
    | refusal => contradiction
    | event e =>
        cases e with
        | close reason =>
            rw [undergo_close, close_pending, if_pos rejects]
            rfl
        | frame | cancel => contradiction

theorem Drained.close (drained : x.Drained) (rejects : x.rejectsOnClose) (closed : x.isClosed)
    (reason : String) : x.close reason = (0, x) := by
  have none := drained rejects closed
  obtain ⟨first, gone⟩ := Option.isSome_iff_exists.mp closed
  obtain ⟨ids, policy, ⟨entries⟩, room, closedFor⟩ := x
  simp only [PendingTable.ids, List.map_eq_nil_iff] at none
  simp only at rejects gone
  simp [Exchange.close, PendingTable.drain, none, rejects, gone]

end Draining

theorem close_of_keeping (keeps : x.rejectsOnClose = false) (reason : String) :
    x.close reason = (0, x.markClosed reason) := by
  simp [close, keeps, markClosed]

theorem Coherent.endsIn_settle (coherent : Coherent x) {p : Pending} (member : p ∈ x.pending.entries)
    {f : Mailbox → Mailbox} {outcome : Outcome} (shows_ : (f .waiting).Shows p.id outcome) :
    x.EndsIn (x.settle p.id f) p outcome := by
  constructor
  · simp [settle_pending, PendingTable.ids_erase]
  · intro held
    have waits := coherent.waiting_of_mem member held
    obtain ⟨box, -, located⟩ := coherent.housed p member
    rw [Mailroom.box_eq located] at waits
    rw [waits] at located
    exact finds_of_shows (coherent.settle_self located) shows_

theorem Coherent.completable (coherent : Coherent x) {p : Pending}
    (member : p ∈ x.pending.entries) : Completable x p := by
  have pending : p.id ∈ x.pending.ids := PendingTable.mem_ids.mpr ⟨p, member, rfl⟩
  constructor
  · intro text reply decoded
    rw [x.receive_of_answer? p.id (ReplyFrame.answer?_eq_some_iff.mpr decoded), if_pos pending]
    exact ⟨rfl, coherent.endsIn_settle member (Or.inl rfl)⟩
  · rw [cancel_eq]
    exact ⟨decide_eq_true pending, coherent.endsIn_settle member (Or.inr ⟨rfl, rfl⟩)⟩
  · intro failure
    rw [reject_eq]
    exact coherent.endsIn_settle member (Or.inl rfl)

/-- The connection of a run ends for good. -/
structure Final (x : Exchange) (steps : List Step) : Prop where
  /-- At every point the connection is gone just if its end has come, for the reason of the first
  time. -/
  reason : ∀ m ∈ x.stages steps, m.exchange.closedFor = firstReason m.past
  /-- From each point on at which it is gone, the exchange dwindles. -/
  dwindles : (x.stages steps).Pairwise fun m n => m.exchange.Dwindles n.exchange
  /-- Nothing is sent any more. -/
  silent : ∀ before later, steps = before ++ later → (x.after before).isClosed →
    (x.after before).sentFrames later = []
  /-- A request that comes later is turned away with the first reason. It gets an identifier past all
  others, which is not used up, and nothing else changes. -/
  turnedAway : ∀ before now verb arguments handover later reason,
    steps = before ++ .dispatch now verb arguments handover :: later →
    firstReason (x.history before) = some reason →
    let here := x.after before
    let id := here.ids.peek now
    here.dispatch now verb arguments handover =
        ({ id, ticket := here.mailroom.nextTicket, frame := none, reports := [] },
          { here with
            mailroom := here.mailroom.open id (.holding (.error (.disconnected reason))) }) ∧
      id ∉ here.pending.ids ∧ ∀ other ∈ x.issued steps, other < id
  /-- If pending requests are rejected, none is left, and another end rejects none. -/
  emptied : x.rejectsOnClose = true → ∀ m ∈ x.stages steps, m.exchange.isClosed →
    m.exchange.pending.ids = [] ∧ ∀ reason, m.exchange.close reason = (0, m.exchange)
  /-- If they are kept, no end touches them, and each can still be completed. -/
  kept : x.rejectsOnClose = false → ∀ m ∈ x.stages steps,
    (∀ reason, m.exchange.close reason =
      (0, { m.exchange with closedFor := some (m.exchange.closedFor.getD reason) })) ∧
    ∀ p ∈ m.exchange.pending.entries, Completable m.exchange p

theorem stages_rejectsOnClose (x : Exchange) (steps : List Step) :
    ∀ m ∈ x.stages steps, m.exchange.rejectsOnClose = x.rejectsOnClose := by
  apply Stage.path_induction
  · intro g move _ same
    cases move with
    | caller s => exact (g.exchange.enter_rejectsOnClose s).trans same
    | outside h => exact (g.exchange.undergo_rejectsOnClose h).trans same
  · rfl

theorem stages_drained (drained : x.Drained) (steps : List Step) :
    ∀ m ∈ x.stages steps, m.exchange.Drained := by
  apply Stage.path_induction
  · intro g move _ kept
    cases move with
    | caller s => exact kept.enter s
    | outside h => exact kept.undergo h
  · exact drained

/-- The first end of the connection is final, be it noticed between two steps or while a frame is
handed over. -/
theorem close_is_final (strategy : IdStrategy) (rejectsOnClose : Bool) (steps : List Step)
    (numbered : (fresh strategy rejectsOnClose).Along Numbered steps) :
    Final (fresh strategy rejectsOnClose) steps := by
  have coherent := Coherent.fresh strategy rejectsOnClose
  have drained : (fresh strategy rejectsOnClose).Drained := fun _ closed => by contradiction
  refine ⟨stages_closedFor rfl steps, stages_dwindle _ steps, ?_, ?_, ?_, ?_⟩
  · intro before later _ closed
    exact sentFrames_of_closed closed later
  · rintro before now verb arguments handover later reason rfl first here id
    have gone : here.closedFor = some reason := by
      rw [after_closedFor]
      exact first
    have closed : here.isClosed := by simp [isClosed, gone]
    obtain ⟨earlier, room, -⟩ := along_append.mp numbered
    refine ⟨dispatch_of_closed gone now verb arguments handover, ?_, ?_⟩
    · exact (coherent.after earlier).peek_not_mem room now
    · intro other member
      rw [issued_append, issued_of_closed closed, List.append_nil] at member
      have below := issued_le_last (earlier.mono Issuable.of_numbered) other member
      exact RequestId.lt_iff_toNat.mpr (Nat.lt_of_le_of_lt below (IdSource.last_lt_peek room now))
  · intro rejects m member closed
    have emptied := stages_drained drained steps m member
    have policy : m.exchange.rejectsOnClose := (stages_rejectsOnClose _ steps m member).trans rejects
    exact ⟨emptied policy closed, emptied.close policy closed⟩
  · intro keeps m member
    have policy := (stages_rejectsOnClose _ steps m member).trans keeps
    exact ⟨close_of_keeping policy, fun _ pending => (coherent.stages numbered m member).completable pending⟩

/-- A run in which the connection ends while a frame is handed over, which is then refused, and ends
again. One request is kept until its caller withdraws it, and one comes too late. -/
def endedInside : List Step :=
  [.dispatch 0 "GET" ["a"] {},
    .dispatch 0 "GET" ["b"] { meanwhile := [.close "over"], failure := some (.network "gone") },
    .event (.close "again"),
    .dispatch 0 "GET" ["c"] {},
    .event (.cancel ⟨1⟩)]

theorem close_is_final_endedInside :
    (fresh .counter false).Along Numbered endedInside ∧
      ((fresh .counter false).after endedInside).closedFor = some "over" ∧
      ((fresh .counter false).after endedInside).mailroom.box 2 =
        .holding (.error (.disconnected "over")) ∧
      Final (fresh .counter false) endedInside := by
  have numbered : (fresh .counter false).Along Numbered endedInside := by decide
  exact ⟨numbered, rfl, rfl, close_is_final .counter false endedInside numbered⟩

end Switchboard.Exchange
