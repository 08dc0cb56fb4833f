import Switchboard.Proofs.Exchange.Delivery

/-! # Every request is pending or answered

In every state that a run can reach, inside a handover too, a handle that is still held finds nothing
just while its request is pending. Each pending request has a mailbox of its own with nothing in it,
so whatever completes it finds room, and no outcome is lost but to a holder who let go.
-/

namespace Switchboard.Exchange

variable {x : Exchange} {ticket : Ticket} {id : RequestId} {box : Mailbox}

theorem outcomeOf_peek_eq_none {id : RequestId} {box : Mailbox} :
    outcomeOf id box.peek = none ↔ box = .waiting := by
  cases box <;> simp [Mailbox.peek, outcomeOf]

section Reading

theorem poll_fst (located : x.mailroom.boxes[ticket]? = some (id, box)) :
    (x.poll ticket).1 = outcomeOf id box.peek := by
  simp only [poll, Mailroom.owner?_eq located, Mailroom.take, Mailroom.box_eq located]

theorem wait_fst (x : Exchange) (ticket : Ticket) : (x.wait ticket).1 = (x.poll ticket).1 := by
  rw [wait]
  cases polled : x.poll ticket with
  | mk outcome y => cases outcome <;> rfl

theorem waitFor_fst (located : x.mailroom.boxes[ticket]? = some (id, box)) (limit : UInt64) :
    (x.waitFor ticket limit).1 =
      some ((outcomeOf id box.peek).getD (.error (.timeout id limit))) := by
  rw [← poll_fst located]
  simp only [waitFor, Mailroom.owner?_eq located]
  cases polled : x.poll ticket with
  | mk outcome y => cases outcome <;> rfl

/-- Whoever looks for the outcome finds it, whichever way. -/
def Finds (x : Exchange) (ticket : Ticket) (outcome : Outcome) : Prop :=
  (x.poll ticket).1 = some outcome ∧ (x.wait ticket).1 = some outcome ∧
    ∀ limit, (x.waitFor ticket limit).1 = some outcome

/-- Whoever looks for the outcome finds none yet. -/
def FindsNothing (x : Exchange) (ticket : Ticket) (id : RequestId) : Prop :=
  (x.poll ticket).1 = none ∧ (x.wait ticket).1 = none ∧
    ∀ limit, (x.waitFor ticket limit).1 = some (.error (.timeout id limit))

theorem Finds.unique {first second : Outcome} (finds : x.Finds ticket first)
    (findsToo : x.Finds ticket second) : first = second :=
  Option.some.inj (finds.1.symm.trans findsToo.1)

theorem finds_of_outcomeOf (located : x.mailroom.boxes[ticket]? = some (id, box)) {outcome : Outcome}
    (found : outcomeOf id box.peek = some outcome) : x.Finds ticket outcome := by
  have polled : (x.poll ticket).1 = some outcome := (poll_fst located).trans found
  refine ⟨polled, (x.wait_fst ticket).trans polled, ?_⟩
  intro limit
  rw [waitFor_fst located, found, Option.getD_some]

theorem finds_of_shows (located : x.mailroom.boxes[ticket]? = some (id, box)) {outcome : Outcome}
    (shows_ : box.Shows id outcome) : x.Finds ticket outcome := by
  rcases shows_ with rfl | ⟨rfl, rfl⟩
  · exact finds_of_outcomeOf located rfl
  · exact finds_of_outcomeOf located rfl

theorem findsNothing_of_waiting (located : x.mailroom.boxes[ticket]? = some (id, .waiting)) :
    x.FindsNothing ticket id := by
  have polled : (x.poll ticket).1 = none := poll_fst located
  exact ⟨polled, (x.wait_fst ticket).trans polled, fun limit => waitFor_fst located limit⟩

theorem isHeld_iff (located : x.mailroom.boxes[ticket]? = some (id, box)) :
    x.isHeld ticket ↔ box ≠ .discarded := by
  simp only [isHeld, Mailroom.box_eq located]
  cases box <;> simp

end Reading

namespace Coherent

theorem waiting_iff_pending (coherent : Coherent x)
    (located : x.mailroom.boxes[ticket]? = some (id, box)) (held : box ≠ .discarded) :
    box = .waiting ↔ id ∈ x.pending.ids := by
  constructor
  · rintro rfl
    obtain ⟨p, member, named, -⟩ := coherent.awaited ticket id located
    exact PendingTable.mem_ids.mpr ⟨p, member, named⟩
  · intro pending
    obtain ⟨p, member, rfl⟩ := PendingTable.mem_ids.mp pending
    obtain ⟨other, vacant, placed⟩ := coherent.housed p member
    rw [coherent.sole p member ticket box located, placed] at located
    obtain ⟨-, rfl⟩ := Prod.mk.inj (Option.some.inj located)
    exact vacant.resolve_right held

theorem poll_eq_none_iff (coherent : Coherent x) (owned : x.mailroom.owner? ticket = some id)
    (held : x.isHeld ticket) : (x.poll ticket).1 = none ↔ id ∈ x.pending.ids := by
  have located := Mailroom.located_of_owner? owned
  rw [poll_fst located, outcomeOf_peek_eq_none]
  exact coherent.waiting_iff_pending located ((isHeld_iff located).mp held)

theorem owner?_iff (coherent : Coherent x) {p : Pending} (member : p ∈ x.pending.entries) :
    x.mailroom.owner? ticket = some p.id ↔ ticket = p.ticket := by
  constructor
  · intro owned
    exact coherent.sole p member ticket _ (Mailroom.located_of_owner? owned)
  · rintro rfl
    obtain ⟨box, -, placed⟩ := coherent.housed p member
    exact Mailroom.owner?_eq placed

theorem box_vacant (coherent : Coherent x) {p : Pending} (member : p ∈ x.pending.entries) :
    (x.mailroom.box p.ticket).Vacant := by
  obtain ⟨box, vacant, placed⟩ := coherent.housed p member
  rwa [Mailroom.box_eq placed]

end Coherent

theorem box_complete_self (x : Exchange) {p : Pending} (outcome : Outcome)
    (waits : x.mailroom.box p.ticket = .waiting) :
    (x.complete p outcome).mailroom.box p.ticket = .holding outcome := by
  simp only [Mailroom.box, complete, Mailroom.getElem?_update_self] at waits ⊢
  cases located : x.mailroom.boxes[p.ticket]? with
  | none => simp [located] at waits
  | some entry =>
      simp only [located] at waits
      simp only [Option.map_some, waits, Mailbox.deliver]

theorem box_complete_of_ne (x : Exchange) {p : Pending} (apart : ticket ≠ p.ticket)
    (outcome : Outcome) :
    (x.complete p outcome).mailroom.box ticket = x.mailroom.box ticket := by
  simp only [Mailroom.box, complete, Mailroom.getElem?_update_of_ne _ apart]

theorem box_foldl_complete_of_forall_ne (x : Exchange) {ps : List Pending}
    (apart : ∀ p ∈ ps, ticket ≠ p.ticket) (outcome : Outcome) :
    (ps.foldl (fun y p => y.complete p outcome) x).mailroom.box ticket = x.mailroom.box ticket := by
  induction ps generalizing x with
  | nil => rfl
  | cons p rest ih =>
      have apartRest : ∀ q ∈ rest, ticket ≠ q.ticket := fun q member =>
        apart q (List.mem_cons_of_mem p member)
      rw [List.foldl_cons, ih (x.complete p outcome) apartRest,
        box_complete_of_ne x (apart p List.mem_cons_self)]

/-- What is pending agrees with what every holder finds, and whoever completes a request finds room. -/
structure Answerable (x : Exchange) : Prop where
  /-- A handle that is held finds nothing, and a wait on it does not end, just while its request is
  pending. -/
  outstanding : ∀ ticket id, x.mailroom.owner? ticket = some id → x.isHeld ticket →
    ((x.poll ticket).1 = none ↔ id ∈ x.pending.ids) ∧
      ((x.wait ticket).1 = none ↔ id ∈ x.pending.ids)
  /-- Different entries have different mailboxes. -/
  distinct : ∀ p ∈ x.pending.entries, ∀ q ∈ x.pending.entries, p.ticket = q.ticket → p = q
  /-- The mailbox of an entry is the one that was opened for its identifier. -/
  own : ∀ p ∈ x.pending.entries, ∀ ticket,
    x.mailroom.owner? ticket = some p.id ↔ ticket = p.ticket
  /-- There is nothing in it. -/
  vacant : ∀ p ∈ x.pending.entries, (x.mailroom.box p.ticket).Vacant
  /-- So whoever takes an entry out and completes it leaves the outcome for the holder. -/
  delivered : ∀ id p y outcome, x.take id = (some p, y) → y.isHeld p.ticket →
    (y.complete p outcome).mailroom.box p.ticket = .holding outcome
  /-- And so does whoever takes all out and completes them one after the other, in whatever order. -/
  drained : ∀ first p rest outcome closedFor, (first ++ p :: rest).Perm x.pending.entries →
    x.isHeld p.ticket →
    ((first.foldl (fun y q => complete y q outcome) { x with pending := {}, closedFor }).complete p
      outcome).mailroom.box p.ticket = .holding outcome
  /-- That is what the end of the connection does, and every holder finds the reason for it. -/
  closing : ∀ reason, x.rejectsOnClose →
    let outcome : Outcome := .error (.disconnected (x.closedFor.getD reason))
    let closedFor := some (x.closedFor.getD reason)
    (∀ order : List Pending, order.Perm x.pending.entries →
      (x.close reason).2 =
        order.foldl (fun y q => complete y q outcome) { x with pending := {}, closedFor }) ∧
    ∀ p ∈ x.pending.entries, x.isHeld p.ticket →
      (x.close reason).2.mailroom.box p.ticket = .holding outcome
  /-- A handle that is held and whose request is not pending gets its outcome at once. -/
  available : ∀ ticket id, x.mailroom.owner? ticket = some id → x.isHeld ticket →
    id ∉ x.pending.ids → ∃ outcome, x.Finds ticket outcome

theorem Coherent.waiting_of_mem (coherent : Coherent x) {p : Pending}
    (member : p ∈ x.pending.entries) (held : x.isHeld p.ticket) :
    x.mailroom.box p.ticket = .waiting := by
  obtain ⟨box, vacant, placed⟩ := coherent.housed p member
  rw [Mailroom.box_eq placed]
  exact vacant.resolve_right ((isHeld_iff placed).mp held)

/-- Of the entries, in whatever order, no two have the same mailbox. -/
theorem Coherent.ticket_ne_of_perm (coherent : Coherent x) {first rest : List Pending} {p : Pending}
    (all : (first ++ p :: rest).Perm x.pending.entries) :
    ∀ q ∈ first ++ rest, p.ticket ≠ q.ticket := by
  intro q member same
  have once : (p :: (first ++ rest)).Nodup :=
    List.nodup_middle.mp (all.nodup_iff.mpr (PendingTable.nodup_ids coherent.ascending).of_map)
  have moved : (p :: (first ++ rest)).Perm x.pending.entries := List.perm_middle.symm.trans all
  have equal := coherent.eq_of_ticket_eq (moved.mem_iff.mp List.mem_cons_self)
    (moved.mem_iff.mp (List.mem_cons_of_mem p member)) same
  exact (List.nodup_cons.mp once).1 (equal ▸ member)

theorem Coherent.box_complete_drained (coherent : Coherent x) {first rest : List Pending} {p : Pending}
    (all : (first ++ p :: rest).Perm x.pending.entries) (held : x.isHeld p.ticket) (outcome : Outcome)
    (closedFor : Option String) :
    ((first.foldl (fun y q => complete y q outcome) { x with pending := {}, closedFor }).complete p
      outcome).mailroom.box p.ticket = .holding outcome := by
  have member : p ∈ x.pending.entries :=
    all.mem_iff.mp (List.mem_append_right _ List.mem_cons_self)
  have apart : ∀ q ∈ first, p.ticket ≠ q.ticket := fun q earlier =>
    coherent.ticket_ne_of_perm all q (List.mem_append_left _ earlier)
  refine box_complete_self _ outcome ?_
  rw [box_foldl_complete_of_forall_ne _ apart]
  exact coherent.waiting_of_mem member held

theorem Coherent.box_close (coherent : Coherent x) (rejects : x.rejectsOnClose) (reason : String)
    {p : Pending} (member : p ∈ x.pending.entries) (held : x.isHeld p.ticket) :
    (x.close reason).2.mailroom.box p.ticket =
      .holding (.error (.disconnected (x.closedFor.getD reason))) := by
  obtain ⟨first, rest, split⟩ := List.append_of_mem member
  have all : (first ++ p :: rest).Perm x.pending.entries := split ▸ List.Perm.refl _
  have apart : ∀ q ∈ rest, p.ticket ≠ q.ticket := fun q later =>
    coherent.ticket_ne_of_perm all q (List.mem_append_right _ later)
  rw [x.close_snd_of_rejects rejects reason all, List.foldl_append, List.foldl_cons,
    box_foldl_complete_of_forall_ne _ apart]
  exact coherent.box_complete_drained all held _ _

theorem Coherent.answerable (coherent : Coherent x) : Answerable x where
  outstanding := by
    intro ticket id owned held
    rw [wait_fst]
    exact ⟨coherent.poll_eq_none_iff owned held, coherent.poll_eq_none_iff owned held⟩
  distinct := fun _ first _ second same => coherent.eq_of_ticket_eq first second same
  own := fun _ member _ => coherent.owner?_iff member
  vacant := fun _ member => coherent.box_vacant member
  delivered := by
    intro id p y outcome taken held
    obtain ⟨found, rfl⟩ := Prod.mk.inj taken
    exact box_complete_self _ outcome
      (coherent.waiting_of_mem (PendingTable.mem_of_find? found).1 held)
  drained := fun _ _ _ outcome closedFor all held =>
    coherent.box_complete_drained all held outcome closedFor
  closing := fun reason rejects =>
    ⟨fun _ same => x.close_snd_of_rejects rejects reason same,
      fun _ member held => coherent.box_close rejects reason member held⟩
  available := by
    intro ticket id owned held answered
    have located := Mailroom.located_of_owner? owned
    have ready := mt (coherent.poll_eq_none_iff owned held).mp answered
    rw [poll_fst located] at ready
    obtain ⟨outcome, found⟩ := Option.ne_none_iff_exists'.mp ready
    exact ⟨outcome, finds_of_outcomeOf located found⟩

/-- A run without a look into a mailbox does not let go of it, and leaves it spent only by a
withdrawal of its request. -/
theorem Coherent.box_of_unread (coherent : Coherent x) {steps : List Step}
    (numbered : x.Along Numbered steps) (unread : ∀ s ∈ steps, s.ticket? ≠ some ticket)
    (empty : x.mailroom.boxes[ticket]? = none) :
    ∀ box, (x.after steps).mailroom.boxes[ticket]? = some (id, box) →
      box ≠ .discarded ∧ (box = .spent → .event (.cancel id) ∈ x.history steps) := by
  have start : ∀ box, x.mailroom.boxes[ticket]? = some (id, box) →
      box ≠ .discarded ∧ (box = .spent → .event (.cancel id) ∈ x.history steps) := by
    intro box located
    rw [empty] at located
    contradiction
  refine (after_induction
    (P := fun y => Coherent y ∧ ∀ box, y.mailroom.boxes[ticket]? = some (id, box) →
      box ≠ .discarded ∧ (box = .spent → .event (.cancel id) ∈ x.history steps))
    ?_ ?_ ⟨coherent, start⟩ (numbered.and (along_of_forall unread))).2
  · intro y s state ⟨counted, elsewhere⟩
    refine ⟨state.1.enter counted, ?_⟩
    intro box located
    rcases of_enter_located elsewhere located with before | rfl | ⟨reason, rfl⟩
    · exact state.2 box before
    · simp
    · simp
  · intro y h member state
    refine ⟨state.1.undergo h, ?_⟩
    intro box located
    have owned := Mailroom.owner?_eq located
    rw [state.1.owner?_undergo] at owned
    have before := Mailroom.located_of_owner? owned
    by_cases waits : y.mailroom.box ticket = .waiting
    · rw [waits] at before
      rw [state.1.undergo_waiting before] at located
      obtain rfl := (Prod.mk.inj (Option.some.inj located)).2
      rcases h.leaves_cases id y.rejectsOnClose y.closedFor with
        left | ⟨outcome, left⟩ | ⟨rfl, left⟩ <;> rw [left]
      · simp
      · simp
      · exact ⟨by simp, fun _ => member⟩
    · rw [state.1.undergo_settled waits before] at located
      have same := (Prod.mk.inj (Option.some.inj located)).2
      exact same ▸ state.2 _ before

/-- No handle is stuck, and no outcome is lost. In every state of a run a held handle is unanswered
just while its request is pending, and each completion finds its mailbox vacant. An answer that no one
has looked for lies ready, unless the answer is that the request was withdrawn. -/
theorem no_handle_is_stuck (strategy : IdStrategy) (rejectsOnClose : Bool) (steps : List Step)
    (numbered : (fresh strategy rejectsOnClose).Along Numbered steps) :
    let start := fresh strategy rejectsOnClose
    (∀ m ∈ start.moments steps, Answerable m.1) ∧ Answerable (start.after steps) ∧
      ∀ ticket id, (start.after steps).mailroom.owner? ticket = some id →
        (∀ s ∈ steps, s.ticket? ≠ some ticket) → id ∉ (start.after steps).pending.ids →
        (∃ outcome, (start.after steps).mailroom.box ticket = .holding outcome) ∨
          .event (.cancel id) ∈ start.history steps ∧
            (start.after steps).mailroom.box ticket = .spent := by
  intro start
  have coherent := Coherent.fresh strategy rejectsOnClose
  refine ⟨fun m member => (coherent.moments numbered m member).answerable,
    (coherent.after numbered).answerable, ?_⟩
  intro ticket id owned unread answered
  have located := Mailroom.located_of_owner? owned
  obtain ⟨kept, withdrawn⟩ := coherent.box_of_unread numbered unread (by simp [fresh]) _ located
  cases found : (start.after steps).mailroom.box ticket with
  | waiting =>
      rw [found] at located
      have waits := (coherent.after numbered).waiting_iff_pending located (by simp)
      exact absurd (waits.mp rfl) answered
  | holding outcome => exact Or.inl ⟨outcome, rfl⟩
  | spent => exact Or.inr ⟨withdrawn found, rfl⟩
  | discarded => exact absurd found kept

/-- A run in which a request is withdrawn while its frame is handed over, another is rejected at the
end of the connection and looked after, and one is turned away. -/
def withdrawnInside : List Step :=
  [.dispatch 0 "GET" ["a"] { meanwhile := [.cancel ⟨1⟩] },
    .dispatch 0 "GET" ["b"] {},
    .event (.close "over"),
    .poll 1,
    .dispatch 0 "GET" ["c"] {}]

theorem no_handle_is_stuck_withdrawnInside :
    let start := fresh .counter true
    let y := (start.after (withdrawnInside.take 2)).close "over"
    start.Along Numbered withdrawnInside ∧ Answerable (start.after withdrawnInside) ∧
      y.1 = 1 ∧ y.2.mailroom.box 1 = .holding (.error (.disconnected "over")) ∧
      .event (.cancel ⟨1⟩) ∈ start.history withdrawnInside ∧
      (start.after withdrawnInside).mailroom.box 0 = .spent := by
  intro start y
  have numbered : start.Along Numbered withdrawnInside := by decide
  have spent : (start.after withdrawnInside).mailroom.box 0 = .spent := rfl
  obtain ⟨moments, answerable, answered⟩ := no_handle_is_stuck .counter true withdrawnInside numbered
  have closing : (start.after (withdrawnInside.take 2), .event (.close "over")) ∈
      start.moments withdrawnInside := List.mem_of_getElem? (i := 1) rfl
  have told := ((moments _ closing).closing "over" rfl).2 ⟨⟨2⟩, "GET", 1⟩ (List.mem_singleton.mpr rfl) rfl
  rcases answered 0 ⟨1⟩ rfl (by decide) (by decide) with ⟨outcome, held⟩ | ⟨withdrawn, -⟩
  · rw [spent] at held
    contradiction
  · exact ⟨numbered, answerable, rfl, told, withdrawn, spent⟩

end Switchboard.Exchange
