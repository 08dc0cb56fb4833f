import Switchboard.Proofs.Exchange.Endings
import Switchboard.Proofs.Exchange.Views

/-! # A refused send is taken back

A request that has been entered stands beside the others: whatever happens afterwards does the same to
them as if it were not there, and it does to the request what it does to any other. So when the
transport refuses the frame at last, and the request is rejected for it, the exchange is the one that
never sent anything, with an identifier used up and one mailbox more. In that mailbox lies what ended
the request first, and that is the refusal only if nothing else did.
-/

namespace Switchboard.Exchange

variable {x y : Exchange} {id : RequestId} {ticket : Ticket}

/-- The second exchange is the first with one request more, pending or over, whose mailbox is the last
one. -/
structure Beside (id : RequestId) (ticket : Ticket) (x y : Exchange) : Prop where
  rejectsOnClose : y.rejectsOnClose = x.rejectsOnClose
  closedFor : y.closedFor = x.closedFor
  pending : y.pending.erase id = x.pending
  last : x.mailroom.nextTicket = ticket
  mailroom : ∃ box, y.mailroom = x.mailroom.open id box

theorem Coherent.ticket_lt (coherent : Coherent x) {p : Pending} (member : p ∈ x.pending.entries) :
    p.ticket < x.mailroom.nextTicket := by
  obtain ⟨box, -, located⟩ := coherent.housed p member
  exact (List.getElem?_eq_some_iff.mp located).1

theorem settleAll_filter (absent : id ∉ x.pending.ids) (f : Mailbox → Mailbox)
    (ids : List RequestId) :
    x.settleAll (ids.filter fun other => other != id) f = x.settleAll ids f := by
  induction ids generalizing x with
  | nil => rfl
  | cons other rest ih =>
      rw [settleAll_cons]
      by_cases same : other = id
      · subst same
        rw [List.filter_cons_of_neg (by simp), ih absent, settle_of_not_mem x other f absent]
      · have kept : id ∉ (x.settle other f).pending.ids := by
          rw [settle_pending, PendingTable.ids_erase, List.mem_filter]
          exact fun member => absent member.1
        rw [List.filter_cons_of_pos (by simpa using same), settleAll_cons, ih kept]

namespace Beside

theorem not_mem (beside : Beside id ticket x y) : id ∉ x.pending.ids := by
  rw [← beside.pending, PendingTable.ids_erase]
  simp

theorem ticket_eq (beside : Beside id ticket x y) (coherent : Coherent y) {p : Pending}
    (member : p ∈ y.pending.entries) (own : p.id = id) : p.ticket = x.mailroom.nextTicket := by
  obtain ⟨box, room⟩ := beside.mailroom
  have located : y.mailroom.boxes[x.mailroom.nextTicket]? = some (p.id, box) := by
    rw [room, own]
    exact x.mailroom.getElem?_open_nextTicket id box
  exact (coherent.sole p member _ box located).symm

theorem find?_of_ne (beside : Beside id ticket x y) {other : RequestId} (apart : other ≠ id) :
    x.pending.find? other = y.pending.find? other := by
  rw [← beside.pending, PendingTable.find?_erase, if_neg apart.symm]

theorem settle_self (beside : Beside id ticket x y) (coherent : Coherent y) (f : Mailbox → Mailbox) :
    Beside id ticket x (y.settle id f) := by
  cases found : y.pending.find? id with
  | none => rwa [settle_of_not_mem y id f (PendingTable.find?_eq_none.mp found)]
  | some p =>
      obtain ⟨member, own⟩ := PendingTable.mem_of_find? found
      obtain ⟨box, room⟩ := beside.mailroom
      have changed : y.mailroom.update p.ticket f = x.mailroom.open id (f box) := by
        rw [beside.ticket_eq coherent member own, room, Mailroom.update_open_nextTicket]
      rw [settle_of_find? y id f found]
      exact {
        rejectsOnClose := beside.rejectsOnClose
        closedFor := beside.closedFor
        pending := (y.pending.erase_erase_self id).trans beside.pending
        last := beside.last
        mailroom := ⟨f box, changed⟩ }

theorem settle_other (beside : Beside id ticket x y) (coherent : Coherent x) {other : RequestId}
    (apart : other ≠ id) (f : Mailbox → Mailbox) :
    Beside id ticket (x.settle other f) (y.settle other f) := by
  have same := beside.find?_of_ne apart
  cases found : x.pending.find? other with
  | none =>
      rw [settle_of_not_mem x other f (PendingTable.find?_eq_none.mp found),
        settle_of_not_mem y other f (PendingTable.find?_eq_none.mp (same.symm.trans found))]
      exact beside
  | some p =>
      have inside := coherent.ticket_lt (PendingTable.mem_of_find? found).1
      obtain ⟨box, room⟩ := beside.mailroom
      have changed : y.mailroom.update p.ticket f = (x.mailroom.update p.ticket f).open id box := by
        rw [room, Mailroom.update_open_of_lt _ inside]
      rw [settle_of_find? x other f found, settle_of_find? y other f (same.symm.trans found)]
      exact {
        rejectsOnClose := beside.rejectsOnClose
        closedFor := beside.closedFor
        pending := by rw [y.pending.erase_comm, beside.pending]
        last := (x.mailroom.nextTicket_update p.ticket f).trans beside.last
        mailroom := ⟨box, changed⟩ }

theorem settle (beside : Beside id ticket x y) (first : Coherent x) (second : Coherent y)
    (other : RequestId) (f : Mailbox → Mailbox) :
    Beside id ticket (x.settle other f) (y.settle other f) := by
  by_cases own : other = id
  · subst own
    rw [settle_of_not_mem x other f beside.not_mem]
    exact beside.settle_self second f
  · exact beside.settle_other first own f

theorem settleAll (beside : Beside id ticket x y) (first : Coherent x) (second : Coherent y)
    {f : Mailbox → Mailbox} (settles : Mailbox.Settles f) (ids : List RequestId) :
    Beside id ticket (x.settleAll ids f) (y.settleAll ids f) := by
  induction ids generalizing x y with
  | nil => exact beside
  | cons other rest ih =>
      exact ih (beside.settle first second other f) (first.settle other settles)
        (second.settle other settles)

theorem markClosed (beside : Beside id ticket x y) (reason : String) :
    Beside id ticket (x.markClosed reason) (y.markClosed reason) where
  rejectsOnClose := beside.rejectsOnClose
  closedFor := by simp only [Exchange.markClosed, beside.closedFor]
  pending := beside.pending
  last := beside.last
  mailroom := beside.mailroom

/-- The end of the connection rejects the others in the same order, and the request in its turn. -/
theorem close (beside : Beside id ticket x y) (first : Coherent x) (second : Coherent y)
    (reason : String) : Beside id ticket (x.close reason).2 (y.close reason).2 := by
  have marked := beside.markClosed reason
  rw [x.close_snd first.ascending, y.close_snd second.ascending, beside.rejectsOnClose,
    beside.closedFor]
  split
  case isFalse => exact marked
  case isTrue =>
    have others : x.pending.ids = y.pending.ids.filter fun other => other != id := by
      rw [← beside.pending, PendingTable.ids_erase]
    rw [others, settleAll_filter (x := x.markClosed reason) beside.not_mem]
    exact marked.settleAll (first.markClosed reason) (second.markClosed reason)
      (Mailbox.settles_deliver _) y.pending.ids

theorem undergo (beside : Beside id ticket x y) (first : Coherent x) (second : Coherent y)
    (h : Happening) : Beside id ticket (x.undergo h) (y.undergo h) := by
  match h with
  | .refusal other failure =>
      rw [undergo_refusal, undergo_refusal]
      exact beside.settle first second other _
  | .event (.cancel other) =>
      rw [undergo_cancel, undergo_cancel]
      exact beside.settle first second other _
  | .event (.close reason) => exact beside.close first second reason
  | .event (.frame text) =>
      cases answers : ReplyFrame.answer? text with
      | none => rwa [undergo_frame_of_none answers, undergo_frame_of_none answers]
      | some answer =>
          rw [undergo_frame answers, undergo_frame answers]
          exact beside.settle first second answer.1 _

theorem undergoAll (beside : Beside id ticket x y) (first : Coherent x) (second : Coherent y)
    (hs : List Happening) : Beside id ticket (x.undergoAll hs) (y.undergoAll hs) := by
  induction hs generalizing x y with
  | nil => exact beside
  | cons h rest ih => exact ih (beside.undergo first second h) (first.undergo h) (second.undergo h)

/-- The refusal of its frame ends the request, if it is not over yet, and concerns no other. -/
theorem refusal (beside : Beside id ticket x y) (coherent : Coherent y) (failure : Failure) :
    Beside id ticket x (y.undergo (.refusal id failure)) ∧
      id ∉ (y.undergo (.refusal id failure)).pending.ids := by
  rw [undergo_refusal]
  refine ⟨beside.settle_self coherent _, ?_⟩
  rw [settle_pending, PendingTable.ids_erase]
  simp

/-- Once the request is over, only its mailbox and the source of identifiers tell the two apart. -/
theorem eq_of_not_mem (beside : Beside id ticket x y) (done : id ∉ y.pending.ids) {box : Mailbox}
    (located : y.mailroom.boxes[ticket]? = some (id, box)) :
    y = { x with ids := y.ids, mailroom := x.mailroom.open id box } := by
  obtain ⟨other, room⟩ := beside.mailroom
  rw [room, ← beside.last, Mailroom.getElem?_open_nextTicket] at located
  obtain ⟨-, rfl⟩ := Prod.mk.inj (Option.some.inj located)
  have pending : y.pending = x.pending := by
    rw [← beside.pending, PendingTable.erase_of_not_mem done]
  have policy := beside.rejectsOnClose
  have gone := beside.closedFor
  obtain ⟨ids, rejects, entries, mailroom, closedFor⟩ := y
  simp_all

end Beside

theorem Coherent.beside_issue (coherent : Coherent x) (room : x.ids.HasNext) (now : UInt64)
    (verb : String) :
    Beside (x.ids.peek now) x.mailroom.nextTicket x (x.issue now verb).2 where
  rejectsOnClose := rfl
  closedFor := rfl
  pending := PendingTable.erase_insert coherent.ascending (coherent.peek_not_mem room now)
  last := rfl
  mailroom := ⟨.waiting, rfl⟩

section Refused

variable (coherent : Coherent x) (isOpen : x.closedFor = none) (room : x.ids.HasNext) (now : UInt64)
  (verb : String) (hs : List Happening) (failure : Failure)

include coherent isOpen room

theorem Coherent.beside_refused :
    let y := ((x.issue now verb).2.undergoAll hs).undergo (.refusal (x.ids.peek now) failure)
    Beside (x.ids.peek now) x.mailroom.nextTicket (x.undergoAll hs) y ∧
      x.ids.peek now ∉ y.pending.ids := by
  have entered := coherent.issue isOpen room now verb
  have beside := (coherent.beside_issue room now verb).undergoAll coherent entered hs
  exact beside.refusal (entered.undergoAll hs) failure

/-- The refusal comes last: it reaches the mailbox only if nothing has ended the request by then. -/
theorem Coherent.located_refused :
    let y := ((x.issue now verb).2.undergoAll hs).undergo (.refusal (x.ids.peek now) failure)
    ∃ box, y.mailroom.boxes[x.mailroom.nextTicket]? = some (x.ids.peek now, box) ∧
      match hs.find? (·.ends (x.ids.peek now) x.rejectsOnClose) with
      | none => box = .holding (.error failure)
      | some ending => ∃ outcome,
        ending.outcome? (x.ids.peek now) (x.undergoAll hs).closedFor = some outcome ∧
          box.Shows (x.ids.peek now) outcome := by
  intro y
  have entered := coherent.issue isOpen room now verb
  have issued : (x.issue now verb).2.Standing x.mailroom.nextTicket (x.ids.peek now) [] False :=
    ⟨not_false, Mailroom.getElem?_open_nextTicket _ _ _⟩
  have standing := issued.undergoAll entered hs
  have policy : ((x.issue now verb).2.undergoAll hs).rejectsOnClose = x.rejectsOnClose :=
    undergoAll_rejectsOnClose hs
  have gone : ((x.issue now verb).2.undergoAll hs).closedFor = (x.undergoAll hs).closedFor := by
    rw [undergoAll_closedFor, undergoAll_closedFor]
    rfl
  rw [Standing, List.nil_append, policy, gone] at standing
  cases ending : hs.find? (·.ends (x.ids.peek now) x.rejectsOnClose) with
  | none =>
      rw [ending] at standing
      have located := (entered.undergoAll hs).undergo_waiting standing.2
        (.refusal (x.ids.peek now) failure)
      rw [Happening.leaves, if_pos rfl] at located
      exact ⟨_, located, rfl⟩
  | some h =>
      rw [ending] at standing
      obtain ⟨outcome, box, brought, there, -, shows_⟩ := standing
      have settled := (shows_ not_false).ne_waiting
      exact ⟨box, (entered.undergoAll hs).undergo_settled settled there _, outcome, brought,
        shows_ not_false⟩

end Refused

/-- What a refused send leaves behind, where `without` is what the actions during it leave by
themselves, and `ending` is the first of them that ends the new request. -/
structure TakenBack (x without y : Exchange) (now : UInt64) (ending : Option Happening)
    (failure : Failure) : Prop where
  /-- The new request is not pending. -/
  notPending : x.ids.peek now ∉ y.pending.ids
  /-- Its mailbox comes after all others. -/
  last : without.mailroom.nextTicket = x.mailroom.nextTicket
  /-- That mailbox and the last identifier handed out are all that differs. -/
  same : ∃ box, y =
    { without with
      ids := { x.ids with last := (x.ids.peek now).value }
      mailroom := without.mailroom.open (x.ids.peek now) box }
  /-- The holder finds what ended the request first. -/
  found : ∀ h, ending = some h → ∃ outcome,
    h.outcome? (x.ids.peek now) without.closedFor = some outcome ∧
      y.Finds x.mailroom.nextTicket outcome
  /-- If nothing did, the mailbox holds the refusal. -/
  refused : ending = none → y.mailroom.box x.mailroom.nextTicket = .holding (.error failure) ∧
    y.Finds x.mailroom.nextTicket (.error failure)

theorem Coherent.takenBack (coherent : Coherent x) (isOpen : x.closedFor = none)
    (room : x.ids.HasNext) (now : UInt64) (verb : String) (arguments : List String)
    (meanwhile : List Event) (failure : Failure) :
    TakenBack x (x.performAll meanwhile).2
      (x.dispatch now verb arguments { meanwhile, failure := some failure }).2 now
      ((meanwhile.map Happening.event).find? (·.ends (x.ids.peek now) x.rejectsOnClose)) failure := by
  have sent : (x.dispatch now verb arguments { meanwhile, failure := some failure }).2 =
      ((x.issue now verb).2.undergoAll (meanwhile.map .event)).undergo
        (.refusal (x.ids.peek now) failure) := by
    rw [dispatch_snd_of_open isOpen, Handover.happenings, undergoAll_append]
    rfl
  rw [sent, performAll_snd]
  obtain ⟨beside, absent⟩ :=
    coherent.beside_refused isOpen room now verb (meanwhile.map .event) failure
  obtain ⟨box, located, brought⟩ :=
    coherent.located_refused isOpen room now verb (meanwhile.map .event) failure
  have same := beside.eq_of_not_mem absent located
  rw [undergo_ids, undergoAll_ids] at same
  refine ⟨absent, beside.last, ⟨box, same⟩, ?_, ?_⟩
  · intro h first
    rw [first] at brought
    obtain ⟨outcome, brings, shows_⟩ := brought
    exact ⟨outcome, brings, finds_of_shows located shows_⟩
  · intro unended
    rw [unended] at brought
    subst brought
    exact ⟨Mailroom.box_eq located, finds_of_outcomeOf located rfl⟩

/-- A failed send rolls back. Let actions run while the frame of a new request is handed over on the
open exchange, and let the transport refuse the frame after them. What is left is what these actions
leave without the send, but for an identifier that is used up and a mailbox of the new request. Its
holder finds what the first action that ends the request brought, and finds the refusal, whatever the
transport says, exactly when no action ends it. -/
theorem failed_send_rolls_back (reachable : Reachable x) (isOpen : x.closedFor = none)
    (room : x.ids.HasNext) (now : UInt64) (verb : String) (arguments : List String)
    (meanwhile : List Event) :
    let sent failure := x.dispatch now verb arguments { meanwhile, failure := some failure }
    let ending :=
      (meanwhile.map Happening.event).find? (·.ends (x.ids.peek now) x.rejectsOnClose)
    (∀ failure, (sent failure).1.id = x.ids.peek now ∧
        (sent failure).1.ticket = x.mailroom.nextTicket ∧
        TakenBack x (x.performAll meanwhile).2 (sent failure).2 now ending failure) ∧
      ((∀ failure, (sent failure).2.Finds x.mailroom.nextTicket (.error failure)) ↔
        ending = none) := by
  intro sent ending
  have takenBack failure :=
    reachable.coherent.takenBack isOpen room now verb arguments meanwhile failure
  refine ⟨?_, ?_, ?_⟩
  · intro failure
    obtain ⟨named, placed⟩ :=
      dispatch_fst_of_open isOpen now verb arguments { meanwhile, failure := some failure }
    exact ⟨named, placed, takenBack failure⟩
  · -- What ended the request does not depend on the refusal, so it cannot be every one of them.
    intro refuses
    cases first : ending with
    | none => rfl
    | some h =>
        obtain ⟨outcome, brought, finds⟩ := (takenBack (.network "first")).found h first
        obtain ⟨outcome', brought', finds'⟩ := (takenBack (.network "second")).found h first
        have same : outcome = outcome' := Option.some.inj (brought.symm.trans brought')
        rw [finds.unique (refuses (.network "first")),
          finds'.unique (refuses (.network "second"))] at same
        simp at same
  · intro unended failure
    exact ((takenBack failure).refused unended).2

/-- The reply to the new request comes in before the transport gives up, and then the caller and the end
of the connection come too late for it. -/
def answeredInside : List Event :=
  [.frame "ID 2 \x7b\"status\":\"success\",\"data\":true\x7d", .cancel ⟨2⟩, .close "over"]

theorem failed_send_rolls_back_answeredInside :
    let x := (fresh .counter true).after [.dispatch 0 "GET" ["a"] {}]
    let sent failure := x.dispatch 0 "GET" ["b"] { meanwhile := answeredInside, failure := some failure }
    Reachable x ∧ x.closedFor = none ∧ x.ids.HasNext ∧
      (∀ failure, (sent failure).2.Finds 1 (.ok (.bool true))) ∧
      ∀ failure, (sent failure).2.pending = (x.performAll answeredInside).2.pending := by
  intro x sent
  have reachable : Reachable x := reachable_after .counter true (by decide)
  have room : x.ids.HasNext := by
    unfold IdSource.HasNext
    decide
  obtain ⟨takenBack, -⟩ := failed_send_rolls_back reachable rfl room 0 "GET" ["b"] answeredInside
  have replies : (Happening.event answeredInside[0]).ends ⟨2⟩ true = true := by cbv
  have reads : (Happening.event answeredInside[0]).outcome? ⟨2⟩ (some "over") =
      some (.ok (.bool true)) := by cbv
  refine ⟨reachable, rfl, room, ?_, ?_⟩
  · intro failure
    obtain ⟨outcome, brought, finds⟩ := (takenBack failure).2.2.found (.event answeredInside[0])
      (List.find?_cons_of_pos replies)
    have gone : (x.performAll answeredInside).2.closedFor = some "over" := by cbv
    rw [gone] at brought
    obtain rfl := Option.some.inj (reads.symm.trans brought)
    exact finds
  · intro failure
    obtain ⟨box, same⟩ := (takenBack failure).2.2.same
    have pending := congrArg Exchange.pending same
    exact pending

end Switchboard.Exchange
