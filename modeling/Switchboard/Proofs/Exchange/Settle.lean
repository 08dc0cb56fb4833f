import Switchboard.Exchange
import Switchboard.Proofs.Mailroom
import Switchboard.Proofs.PendingTable

/-! # Settling requests

Whatever ends a request takes its entry out of the table and changes its mailbox once. A reply, a
withdrawal and a refusal by the transport settle one identifier; the end of the connection settles
all that are pending, one after the other. So what holds of settling holds of them all.
-/

namespace Switchboard

namespace ReplyFrame

/-- The identifier that a frame answers, with the reply, if it answers any. -/
def answer? (text : String) : Option (RequestId × Reply) :=
  match decode text with
  | .ok (token, reply) => (RequestId.ofToken? token).map fun id => (id, reply)
  | .error _ => none

theorem answer?_eq_some_iff {text : String} {id : RequestId} {reply : Reply} :
    answer? text = some (id, reply) ↔ decode text = .ok (id.token, reply) := by
  rw [answer?]
  cases decoded : decode text with
  | error problem => simp
  | ok frame =>
      obtain ⟨token, found⟩ := frame
      simp only [Option.map_eq_some_iff, Prod.mk.injEq, Except.ok.injEq,
        RequestId.ofToken?_eq_some_iff]
      constructor
      · rintro ⟨id', named, rfl, rfl⟩
        exact ⟨named, rfl⟩
      · rintro ⟨named, rfl⟩
        exact ⟨id, named, rfl, rfl⟩

end ReplyFrame

/-- A change that ends the wait at a mailbox and leaves every other mailbox as it is. -/
def Mailbox.Settles (f : Mailbox → Mailbox) : Prop :=
  f .waiting ≠ .waiting ∧ ∀ box, box ≠ .waiting → f box = box

theorem Mailbox.settles_deliver (outcome : Outcome) : Mailbox.Settles (·.deliver outcome) :=
  ⟨deliver_ne_waiting _ outcome, fun _ settled => deliver_of_ne_waiting settled outcome⟩

theorem Mailbox.settles_giveUp : Mailbox.Settles Mailbox.giveUp :=
  ⟨giveUp_ne_waiting _, fun _ settled => giveUp_of_ne_waiting settled⟩

namespace Exchange

/-- Changes one mailbox and nothing else. -/
def touch (x : Exchange) (ticket : Ticket) (f : Mailbox → Mailbox) : Exchange :=
  { x with mailroom := x.mailroom.update ticket f }

/-- Takes the request of an identifier out of the table, if it is there, and changes its mailbox. -/
def settle (x : Exchange) (id : RequestId) (f : Mailbox → Mailbox) : Exchange :=
  match x.pending.find? id with
  | none => x
  | some p => { x with pending := x.pending.erase id, mailroom := x.mailroom.update p.ticket f }

def settleAll (x : Exchange) (ids : List RequestId) (f : Mailbox → Mailbox) : Exchange :=
  ids.foldl (fun y id => y.settle id f) x

/-- The connection is gone, and no request has been rejected for it yet. -/
def markClosed (x : Exchange) (reason : String) : Exchange :=
  { x with closedFor := some (x.closedFor.getD reason) }

variable (x : Exchange) (id : RequestId) (f : Mailbox → Mailbox)

theorem settle_of_find? {p : Pending} (found : x.pending.find? id = some p) :
    x.settle id f =
      { x with pending := x.pending.erase id, mailroom := x.mailroom.update p.ticket f } := by
  simp only [settle, found]

theorem settle_of_not_mem (absent : id ∉ x.pending.ids) : x.settle id f = x := by
  simp only [settle, PendingTable.find?_eq_none.mpr absent]

@[simp] theorem settle_ids : (x.settle id f).ids = x.ids := by
  rw [settle]
  split <;> rfl

@[simp] theorem settle_closedFor : (x.settle id f).closedFor = x.closedFor := by
  rw [settle]
  split <;> rfl

@[simp] theorem settle_rejectsOnClose : (x.settle id f).rejectsOnClose = x.rejectsOnClose := by
  rw [settle]
  split <;> rfl

theorem settle_pending : (x.settle id f).pending = x.pending.erase id := by
  by_cases present : id ∈ x.pending.ids
  · obtain ⟨p, found⟩ := Option.ne_none_iff_exists'.mp (mt PendingTable.find?_eq_none.mp (by simpa))
    rw [settle_of_find? x id f found]
  · rw [settle_of_not_mem x id f present, PendingTable.erase_of_not_mem present]

section All

variable (ids : List RequestId)

@[simp] theorem settleAll_nil : x.settleAll [] f = x := rfl

@[simp] theorem settleAll_cons :
    x.settleAll (id :: ids) f = (x.settle id f).settleAll ids f := rfl

theorem settleAll_induction {P : Exchange → Prop}
    (step : ∀ y id, P y → P (y.settle id f)) (start : P x) :
    P (x.settleAll ids f) := by
  induction ids generalizing x with
  | nil => exact start
  | cons id rest ih => exact ih (x.settle id f) (step x id start)

end All

section Operations

theorem reject_eq (failure : Failure) :
    x.reject id failure = x.settle id (·.deliver (.error failure)) := by
  simp only [reject, take, PendingTable.take, settle, complete]
  cases x.pending.find? id <;> rfl

theorem cancel_eq : x.cancel id = (decide (id ∈ x.pending.ids), x.settle id Mailbox.giveUp) := by
  simp only [cancel, take, PendingTable.take, settle, giveUp]
  cases found : x.pending.find? id with
  | none => simp [PendingTable.find?_eq_none.mp found]
  | some p =>
      obtain ⟨member, same⟩ := PendingTable.mem_of_find? found
      have present : id ∈ x.pending.ids := PendingTable.mem_ids.mpr ⟨p, member, same⟩
      simp [present]

theorem receive_of_answer? {text : String} {reply : Reply}
    (answers : ReplyFrame.answer? text = some (id, reply)) :
    x.receive text =
      (if id ∈ x.pending.ids then
        if reply.isSuccess then .resolved id else .rejected id
      else .unmatched, x.settle id (·.deliver reply.outcome)) := by
  have decoded := ReplyFrame.answer?_eq_some_iff.mp answers
  simp only [receive, decoded, RequestId.ofToken?_token, take, PendingTable.take, settle, complete]
  cases found : x.pending.find? id with
  | none => simp [PendingTable.find?_eq_none.mp found]
  | some p =>
      obtain ⟨member, same⟩ := PendingTable.mem_of_find? found
      have present : id ∈ x.pending.ids := PendingTable.mem_ids.mpr ⟨p, member, same⟩
      simp [present]

theorem receive_of_answer?_none {text : String} (answers : ReplyFrame.answer? text = none) :
    x.receive text = (.malformed, x) ∨ x.receive text = (.unmatched, x) := by
  rw [ReplyFrame.answer?] at answers
  rw [receive]
  cases decoded : ReplyFrame.decode text with
  | error problem => exact Or.inl rfl
  | ok frame =>
      obtain ⟨token, reply⟩ := frame
      simp only [decoded, Option.map_eq_none_iff] at answers
      right
      simp only [answers]

theorem foldl_complete (ps : List Pending) (outcome : Outcome) :
    ps.foldl (fun y p => y.complete p outcome) x =
      { x with
        mailroom := ps.foldl (fun room p => room.update p.ticket (·.deliver outcome)) x.mailroom } := by
  induction ps generalizing x with
  | nil => rfl
  | cons p rest ih => exact ih (x.complete p outcome)

/-- Requests that are completed alike may be completed in any order. -/
theorem foldl_complete_perm {ps qs : List Pending} (same : ps.Perm qs) (outcome : Outcome) :
    ps.foldl (fun y p => y.complete p outcome) x = qs.foldl (fun y p => y.complete p outcome) x := by
  refine same.foldl_eq' ?_ x
  intro p _ q _ y
  simp only [complete, Mailroom.update_right_comm]

/-- Draining the table settles every request in it. The head of an ascending list has an identifier
that no later entry has, so taking it out leaves just the rest. -/
theorem settleAll_pending_ids (ascending : x.pending.Ascending) (outcome : Outcome) :
    x.settleAll x.pending.ids (·.deliver outcome) =
      x.pending.entries.foldl (fun y p => y.complete p outcome) { x with pending := {} } := by
  obtain ⟨ids, rejects, ⟨entries⟩, room, closedFor⟩ := x
  induction entries generalizing room with
  | nil => rfl
  | cons p rest ih =>
      obtain ⟨above, tail⟩ := List.pairwise_cons.mp ascending
      have others : rest.filter (fun q => q.id != p.id) = rest := by
        rw [List.filter_eq_self]
        intro q member
        exact bne_iff_ne.mpr (RequestId.ne_of_lt (above q member)).symm
      have found : PendingTable.find? ⟨p :: rest⟩ p.id = some p := by
        simp [PendingTable.find?]
      have erased : PendingTable.erase ⟨p :: rest⟩ p.id = ⟨rest⟩ := by
        simp [PendingTable.erase, others]
      simp only [PendingTable.ids, List.map_cons, settleAll_cons, List.foldl_cons]
      rw [settle_of_find? _ _ _ found, erased]
      exact ih _ tail

theorem close_fst (reason : String) :
    (x.close reason).1 = if x.rejectsOnClose then x.pending.size else 0 := by
  simp only [close]
  split <;> rfl

/-- The end of the connection completes what it drains, and the order does not matter. -/
theorem close_snd_of_rejects (rejects : x.rejectsOnClose) (reason : String) {order : List Pending}
    (same : order.Perm x.pending.entries) :
    (x.close reason).2 =
      order.foldl (fun y p => y.complete p (.error (.disconnected (x.closedFor.getD reason))))
        { x.markClosed reason with pending := {} } := by
  rw [foldl_complete_perm _ same]
  simp only [close]
  rw [if_pos rejects]
  rfl

theorem close_pending (reason : String) :
    (x.close reason).2.pending = if x.rejectsOnClose then {} else x.pending := by
  simp only [close, foldl_complete, PendingTable.drain]
  split <;> rfl

theorem close_ids (reason : String) : (x.close reason).2.ids = x.ids := by
  simp only [close, foldl_complete]
  split <;> rfl

theorem close_closedFor (reason : String) :
    (x.close reason).2.closedFor = some (x.closedFor.getD reason) := by
  simp only [close, foldl_complete]
  split <;> rfl

theorem close_rejectsOnClose (reason : String) :
    (x.close reason).2.rejectsOnClose = x.rejectsOnClose := by
  simp only [close, foldl_complete]
  split <;> rfl

theorem close_snd (ascending : x.pending.Ascending) (reason : String) :
    (x.close reason).2 =
      if x.rejectsOnClose then
        (x.markClosed reason).settleAll x.pending.ids
          (·.deliver (.error (.disconnected (x.closedFor.getD reason))))
      else x.markClosed reason := by
  simp only [close, PendingTable.drain]
  by_cases rejects : x.rejectsOnClose
  · rw [if_pos rejects, if_pos rejects]
    exact ((x.markClosed reason).settleAll_pending_ids ascending _).symm
  · rw [if_neg rejects, if_neg rejects]
    rfl

theorem poll_snd (ticket : Ticket) : (x.poll ticket).2 = x.touch ticket Mailbox.emptied := by
  rw [poll]
  cases owned : x.mailroom.owner? ticket with
  | some id => rfl
  | none =>
      have outside : x.mailroom.boxes[ticket]? = none := by
        simpa [Mailroom.owner?] using owned
      have same : x.mailroom.update ticket Mailbox.emptied = x.mailroom := by
        simp only [Mailroom.update, List.modify_eq_self (List.getElem?_eq_none_iff.mp outside)]
      simp only [touch, same]

theorem waitFor_snd (ticket : Ticket) (limit : UInt64) :
    (x.waitFor ticket limit).2 = (x.poll ticket).2 := by
  rw [waitFor]
  cases owned : x.mailroom.owner? ticket with
  | none => simp only [poll, owned]
  | some id =>
      cases polled : x.poll ticket with
      | mk outcome y => cases outcome <;> rfl

theorem discard_eq (ticket : Ticket) : x.discard ticket = x.touch ticket fun _ => .discarded := rfl

theorem touch_discard (ticket : Ticket) : (x.touch ticket f).discard ticket = x.discard ticket := by
  simp only [touch, discard, Mailroom.update, List.modify_modify_eq]
  rfl

theorem touch_settle_discard (ticket : Ticket) (g : Mailbox → Mailbox) :
    ((x.touch ticket f).settle id g).discard ticket = (x.settle id g).discard ticket := by
  cases found : x.pending.find? id with
  | none =>
      have absent := PendingTable.find?_eq_none.mp found
      rw [settle_of_not_mem x id g absent, settle_of_not_mem (x.touch ticket f) id g absent,
        touch_discard]
  | some p =>
      rw [settle_of_find? x id g found, settle_of_find? (x.touch ticket f) id g found]
      simp only [discard, touch, Mailroom.update_update_overwrite]

theorem poll_discard (ticket : Ticket) : (x.poll ticket).2.discard ticket = x.discard ticket := by
  rw [poll_snd, touch_discard]

/-- A wait that ends gives the ticket up; one that does not changes no more than a poll. -/
theorem wait_snd (ticket : Ticket) :
    (x.wait ticket).2 =
      if (x.poll ticket).1.isSome then x.discard ticket else x.touch ticket Mailbox.emptied := by
  rw [wait, ← x.touch_discard Mailbox.emptied, ← poll_snd]
  cases polled : x.poll ticket with
  | mk outcome y => cases outcome <;> rfl

end Operations

end Exchange

end Switchboard
