import Switchboard.Proofs.Interleaving.Soundness

/-! # A wait and its mailbox

Until a wait with a limit returns, what has been delivered to its request lies in its mailbox, and a
mailbox in which nothing lies after the withdrawal is that of a request in someone's hands.
-/

namespace Switchboard

theorem Reply.outcome_ne_timeout (r : Reply) (id : RequestId) (waited : UInt64) :
    r.outcome ≠ .error (.timeout id waited) := by
  cases r <;> simp [outcome]

namespace Scene

variable {s : Scene} {limit : UInt64} {ticket : Ticket} {id : RequestId}

/-- What is known of the mailbox of a wait until it returns. -/
structure Tracked (s : Scene) (limit : UInt64) (ticket : Ticket) (id : RequestId) : Prop where
  held : ∀ box, s.exchange.mailroom.boxes[ticket]? = some (id, box) → box ≠ .discarded
  /-- What was delivered lies in it. -/
  delivered : ∀ box, s.exchange.mailroom.boxes[ticket]? = some (id, box) →
    ∀ r, (id, r) ∈ s.delivered → box = .holding r.outcome
  /-- Only a mailbox that exists keeps a wait waiting. -/
  opened : s.waiting ≠ .watching → ticket < s.exchange.mailroom.nextTicket
  /-- While it waits, it is the time of the wait itself that was up. -/
  timedOut : ∀ i waited, s.waiting = .expired i waited ∨ s.waiting = .withdrawn i waited →
    s.exchange.mailroom.boxes[ticket]? = some (id, .waiting) → i = id ∧ waited = limit
  /-- While it waits after the withdrawal, the request is in hand. -/
  withdrawn : ∀ i waited, s.waiting = .withdrawn i waited →
    s.exchange.mailroom.boxes[ticket]? = some (id, .waiting) → id ∉ s.exchange.pending.ids

/-- What others may do to the mailbox of a wait: it is opened, or it is left alone or settled, and then
what has been delivered by then lies in it. -/
inductive Handled (s s' : Scene) (ticket : Ticket) (id : RequestId) (box : Mailbox) : Prop where
  | opened (nowhere : s.exchange.mailroom.boxes[ticket]? = none) (held : box ≠ .discarded)
      (unseen : ∀ r, (id, r) ∉ s'.delivered)
  | settled (old : Mailbox) (before : s.exchange.mailroom.boxes[ticket]? = some (id, old))
      (letGo : box = .discarded → old = .discarded)
      (waits : box = .waiting → old = .waiting ∧
        (id ∈ s'.exchange.pending.ids → id ∈ s.exchange.pending.ids))
      (holds : ∀ r, (id, r) ∈ s'.delivered → box = .holding r.outcome)

namespace Tracked

theorem start (strategy : IdStrategy) (rejectsOnClose : Bool) (limit : UInt64) (ticket : Ticket)
    (id : RequestId) : Tracked (Scene.start strategy rejectsOnClose) limit ticket id := by
  constructor <;> simp [Scene.start, Exchange.fresh]

theorem of_others {s' : Scene} (tracked : Tracked s limit ticket id) (same : s'.waiting = s.waiting)
    (grows : s.exchange.mailroom.nextTicket ≤ s'.exchange.mailroom.nextTicket)
    (boxes : ∀ box, s'.exchange.mailroom.boxes[ticket]? = some (id, box) →
      Handled s s' ticket id box) :
    Tracked s' limit ticket id := by
  -- A wait whose time is up has a mailbox already, so that it is not opened now.
  have standing : s.waiting ≠ .watching → s'.exchange.mailroom.boxes[ticket]? = some (id, .waiting) →
      s.exchange.mailroom.boxes[ticket]? = some (id, .waiting) ∧
        (id ∈ s'.exchange.pending.ids → id ∈ s.exchange.pending.ids) := by
    intro stage located
    cases boxes .waiting located with
    | opened nowhere =>
        have inside := tracked.opened stage
        exact absurd inside (Nat.not_lt.mpr (List.getElem?_eq_none_iff.mp nowhere))
    | settled old before letGo waits =>
        obtain ⟨rfl, fewer⟩ := waits rfl
        exact ⟨before, fewer⟩
  constructor
  case held =>
    intro box located
    cases boxes box located with
    | opened nowhere held => exact held
    | settled old before letGo => exact fun discarded => tracked.held old before (letGo discarded)
  case delivered =>
    intro box located r delivered
    cases boxes box located with
    | opened nowhere held unseen => exact absurd delivered (unseen r)
    | settled old before letGo waits holds => exact holds r delivered
  case opened =>
    intro stage
    rw [same] at stage
    exact Nat.lt_of_lt_of_le (tracked.opened stage) grows
  case timedOut =>
    intro i waited stage located
    rw [same] at stage
    have up : s.waiting ≠ .watching := by rcases stage with stage | stage <;> simp [stage]
    exact tracked.timedOut i waited stage (standing up located).1
  case withdrawn =>
    intro i waited stage located
    rw [same] at stage
    obtain ⟨before, fewer⟩ := standing (by simp [stage]) located
    exact mt fewer (tracked.withdrawn i waited stage before)

/-- The mailbox is left alone, nothing is delivered to its request, and this is not entered. -/
theorem unmoved {s' : Scene} (tracked : Tracked s limit ticket id) {box : Mailbox}
    (before : s.exchange.mailroom.boxes[ticket]? = some (id, box))
    (deliveries : ∀ r, (id, r) ∈ s'.delivered → (id, r) ∈ s.delivered)
    (fewer : box = .waiting → id ∈ s'.exchange.pending.ids → id ∈ s.exchange.pending.ids) :
    Handled s s' ticket id box :=
  .settled box before (fun letGo => letGo) (fun waits => ⟨waits, fewer waits⟩) fun r delivered =>
    tracked.delivered box before r (deliveries r delivered)

/-- A step that changes no mailbox, delivers nothing and enters no request. -/
theorem of_same_boxes {s' : Scene} (tracked : Tracked s limit ticket id)
    (same : s'.waiting = s.waiting) (room : s'.exchange.mailroom = s.exchange.mailroom)
    (deliveries : s'.delivered = s.delivered)
    (fewer : id ∈ s'.exchange.pending.ids → id ∈ s.exchange.pending.ids) :
    Tracked s' limit ticket id := by
  apply tracked.of_others same (by rw [room])
  intro box located
  rw [room] at located
  exact tracked.unmoved located (fun r delivered => deliveries ▸ delivered) fun _ => fewer

theorem pickUp (tracked : Tracked s limit ticket id) (other : RequestId) (errand : Errand) :
    Tracked (s.pickUp other errand) limit ticket id := by
  cases found : s.exchange.pending.find? other with
  | none => rwa [pickUp_of_not_mem (PendingTable.find?_eq_none.mp found)]
  | some p =>
      rw [pickUp_of_find? found]
      refine tracked.of_same_boxes rfl rfl rfl ?_
      intro pending
      rw [PendingTable.ids_erase] at pending
      exact (List.mem_filter.mp pending).1

theorem detach (tracked : Tracked s limit ticket id) (reason : String) (order : PendingTable.Order) :
    Tracked (s.detach reason order) limit ticket id := by
  by_cases rejects : s.exchange.rejectsOnClose
  · rw [detach_of_rejects rejects]
    refine tracked.of_same_boxes rfl rfl rfl ?_
    intro pending
    simp [PendingTable.ids] at pending
  · rw [detach_of_keeps rejects]
    exact tracked.of_same_boxes rfl rfl rfl fun pending => pending

/-- The request of the wait is completed in the mailbox of the wait, where nothing lies yet. -/
theorem finish (tracked : Tracked s limit ticket id) (sound : Sound s) (place : Nat) :
    Tracked (s.finish place) limit ticket id := by
  cases there : s.inHand[place]? with
  | none => rwa [finish_of_none there]
  | some c =>
      obtain ⟨t, whole⟩ := sound.whole
      have member := whole.mem_of_inHand (List.mem_of_getElem? there)
      rw [finish_of_getElem? there]
      refine tracked.of_others rfl (by simp [Exchange.complete]) ?_
      intro box located
      obtain ⟨old, before, -⟩ := Mailroom.of_getElem?_update _ located
      have own : c.request.id = id ↔ ticket = c.request.ticket := by
        rw [← whole.coherent.owner?_iff member, Mailroom.owner?_eq before, Option.some.injEq, eq_comm]
      by_cases here : ticket = c.request.ticket
      · have present : id ∈ t.ids := PendingTable.mem_ids.mpr ⟨c.request, member, own.mpr here⟩
        obtain rfl := whole.waiting_of_mem present before (tracked.held old before)
        have settled : box = .holding c.errand.outcome := by
          rw [here, Exchange.complete, Mailroom.getElem?_update_self, ← here, before] at located
          exact (Prod.mk.inj (Option.some.inj located)).2.symm
        refine .settled .waiting before (by simp [settled]) (by simp [settled]) ?_
        intro r delivered
        rcases List.mem_append.mp delivered with earlier | new
        · cases tracked.delivered .waiting before r earlier
        · rw [settled, (mem_deliveries.mp new).2]
          rfl
      · have kept : old = box := by
          rw [Exchange.complete, Mailroom.getElem?_update_of_ne _ here, before] at located
          exact (Prod.mk.inj (Option.some.inj located)).2
        rw [kept] at before
        refine tracked.unmoved before ?_ fun _ pending => pending
        intro r delivered
        rcases List.mem_append.mp delivered with earlier | new
        · exact earlier
        · exact absurd (own.mp (mem_deliveries.mp new).1) here

theorem cancel (tracked : Tracked s limit ticket id) (other : RequestId) :
    Tracked { s with exchange := (s.exchange.cancel other).2 } limit ticket id := by
  rw [Exchange.cancel_eq]
  cases found : s.exchange.pending.find? other with
  | none =>
      rwa [Exchange.settle_of_not_mem s.exchange other _ (PendingTable.find?_eq_none.mp found)]
  | some p =>
      rw [Exchange.settle_of_find? s.exchange other _ found]
      refine tracked.of_others rfl (by simp) ?_
      intro box located
      obtain ⟨old, before, changed⟩ := Mailroom.of_getElem?_update _ located
      rcases changed with rfl | ⟨-, rfl⟩
      · refine tracked.unmoved before (fun _ delivered => delivered) ?_
        intro _ pending
        rw [PendingTable.ids_erase] at pending
        exact (List.mem_filter.mp pending).1
      · refine .settled old before ?_ ?_ ?_
        · cases old <;> simp [Mailbox.giveUp]
        · exact fun waits => absurd waits (Mailbox.giveUp_ne_waiting old)
        · intro r delivered
          rw [tracked.delivered old before r delivered]
          rfl

theorem touch_other (tracked : Tracked s limit ticket id) {other : Ticket} (apart : other ≠ ticket)
    (f : Mailbox → Mailbox) :
    Tracked { s with exchange := s.exchange.touch other f } limit ticket id := by
  refine tracked.of_others rfl (by simp [Exchange.touch]) ?_
  intro box located
  have before := (Mailroom.getElem?_update_of_ne _ apart.symm f).symm.trans located
  exact tracked.unmoved before (fun _ delivered => delivered) fun _ pending => pending

/-- A mailbox that is opened is that of a request to which nothing has been delivered. -/
theorem opening (sound : Sound s) (room : s.exchange.ids.HasNext) (now : UInt64) {first box : Mailbox}
    (held : first ≠ .discarded)
    (located : (s.exchange.mailroom.open (s.exchange.ids.peek now) first).boxes[ticket]? =
      some (id, box)) :
    s.exchange.mailroom.boxes[ticket]? = some (id, box) ∨
      s.exchange.mailroom.boxes[ticket]? = none ∧ box ≠ .discarded ∧ ∀ r, (id, r) ∉ s.delivered := by
  rcases Mailroom.of_getElem?_open _ located with before | ⟨rfl, new⟩
  · exact Or.inl before
  · obtain ⟨rfl, rfl⟩ := Prod.mk.inj new
    refine Or.inr ⟨List.getElem?_eq_none (Nat.le_refl _), held, ?_⟩
    intro r delivered
    have before := UInt64.le_iff_toNat_le.mp (sound.known _ delivered)
    exact absurd before (Nat.not_le_of_lt (IdSource.last_lt_peek room now))

theorem send (tracked : Tracked s limit ticket id) (sound : Sound s) (room : s.exchange.ids.HasNext)
    (now : UInt64) (verb : String) (arguments : List String) :
    Tracked { s with exchange := (s.exchange.dispatch now verb arguments {}).2 } limit ticket id := by
  cases gone : s.exchange.closedFor with
  | some reason =>
      rw [Exchange.dispatch_of_closed gone]
      refine tracked.of_others rfl (Mailroom.nextTicket_le_open _ _ _) ?_
      intro box located
      rcases opening sound room now (by simp) located with before | ⟨nowhere, held, unseen⟩
      · exact tracked.unmoved before (fun _ delivered => delivered) fun _ pending => pending
      · exact .opened nowhere held unseen
  | none =>
      rw [Exchange.dispatch_snd_of_open gone]
      refine tracked.of_others rfl (Mailroom.nextTicket_le_open _ _ _) ?_
      intro box located
      rcases opening sound room now (by simp) located with before | ⟨nowhere, held, unseen⟩
      · refine tracked.unmoved before (fun _ delivered => delivered) ?_
        rintro rfl pending
        -- The mailbox is that of an open request, and the new one is none of these.
        obtain ⟨t, whole⟩ := sound.whole
        have fresh := whole.coherent.peek_not_mem room now
        obtain ⟨p, member, rfl, -⟩ := whole.coherent.awaited ticket id before
        obtain ⟨q, entered, named⟩ := PendingTable.mem_ids.mp pending
        rcases (PendingTable.mem_insert (whole.not_mem_pending fresh)).mp entered with rfl | old
        · exact absurd (PendingTable.mem_ids.mpr ⟨p, member, named.symm⟩) fresh
        · exact PendingTable.mem_ids.mpr ⟨q, old, named⟩
      · exact .opened nowhere held unseen

/-- Looking leaves a mailbox that waits as it is, so what is known of a wait whose time is up now is
known of the mailbox before. -/
theorem expire (tracked : Tracked s limit ticket id) {i : RequestId} {waited : UInt64}
    (found : (s.exchange.waitFor ticket limit).1 = some (.error (.timeout i waited))) :
    Tracked { s with exchange := (s.exchange.poll ticket).2, waiting := .expired i waited }
      limit ticket id := by
  rw [Exchange.poll_snd]
  have looked : ∀ box,
      (s.exchange.touch ticket Mailbox.emptied).mailroom.boxes[ticket]? = some (id, box) →
      ∃ old, s.exchange.mailroom.boxes[ticket]? = some (id, old) ∧ box = old.emptied := by
    intro box located
    rw [Exchange.touch, Mailroom.getElem?_update_self] at located
    obtain ⟨⟨owner, old⟩, before, changed⟩ := Option.map_eq_some_iff.mp located
    obtain ⟨rfl, rfl⟩ := Prod.mk.inj changed
    exact ⟨old, before, rfl⟩
  have exists_ : ticket < s.exchange.mailroom.nextTicket := by
    by_contra outside
    have nowhere := List.getElem?_eq_none_iff.mpr (Nat.not_lt.mp outside)
    have unowned : s.exchange.mailroom.owner? ticket = none := by
      rw [Mailroom.owner?, nowhere, Option.map_none]
    simp [Exchange.waitFor, unowned] at found
  refine ⟨?_, ?_, ?_, ?_, ?_⟩
  · intro box located
    obtain ⟨old, before, rfl⟩ := looked box located
    have held := tracked.held old before
    cases old <;> simp_all [Mailbox.emptied]
  · -- A mailbox that holds a reply does not report a timeout.
    intro box located r delivered
    obtain ⟨old, before, rfl⟩ := looked box located
    have holds := tracked.delivered old before r delivered
    rw [Exchange.waitFor_fst before, holds] at found
    exact absurd (Option.some.inj found) (r.outcome_ne_timeout i waited)
  · intro _
    simpa [Exchange.touch] using exists_
  · intro i' waited' stage located
    obtain ⟨old, before, emptied⟩ := looked .waiting located
    rw [Mailbox.emptied_eq_waiting.mp emptied.symm] at before
    rw [Exchange.waitFor_fst before] at found
    have own : (.error (.timeout id limit) : Outcome) = .error (.timeout i waited) :=
      Option.some.inj found
    cases own
    have same : Waiting.expired id limit = .expired i' waited' := stage.resolve_right (by simp)
    cases same
    exact ⟨rfl, rfl⟩
  · intro i' waited' stage
    contradiction

theorem withdraw (tracked : Tracked s limit ticket id) {i : RequestId} {waited : UInt64}
    (stage : s.waiting = .expired i waited) :
    Tracked { s with exchange := (s.exchange.cancel i).2, waiting := .withdrawn i waited }
      limit ticket id := by
  have cancelled := tracked.cancel i
  have gone : i ∉ (s.exchange.cancel i).2.pending.ids := by
    rw [Exchange.cancel_eq, Exchange.settle_pending, PendingTable.ids_erase]
    simp
  refine ⟨cancelled.held, cancelled.delivered, fun _ => cancelled.opened (by simp [stage]), ?_, ?_⟩
  · intro i' waited' stage' located
    have same : Waiting.withdrawn i waited = .withdrawn i' waited' := stage'.resolve_left (by simp)
    cases same
    exact cancelled.timedOut i waited (Or.inl stage) located
  · intro i' waited' stage' located
    obtain ⟨rfl, -⟩ := cancelled.timedOut i waited (Or.inl stage) located
    exact gone

theorem wait (tracked : Tracked s limit ticket id)
    (running : ∀ outcome, (s.act limit ticket .wait).waiting ≠ .returned outcome) :
    Tracked (s.act limit ticket .wait) limit ticket id := by
  rw [act_wait] at running ⊢
  cases stage : s.waiting with
  | returned outcome =>
      rw [stage] at running
      exact absurd rfl (running outcome)
  | withdrawn i waited =>
      rw [stage] at running
      exact absurd rfl (running _)
  | expired i waited => exact tracked.withdraw stage
  | watching =>
      rw [stage] at running
      rcases next_watching limit ticket s.exchange with
        ⟨unowned, same⟩ | ⟨i, waited, found, same⟩ | ⟨outcome, -, -, same⟩
      · -- There is no such mailbox yet.
        rw [same]
        have nowhere : s.exchange.mailroom.boxes[ticket]? = none := by
          simpa [Mailroom.owner?] using unowned
        have untouched : (s.exchange.poll ticket).2 = s.exchange := by
          rw [Exchange.poll_snd, Exchange.touch, Mailroom.update_of_none nowhere]
        rw [untouched]
        exact tracked.of_same_boxes stage.symm rfl rfl fun pending => pending
      · rw [same]
        exact tracked.expire found
      · rw [same] at running
        exact absurd rfl (running outcome)

theorem act (tracked : Tracked s limit ticket id) (sound : Sound s) {a : Act}
    (allowed : s.Allowed ticket a)
    (running : ∀ outcome, (s.act limit ticket a).waiting ≠ .returned outcome) :
    Tracked (s.act limit ticket a) limit ticket id := by
  cases a with
  | send now verb arguments => exact tracked.send sound allowed now verb arguments
  | arrive text =>
      rw [act_arrive]
      split
      · exact tracked.pickUp _ _
      · exact tracked
  | refuse other failure => exact tracked.pickUp other _
  | close reason order => exact tracked.detach reason order
  | finish place => exact tracked.finish sound place
  | cancel other => exact tracked.cancel other
  | look other =>
      rw [Scene.act, Exchange.poll_snd]
      exact tracked.touch_other allowed _
  | discard other => exact tracked.touch_other allowed _
  | wait => exact tracked.wait running

end Tracked

theorem Tracked.play (tracked : Tracked s limit ticket id) (sound : Sound s) {acts : List Act}
    (legal : s.Legal limit ticket acts)
    (running : ∀ outcome, (s.play limit ticket acts).waiting ≠ .returned outcome) :
    Tracked (s.play limit ticket acts) limit ticket id := by
  induction acts generalizing s with
  | nil => exact tracked
  | cons a rest ih =>
      have still : ∀ outcome, (s.act limit ticket a).waiting ≠ .returned outcome :=
        fun outcome stage => running outcome (waiting_of_returned stage rest)
      exact ih (tracked.act sound legal.1 still) (sound.act legal.1) legal.2 running

end Scene

end Switchboard
