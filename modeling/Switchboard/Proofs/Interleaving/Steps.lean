import Switchboard.Exchange.Interleaving
import Switchboard.Proofs.Exchange.Closing

/-! # Steps of callers that act at the same time

An operation of the exchange is cut into steps so that other callers can come between them. Where no
one does, the steps are the operation again.
-/

namespace Switchboard.Scene

variable {s : Scene} {limit : UInt64} {ticket : Ticket} {id : RequestId}

section Steps

theorem mem_deliveries {c : Carried} {r : Reply} :
    (id, r) ∈ c.errand.deliveries c.request.id ↔ c.request.id = id ∧ c.errand = .reply r := by
  cases c.errand <;> simp [Errand.deliveries, eq_comm]

theorem pickUp_of_find? {p : Pending} (found : s.exchange.pending.find? id = some p)
    (errand : Errand) :
    s.pickUp id errand =
      { s with
        exchange := { s.exchange with pending := s.exchange.pending.erase id }
        inHand := s.inHand ++ [⟨p, errand⟩] } := by
  simp only [pickUp, Exchange.take, PendingTable.take, found]

theorem pickUp_of_not_mem (absent : id ∉ s.exchange.pending.ids) (errand : Errand) :
    s.pickUp id errand = s := by
  simp only [pickUp, Exchange.take, PendingTable.take, PendingTable.find?_eq_none.mpr absent]

theorem pickUp_cases (s : Scene) (other : RequestId) (errand : Errand) :
    s.pickUp other errand = s ∨ ∃ p ∈ s.exchange.pending.entries,
      s.pickUp other errand =
        { s with
          exchange := { s.exchange with pending := s.exchange.pending.erase other }
          inHand := s.inHand ++ [⟨p, errand⟩] } := by
  cases found : s.exchange.pending.find? other with
  | none => exact Or.inl (pickUp_of_not_mem (PendingTable.find?_eq_none.mp found) errand)
  | some p =>
      exact Or.inr ⟨p, (PendingTable.mem_of_find? found).1, pickUp_of_find? found errand⟩

theorem pickUp_waiting (s : Scene) (other : RequestId) (errand : Errand) :
    (s.pickUp other errand).waiting = s.waiting := by
  rcases s.pickUp_cases other errand with same | ⟨p, -, same⟩ <;> rw [same]

theorem act_arrive (s : Scene) (limit : UInt64) (ticket : Ticket) (text : String) :
    s.act limit ticket (.arrive text) =
      match ReplyFrame.answer? text with
      | some (id, reply) => s.pickUp id (.reply reply)
      | none => s := by
  rw [act, ReplyFrame.answer?]
  cases ReplyFrame.decode text with
  | error problem => rfl
  | ok frame =>
      obtain ⟨token, reply⟩ := frame
      cases named : RequestId.ofToken? token <;> simp [named]

theorem act_wait (s : Scene) (limit : UInt64) (ticket : Ticket) :
    s.act limit ticket .wait =
      { s with
        exchange := (s.waiting.next limit ticket s.exchange).2
        waiting := (s.waiting.next limit ticket s.exchange).1 } := rfl

theorem play_append (s : Scene) (limit : UInt64) (ticket : Ticket) (first second : List Act) :
    s.play limit ticket (first ++ second) =
      (s.play limit ticket first).play limit ticket second := List.foldl_append

theorem finish_of_getElem? {place : Nat} {c : Carried} (there : s.inHand[place]? = some c) :
    s.finish place =
      { s with
        exchange := s.exchange.complete c.request c.errand.outcome
        inHand := s.inHand.eraseIdx place
        delivered := s.delivered ++ c.errand.deliveries c.request.id } := by
  simp only [finish, there]

theorem finish_of_none {place : Nat} (nothing : s.inHand[place]? = none) : s.finish place = s := by
  simp only [finish, nothing]

theorem detach_of_rejects (rejects : s.exchange.rejectsOnClose) (reason : String)
    (order : PendingTable.Order) :
    s.detach reason order =
      { s with
        exchange := { s.exchange.markClosed reason with pending := {} }
        inHand := s.inHand ++ (order.arrange s.exchange.pending.entries).map fun p =>
          ⟨p, .failure (.disconnected (s.exchange.closedFor.getD reason))⟩ } := by
  simp [detach, rejects, PendingTable.drain, Exchange.markClosed]

theorem detach_of_keeps (keeps : ¬ s.exchange.rejectsOnClose) (reason : String)
    (order : PendingTable.Order) :
    s.detach reason order = { s with exchange := s.exchange.markClosed reason } := by
  simp [detach, keeps, Exchange.markClosed]

end Steps

section InARow

/-! Steps of one caller that no other comes between are the operation that they are the steps of. -/

theorem pickUp_finish (s : Scene) (id : RequestId) (errand : Errand) :
    (s.pickUp id errand).finish s.inHand.length =
      { s with
        exchange := s.exchange.settle id (·.deliver errand.outcome)
        delivered := s.delivered ++
          if id ∈ s.exchange.pending.ids then errand.deliveries id else [] } := by
  cases found : s.exchange.pending.find? id with
  | none =>
      have absent := PendingTable.find?_eq_none.mp found
      have nothing : s.inHand[s.inHand.length]? = none := List.getElem?_eq_none (Nat.le_refl _)
      rw [pickUp_of_not_mem absent, finish_of_none nothing, Exchange.settle_of_not_mem _ _ _ absent,
        if_neg absent, List.append_nil]
  | some p =>
      obtain ⟨member, rfl⟩ := PendingTable.mem_of_find? found
      have pending := PendingTable.mem_ids.mpr ⟨p, member, rfl⟩
      rw [pickUp_of_find? found, finish_of_getElem? (List.getElem?_concat_length),
        Exchange.settle_of_find? _ _ _ found, if_pos pending]
      simp [List.eraseIdx_append_of_length_le, Exchange.complete]

theorem receive_in_a_row (s : Scene) (limit : UInt64) (ticket : Ticket) (text : String) :
    let after := s.play limit ticket [.arrive text, .finish s.inHand.length]
    let result := (s.exchange.receive text).1
    after.exchange = (s.exchange.receive text).2 ∧ after.inHand = s.inHand ∧
      ((∃ id reply, after.delivered = s.delivered ++ [(id, reply)] ∧
          result = if reply.isSuccess then .resolved id else .rejected id) ∨
        after.delivered = s.delivered ∧ (result = .malformed ∨ result = .unmatched)) := by
  intro after result
  have steps : after = (s.act limit ticket (.arrive text)).finish s.inHand.length := rfl
  rw [act_arrive] at steps
  cases answers : ReplyFrame.answer? text with
  | none =>
      have nothing : s.inHand[s.inHand.length]? = none := List.getElem?_eq_none (Nat.le_refl _)
      simp only [answers] at steps
      rw [finish_of_none nothing] at steps
      rcases s.exchange.receive_of_answer?_none answers with dropped | dropped
      · simp [steps, result, dropped]
      · simp [steps, result, dropped]
  | some answer =>
      obtain ⟨id, reply⟩ := answer
      simp only [answers] at steps
      rw [pickUp_finish] at steps
      have received := s.exchange.receive_of_answer? id answers
      by_cases pending : id ∈ s.exchange.pending.ids
      · refine ⟨by simp [steps, received, Errand.outcome], by rw [steps], Or.inl ⟨id, reply, ?_, ?_⟩⟩
        · simp [steps, pending, Errand.deliveries]
        · simp [result, received, pending]
      · refine ⟨by simp [steps, received, Errand.outcome], by rw [steps], Or.inr ⟨?_, ?_⟩⟩
        · simp [steps, pending]
        · simp [result, received, pending]

theorem refuse_in_a_row (s : Scene) (limit : UInt64) (ticket : Ticket) (id : RequestId)
    (failure : Failure) :
    s.play limit ticket [.refuse id failure, .finish s.inHand.length] =
      { s with exchange := s.exchange.reject id failure } := by
  have steps : s.play limit ticket [.refuse id failure, .finish s.inHand.length] =
      (s.pickUp id (.failure failure)).finish s.inHand.length := rfl
  rw [steps, pickUp_finish, Exchange.reject_eq]
  simp [Errand.deliveries, Errand.outcome]

/-- Requests that were drained are completed one after the other, always the first that is left. -/
theorem play_finish_drained (x : Exchange) (s : Scene) (limit : UInt64) (ticket : Ticket)
    (failure : Failure) (ps : List Pending) :
    let drained : Scene :=
      { s with exchange := x, inHand := s.inHand ++ ps.map fun p => ⟨p, .failure failure⟩ }
    drained.play limit ticket (List.replicate ps.length (.finish s.inHand.length)) =
      { s with exchange := ps.foldl (fun y p => y.complete p (.error failure)) x } := by
  induction ps generalizing x with
  | nil => simp [play]
  | cons p rest ih =>
      intro drained
      have first : drained.inHand[s.inHand.length]? = some ⟨p, .failure failure⟩ := by
        simp [drained]
      have step : drained.finish s.inHand.length =
          { s with
            exchange := x.complete p (.error failure)
            inHand := s.inHand ++ rest.map fun p => ⟨p, .failure failure⟩ } := by
        rw [finish_of_getElem? first]
        simp [drained, List.eraseIdx_append_of_length_le, Errand.deliveries, Errand.outcome]
      have rested := ih (x.complete p (.error failure))
      rw [← step] at rested
      exact rested

/-- In whichever order the requests are drained. -/
theorem close_in_a_row (s : Scene) (limit : UInt64) (ticket : Ticket) (reason : String)
    (order : PendingTable.Order) :
    s.play limit ticket
        (.close reason order :: List.replicate (s.exchange.close reason).1 (.finish s.inHand.length)) =
      { s with exchange := (s.exchange.close reason).2 } := by
  by_cases rejects : s.exchange.rejectsOnClose
  · have same := order.perm s.exchange.pending.entries
    have count : (s.exchange.close reason).1 = (order.arrange s.exchange.pending.entries).length := by
      rw [Exchange.close_fst, if_pos rejects, same.length_eq]
      rfl
    have drained := play_finish_drained { s.exchange.markClosed reason with pending := {} } s limit
      ticket (.disconnected (s.exchange.closedFor.getD reason))
      (order.arrange s.exchange.pending.entries)
    rw [count, s.exchange.close_snd_of_rejects rejects reason same, ← drained,
      ← detach_of_rejects rejects]
    rfl
  · simp [Exchange.close, rejects, play, act, detach]

theorem wait_in_a_row (s : Scene) (limit : UInt64) (ticket : Ticket) {outcome : Outcome}
    {x : Exchange} (watching : s.waiting = .watching)
    (waits : Client.wait { limit := some limit } s.exchange ticket = (some outcome, x)) :
    s.play limit ticket [.wait, .wait, .wait] =
      { s with exchange := x, waiting := .returned outcome } := by
  have steps : s.play limit ticket [.wait, .wait, .wait] =
      ((s.act limit ticket .wait).act limit ticket .wait).act limit ticket .wait := rfl
  rw [steps, s.act_wait, watching]
  cases looked : s.exchange.waitFor ticket limit with
  | mk found y =>
      cases found with
      | none => simp [Client.wait, looked] at waits
      | some found =>
          by_cases timedOut : ∃ id waited, found = .error (.timeout id waited)
          · obtain ⟨id, waited, rfl⟩ := timedOut
            simp only [Client.wait, looked, Prod.mk.injEq, Option.some.injEq] at waits
            obtain ⟨rfl, rfl⟩ := waits
            simp only [Waiting.next, looked]
            rfl
          · have prompt : Waiting.next limit ticket s.exchange .watching =
                (.returned found, y.discard ticket) := by
              simp only [Waiting.next, looked]
              split <;> simp_all
            have same : (some found, y.discard ticket) = (some outcome, x) := by
              rw [← waits]
              simp only [Client.wait, looked]
              split <;> simp_all
            simp only [Prod.mk.injEq, Option.some.injEq] at same
            obtain ⟨rfl, rfl⟩ := same
            rw [prompt]
            rfl

end InARow

end Switchboard.Scene
