import Switchboard.Proofs.Interleaving.Steps

/-! # What callers keep who act at the same time

A request in someone's hands is neither in the table nor completed, so the table alone does not say
what is open. But if every request in hand is put back, table and mailroom agree as they do between
whole operations, and each step of a caller is an operation on the exchange restored in this way, or
nothing at all.
-/

namespace Switchboard.Scene

variable {s : Scene} {limit : UInt64} {ticket : Ticket} {id : RequestId} {t : PendingTable}

/-- The table as it would be if what is in anyone's hands were put back. -/
structure Whole (s : Scene) (t : PendingTable) : Prop where
  coherent : Exchange.Coherent { s.exchange with pending := t }
  parts : t.entries.Perm (s.exchange.pending.entries ++ s.inHand.map Carried.request)

/-- Whatever is open is pending or in hand, and what has been delivered was sent before. -/
structure Sound (s : Scene) : Prop where
  ascending : s.exchange.pending.Ascending
  whole : ∃ t, s.Whole t
  known : ∀ d ∈ s.delivered, d.1.value ≤ s.exchange.ids.last

namespace Whole

theorem mem_of_pending (whole : s.Whole t) {p : Pending} (member : p ∈ s.exchange.pending.entries) :
    p ∈ t.entries :=
  whole.parts.mem_iff.mpr (List.mem_append_left _ member)

theorem mem_of_inHand (whole : s.Whole t) {c : Carried} (member : c ∈ s.inHand) :
    c.request ∈ t.entries :=
  whole.parts.mem_iff.mpr (List.mem_append_right _ (List.mem_map_of_mem member))

/-- A request that is open has a mailbox that waits, if its holder keeps the handle. -/
theorem waiting_of_mem (whole : s.Whole t) (present : id ∈ t.ids) {box : Mailbox}
    (located : s.exchange.mailroom.boxes[ticket]? = some (id, box)) (held : box ≠ .discarded) :
    box = .waiting :=
  (whole.coherent.waiting_iff_pending located held).mpr present

theorem not_mem_pending (whole : s.Whole t) (absent : id ∉ t.ids) :
    id ∉ s.exchange.pending.ids := by
  intro present
  obtain ⟨p, member, named⟩ := PendingTable.mem_ids.mp present
  exact absent (PendingTable.mem_ids.mpr ⟨p, whole.mem_of_pending member, named⟩)

/-- A request that is completed or given up leaves the restored table. -/
theorem settle (whole : s.Whole t) {p : Pending} (member : p ∈ t.entries)
    {f : Mailbox → Mailbox} (settles : Mailbox.Settles f) :
    Exchange.Coherent
      { s.exchange with
        pending := t.erase p.id
        mailroom := s.exchange.mailroom.update p.ticket f } := by
  have found := PendingTable.find?_of_mem whole.coherent.ascending member
  have settled := whole.coherent.settle p.id settles
  rwa [Exchange.settle_of_find? _ p.id f found] at settled

end Whole

namespace Sound

theorem start (strategy : IdStrategy) (rejectsOnClose : Bool) :
    Sound (Scene.start strategy rejectsOnClose) where
  ascending := PendingTable.ascending_empty
  whole := ⟨{}, Exchange.Coherent.fresh strategy rejectsOnClose, List.Perm.nil⟩
  known := by simp [Scene.start]

theorem pickUp (sound : Sound s) (id : RequestId) (errand : Errand) : Sound (s.pickUp id errand) := by
  cases found : s.exchange.pending.find? id with
  | none => rwa [pickUp_of_not_mem (PendingTable.find?_eq_none.mp found)]
  | some p =>
      obtain ⟨t, whole⟩ := sound.whole
      obtain ⟨member, rfl⟩ := PendingTable.mem_of_find? found
      rw [pickUp_of_find? found]
      let taken : Carried := ⟨p, errand⟩
      have moved : (s.exchange.pending.entries ++ s.inHand.map Carried.request).Perm
          ((s.exchange.pending.erase p.id).entries ++ (s.inHand ++ [taken]).map Carried.request) := by
        rw [List.map_append, ← List.append_assoc]
        have split := PendingTable.cons_erase_perm sound.ascending member
        exact (split.symm.append_right _).trans (List.perm_append_singleton p _).symm
      exact {
        ascending := PendingTable.ascending_erase sound.ascending p.id
        whole := ⟨t, whole.coherent, whole.parts.trans moved⟩
        known := sound.known }

theorem detach (sound : Sound s) (reason : String) (order : PendingTable.Order) :
    Sound (s.detach reason order) := by
  obtain ⟨t, whole⟩ := sound.whole
  have marked := whole.coherent.markClosed reason
  by_cases rejects : s.exchange.rejectsOnClose
  · let failure : Failure := .disconnected (s.exchange.closedFor.getD reason)
    let drained : List Carried :=
      (order.arrange s.exchange.pending.entries).map fun p => ⟨p, .failure failure⟩
    have same : (drained.map Carried.request).Perm s.exchange.pending.entries := by
      simpa [drained, Function.comp_def] using order.perm s.exchange.pending.entries
    have moved : (s.exchange.pending.entries ++ s.inHand.map Carried.request).Perm
        ((s.inHand ++ drained).map Carried.request) := by
      rw [List.map_append]
      exact List.perm_append_comm.trans (same.symm.append_left _)
    rw [detach_of_rejects rejects]
    exact {
      ascending := PendingTable.ascending_empty
      whole := ⟨t, marked, whole.parts.trans moved⟩
      known := sound.known }
  · rw [detach_of_keeps rejects]
    exact {
      ascending := sound.ascending
      whole := ⟨t, marked, whole.parts⟩
      known := sound.known }

theorem finish (sound : Sound s) (place : Nat) : Sound (s.finish place) := by
  cases there : s.inHand[place]? with
  | none => rwa [finish_of_none there]
  | some c =>
      obtain ⟨t, whole⟩ := sound.whole
      obtain ⟨inside, rfl⟩ := List.getElem?_eq_some_iff.mp there
      have member := whole.mem_of_inHand (List.getElem_mem inside)
      have coherent := whole.settle member
        (Mailbox.settles_deliver s.inHand[place].errand.outcome)
      rw [finish_of_getElem? there]
      refine ⟨sound.ascending, ⟨t.erase s.inHand[place].request.id, coherent, ?_⟩, ?_⟩
      · have front := PendingTable.cons_erase_perm whole.coherent.ascending member
        have apart := (List.getElem_cons_eraseIdx_perm inside).map Carried.request
        have both := front.trans (whole.parts.trans (apart.symm.append_left _))
        exact (both.trans List.perm_middle).cons_inv
      · intro d delivered
        rcases List.mem_append.mp delivered with before | new
        · exact sound.known d before
        · obtain ⟨named, -⟩ := mem_deliveries.mp new
          rw [← named]
          exact whole.coherent.issued _ member

theorem cancel (sound : Sound s) (id : RequestId) :
    Sound { s with exchange := (s.exchange.cancel id).2 } := by
  rw [Exchange.cancel_eq]
  cases found : s.exchange.pending.find? id with
  | none =>
      have absent := PendingTable.find?_eq_none.mp found
      rwa [Exchange.settle_of_not_mem s.exchange id Mailbox.giveUp absent]
  | some p =>
      obtain ⟨t, whole⟩ := sound.whole
      obtain ⟨member, rfl⟩ := PendingTable.mem_of_find? found
      have open_ := whole.mem_of_pending member
      rw [Exchange.settle_of_find? s.exchange p.id Mailbox.giveUp found]
      refine ⟨PendingTable.ascending_erase sound.ascending p.id,
        ⟨t.erase p.id, whole.settle open_ Mailbox.settles_giveUp, ?_⟩, sound.known⟩
      have front := PendingTable.cons_erase_perm whole.coherent.ascending open_
      have split := PendingTable.cons_erase_perm sound.ascending member
      exact (front.trans (whole.parts.trans (split.symm.append_right _))).cons_inv

theorem touch (sound : Sound s) {f : Mailbox → Mailbox} (ticket : Ticket)
    (keeps : ∀ x, Exchange.Coherent x → Exchange.Coherent (x.touch ticket f)) :
    Sound { s with exchange := s.exchange.touch ticket f } := by
  obtain ⟨t, whole⟩ := sound.whole
  exact {
    ascending := sound.ascending
    whole := ⟨t, keeps _ whole.coherent, whole.parts⟩
    known := sound.known }

theorem look (sound : Sound s) (ticket : Ticket) :
    Sound { s with exchange := (s.exchange.poll ticket).2 } := by
  rw [Exchange.poll_snd]
  exact sound.touch ticket fun _ coherent => coherent.look ticket

theorem discard (sound : Sound s) (ticket : Ticket) :
    Sound { s with exchange := s.exchange.discard ticket } :=
  sound.touch ticket fun _ coherent => coherent.discard ticket

theorem send (sound : Sound s) (room : s.exchange.ids.HasNext) (now : UInt64) (verb : String)
    (arguments : List String) :
    Sound { s with exchange := (s.exchange.dispatch now verb arguments {}).2 } := by
  obtain ⟨t, whole⟩ := sound.whole
  cases gone : s.exchange.closedFor with
  | some reason =>
      rw [Exchange.dispatch_of_closed gone]
      exact {
        ascending := sound.ascending
        whole := ⟨t, whole.coherent.turnAway gone room now, whole.parts⟩
        known := sound.known }
  | none =>
      rw [Exchange.dispatch_snd_of_open gone]
      let p : Pending := ⟨s.exchange.ids.peek now, verb, s.exchange.mailroom.nextTicket⟩
      have fresh : p.id ∉ t.ids := whole.coherent.peek_not_mem room now
      have absent : p.id ∉ s.exchange.pending.ids := whole.not_mem_pending fresh
      refine ⟨PendingTable.ascending_insert absent sound.ascending,
        ⟨t.insert p, whole.coherent.issue gone room now verb, ?_⟩, ?_⟩
      · have front := PendingTable.insert_perm fresh
        have entered := PendingTable.insert_perm absent
        exact (front.trans (whole.parts.cons p)).trans (entered.symm.append_right _)
      · intro d delivered
        have past := IdSource.last_lt_peek room now
        have before := UInt64.le_iff_toNat_le.mp (sound.known d delivered)
        exact UInt64.le_iff_toNat_le.mpr (Nat.le_trans before (Nat.le_of_lt past))

end Sound

section Waits

theorem lookAgain_eq (x : Exchange) (ticket : Ticket) (id : RequestId) (waited : UInt64) :
    Client.lookAgain x ticket id waited =
      (match (x.poll ticket).1 with
        | some (.ok data) => .ok data
        | some (.error (.abandoned _)) | none => .error (.timeout id waited)
        | some (.error failure) => .error failure,
        (x.poll ticket).2) := by
  unfold Client.lookAgain
  cases x.poll ticket with
  | mk found y =>
      cases found with
      | none => rfl
      | some outcome =>
          cases outcome with
          | ok data => rfl
          | error failure => cases failure <;> rfl

/-- What a wait that still watches comes to: it finds no mailbox, or its time is up, or it returns. -/
theorem next_watching (limit : UInt64) (ticket : Ticket) (x : Exchange) :
    (x.mailroom.owner? ticket = none ∧
        Waiting.next limit ticket x .watching = (.watching, (x.poll ticket).2)) ∨
      (∃ id waited, (x.waitFor ticket limit).1 = some (.error (.timeout id waited)) ∧
        Waiting.next limit ticket x .watching = (.expired id waited, (x.poll ticket).2)) ∨
      ∃ outcome, (x.waitFor ticket limit).1 = some outcome ∧
        (∀ id waited, outcome ≠ .error (.timeout id waited)) ∧
        Waiting.next limit ticket x .watching = (.returned outcome, x.discard ticket) := by
  have left := x.waitFor_snd ticket limit
  cases looked : x.waitFor ticket limit with
  | mk found y =>
      rw [looked] at left
      simp only at left
      subst left
      cases found with
      | none =>
          refine Or.inl ⟨?_, by simp only [Waiting.next, looked]⟩
          cases owned : x.mailroom.owner? ticket with
          | none => rfl
          | some id =>
              have found := Exchange.waitFor_fst (Mailroom.located_of_owner? owned) limit
              simp [looked] at found
      | some outcome =>
          by_cases timedOut : ∃ id waited, outcome = .error (.timeout id waited)
          · obtain ⟨id, waited, rfl⟩ := timedOut
            exact Or.inr (Or.inl ⟨id, waited, rfl, by simp only [Waiting.next, looked]⟩)
          · refine Or.inr (Or.inr ⟨outcome, rfl, ?_, ?_⟩)
            · intro id waited same
              exact timedOut ⟨id, waited, same⟩
            · rw [← x.poll_discard ticket]
              simp only [Waiting.next, looked]
              split <;> simp_all

/-- What a wait does to the exchange: nothing, or it looks, withdraws or lets go. -/
theorem next_exchange (limit : UInt64) (ticket : Ticket) (x : Exchange) (w : Waiting) :
    (w.next limit ticket x).2 = x ∨ (w.next limit ticket x).2 = (x.poll ticket).2 ∨
      (w.next limit ticket x).2 = x.discard ticket ∨
      ∃ id, (w.next limit ticket x).2 = (x.cancel id).2 := by
  cases w with
  | returned outcome => exact Or.inl rfl
  | expired id waited => exact Or.inr (Or.inr (Or.inr ⟨id, rfl⟩))
  | withdrawn id waited =>
      refine Or.inr (Or.inr (Or.inl ?_))
      rw [← x.poll_discard, Waiting.next, lookAgain_eq]
  | watching =>
      rcases next_watching limit ticket x with ⟨-, same⟩ | ⟨id, waited, -, same⟩ | ⟨outcome, -, -, same⟩
      · exact Or.inr (Or.inl (congrArg Prod.snd same))
      · exact Or.inr (Or.inl (congrArg Prod.snd same))
      · exact Or.inr (Or.inr (Or.inl (congrArg Prod.snd same)))

end Waits

section Plays

/-- A step that someone may take while identifiers last, as long as no one but the wait reads or drops
the handle of the ticket. -/
def Allowed (s : Scene) (ticket : Ticket) : Act → Prop
  | .send .. => s.exchange.ids.HasNext
  | .look other | .discard other => other ≠ ticket
  | _ => True

def Legal (s : Scene) (limit : UInt64) (ticket : Ticket) : List Act → Prop
  | [] => True
  | a :: rest => s.Allowed ticket a ∧ (s.act limit ticket a).Legal limit ticket rest

theorem legal_append {first second : List Act} :
    s.Legal limit ticket (first ++ second) ↔
      s.Legal limit ticket first ∧ (s.play limit ticket first).Legal limit ticket second := by
  induction first generalizing s with
  | nil => simp [Legal, play]
  | cons a rest ih =>
      have later : s.play limit ticket (a :: rest) = (s.act limit ticket a).play limit ticket rest := rfl
      rw [List.cons_append, Legal, Legal, ih, later, and_assoc]

theorem Sound.act (sound : Sound s) {a : Act} (allowed : s.Allowed ticket a) :
    Sound (s.act limit ticket a) := by
  cases a with
  | send now verb arguments => exact sound.send allowed now verb arguments
  | arrive text =>
      rw [act_arrive]
      split
      · exact sound.pickUp _ _
      · exact sound
  | refuse id failure => exact sound.pickUp id _
  | close reason order => exact sound.detach reason order
  | finish place => exact sound.finish place
  | cancel id => exact sound.cancel id
  | look other => exact sound.look other
  | discard other => exact sound.discard other
  | wait =>
      have moved : ∀ x, Sound { s with exchange := x } →
          (s.waiting.next limit ticket s.exchange).2 = x → Sound (s.act limit ticket .wait) := by
        rintro x kept rfl
        obtain ⟨t, whole⟩ := kept.whole
        exact ⟨kept.ascending, ⟨t, whole.coherent, whole.parts⟩, kept.known⟩
      rcases next_exchange limit ticket s.exchange s.waiting with same | same | same | ⟨id, same⟩
      · exact moved _ sound same
      · exact moved _ (sound.look ticket) same
      · exact moved _ (sound.discard ticket) same
      · exact moved _ (sound.cancel id) same

theorem Sound.play (sound : Sound s) {acts : List Act} (legal : s.Legal limit ticket acts) :
    Sound (s.play limit ticket acts) := by
  induction acts generalizing s with
  | nil => exact sound
  | cons a rest ih => exact ih (sound.act legal.1) legal.2

end Plays

section Others

/-! What a step leaves as it is. -/

theorem act_waiting (s : Scene) (limit : UInt64) (ticket : Ticket) {a : Act} (other : a ≠ .wait) :
    (s.act limit ticket a).waiting = s.waiting := by
  cases a with
  | send | cancel | look | discard => rfl
  | arrive text =>
      rw [act_arrive]
      split
      · exact pickUp_waiting _ _ _
      · rfl
  | refuse id failure => exact pickUp_waiting _ _ _
  | close reason order =>
      by_cases rejects : s.exchange.rejectsOnClose
      · rw [act, detach_of_rejects rejects]
      · rw [act, detach_of_keeps rejects]
  | finish place =>
      change (s.finish place).waiting = s.waiting
      cases there : s.inHand[place]? with
      | none => rw [finish_of_none there]
      | some c => rw [finish_of_getElem? there]
  | wait => contradiction

theorem owner?_settle (x : Exchange) (other : RequestId) (f : Mailbox → Mailbox) (ticket : Ticket) :
    (x.settle other f).mailroom.owner? ticket = x.mailroom.owner? ticket := by
  cases found : x.pending.find? other with
  | none => rw [Exchange.settle_of_not_mem x other f (PendingTable.find?_eq_none.mp found)]
  | some p => rw [Exchange.settle_of_find? x other f found, Mailroom.owner?_update]

/-- A mailbox never changes hands. -/
theorem owner?_act {a : Act} (owned : s.exchange.mailroom.owner? ticket = some id) :
    (s.act limit ticket a).exchange.mailroom.owner? ticket = some id := by
  have updated : ∀ other f, (s.exchange.mailroom.update other f).owner? ticket = some id := by
    intro other f
    rwa [Mailroom.owner?_update]
  have cancelled : ∀ other, (s.exchange.cancel other).2.mailroom.owner? ticket = some id := by
    intro other
    rwa [Exchange.cancel_eq, owner?_settle]
  have taken : ∀ other errand,
      (s.pickUp other errand).exchange.mailroom.owner? ticket = some id := by
    intro other errand
    rcases s.pickUp_cases other errand with same | ⟨p, -, same⟩ <;> rwa [same]
  cases a with
  | send now verb arguments =>
      have located := Mailroom.located_of_owner? owned
      cases gone : s.exchange.closedFor with
      | some reason =>
          rw [act, Exchange.dispatch_of_closed gone]
          exact Mailroom.owner?_eq (Mailroom.getElem?_open_of_some _ located _ _)
      | none =>
          rw [act, Exchange.dispatch_snd_of_open gone]
          exact Mailroom.owner?_eq (Mailroom.getElem?_open_of_some _ located _ _)
  | arrive text =>
      rw [act_arrive]
      split
      · exact taken _ _
      · exact owned
  | refuse other failure => exact taken other _
  | close reason order =>
      by_cases rejects : s.exchange.rejectsOnClose
      · rwa [act, detach_of_rejects rejects]
      · rwa [act, detach_of_keeps rejects]
  | finish place =>
      change (s.finish place).exchange.mailroom.owner? ticket = some id
      cases there : s.inHand[place]? with
      | none => rwa [finish_of_none there]
      | some c =>
          rw [finish_of_getElem? there]
          exact updated _ _
  | cancel other => exact cancelled other
  | look other =>
      rw [act, Exchange.poll_snd]
      exact updated _ _
  | discard other => exact updated _ _
  | wait =>
      rw [act_wait]
      rcases next_exchange limit ticket s.exchange s.waiting with same | same | same | ⟨other, same⟩
      · rwa [same]
      · rw [same, Exchange.poll_snd]
        exact updated _ _
      · rw [same]
        exact updated _ _
      · rw [same]
        exact cancelled other

theorem owner?_play (owned : s.exchange.mailroom.owner? ticket = some id) (acts : List Act) :
    (s.play limit ticket acts).exchange.mailroom.owner? ticket = some id := by
  induction acts generalizing s with
  | nil => exact owned
  | cons a rest ih => exact ih (owner?_act owned)

theorem waiting_of_returned {outcome : Outcome} (stage : s.waiting = .returned outcome)
    (acts : List Act) : (s.play limit ticket acts).waiting = .returned outcome := by
  induction acts generalizing s with
  | nil => exact stage
  | cons a rest ih =>
      have stepped : (s.act limit ticket a).waiting = .returned outcome := by
        by_cases own : a = .wait
        · rw [own, act_wait, stage]
          rfl
        · rw [s.act_waiting limit ticket own, stage]
      exact ih stepped

end Others

end Switchboard.Scene
