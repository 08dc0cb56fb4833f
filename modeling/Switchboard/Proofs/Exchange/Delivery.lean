import Switchboard.Proofs.Exchange.Coherence

/-! # What a happening does to one mailbox

A mailbox that waits is settled by the first happening that ends its request, with the outcome that
this happening brings, and by no other. A mailbox that does not wait is left as it is, so nothing
that happens later can take the outcome away or replace it.
-/

namespace Switchboard

/-- Whether a happening ends the request of an identifier. The end of the connection does if it
rejects what is pending. -/
def Happening.ends (id : RequestId) (rejectsOnClose : Bool) : Happening → Bool
  | .event (.frame text) =>
    match ReplyFrame.decode text with
    | .ok (token, _) => token = id.token
    | .error _ => false
  | .event (.cancel other) => other = id
  | .event (.close _) => rejectsOnClose
  | .refusal other _ => other = id

/-- The outcome that a happening brings to the request that it ends, where the connection ended first
for the reason given. -/
def Happening.outcome? (id : RequestId) (firstReason : Option String) : Happening → Option Outcome
  | .event (.frame text) =>
    match ReplyFrame.decode text with
    | .ok (_, reply) => some reply.outcome
    | .error _ => none
  | .event (.cancel _) => some (.error (.abandoned id))
  | .event (.close _) => firstReason.map fun reason => .error (.disconnected reason)
  | .refusal _ failure => some (.error failure)

def Happening.reason? : Happening → Option String
  | .event (.close reason) => some reason
  | _ => none

/-- The reason for which the connection ends first. -/
def firstReason (hs : List Happening) : Option String := hs.findSome? Happening.reason?

/-- The holder of a mailbox finds an outcome in it. A request that was given up leaves nothing in its
mailbox, and that reads as abandoned. -/
def Mailbox.Shows (id : RequestId) (outcome : Outcome) (box : Mailbox) : Prop :=
  box = .holding outcome ∨ box = .spent ∧ outcome = .error (.abandoned id)

theorem Mailbox.Shows.ne_waiting {id : RequestId} {outcome : Outcome} {box : Mailbox}
    (shows_ : box.Shows id outcome) : box ≠ .waiting := by
  rcases shows_ with rfl | ⟨rfl, -⟩ <;> simp

/-- What a happening leaves of a mailbox that waits. -/
def Happening.leaves (id : RequestId) (rejectsOnClose : Bool) (closedFor : Option String) :
    Happening → Mailbox
  | .event (.frame text) =>
    match ReplyFrame.answer? text with
    | some (other, reply) => if other = id then .holding reply.outcome else .waiting
    | none => .waiting
  | .event (.cancel other) => if other = id then .spent else .waiting
  | .event (.close reason) =>
    if rejectsOnClose then .holding (.error (.disconnected (closedFor.getD reason))) else .waiting
  | .refusal other failure => if other = id then .holding (.error failure) else .waiting

theorem Happening.leaves_cases (id : RequestId) (rejectsOnClose : Bool) (closedFor : Option String)
    (h : Happening) :
    h.leaves id rejectsOnClose closedFor = .waiting ∨
      (∃ outcome, h.leaves id rejectsOnClose closedFor = .holding outcome) ∨
      h = .event (.cancel id) ∧ h.leaves id rejectsOnClose closedFor = .spent := by
  match h with
  | .event (.frame text) =>
      rw [leaves]
      cases ReplyFrame.answer? text with
      | none => exact Or.inl rfl
      | some answer =>
          by_cases same : answer.1 = id
          · exact Or.inr (Or.inl ⟨_, if_pos same⟩)
          · exact Or.inl (if_neg same)
  | .event (.cancel other) =>
      by_cases same : other = id
      · exact Or.inr (Or.inr ⟨by rw [same], if_pos same⟩)
      · exact Or.inl (if_neg same)
  | .event (.close reason) =>
      by_cases rejects : rejectsOnClose
      · exact Or.inr (Or.inl ⟨_, if_pos rejects⟩)
      · exact Or.inl (if_neg rejects)
  | .refusal other failure =>
      by_cases same : other = id
      · exact Or.inr (Or.inl ⟨_, if_pos same⟩)
      · exact Or.inl (if_neg same)

namespace Exchange

variable {x : Exchange} {ticket : Ticket} {id : RequestId} {box : Mailbox}

section Settling

variable {f : Mailbox → Mailbox}

theorem Coherent.settle_self (coherent : Coherent x)
    (located : x.mailroom.boxes[ticket]? = some (id, .waiting)) :
    (x.settle id f).mailroom.boxes[ticket]? = some (id, f .waiting) := by
  obtain ⟨p, member, rfl, rfl⟩ := coherent.awaited ticket id located
  rw [settle_of_find? x p.id f (PendingTable.find?_of_mem coherent.ascending member),
    Mailroom.getElem?_update_self, located, Option.map_some]

theorem Coherent.settle_other (coherent : Coherent x) {other : RequestId} (apart : other ≠ id)
    (located : x.mailroom.boxes[ticket]? = some (id, box)) :
    (x.settle other f).mailroom.boxes[ticket]? = some (id, box) := by
  cases found : x.pending.find? other with
  | none => rwa [settle_of_not_mem x other f (PendingTable.find?_eq_none.mp found)]
  | some p =>
      obtain ⟨member, rfl⟩ := PendingTable.mem_of_find? found
      obtain ⟨_, -, placed⟩ := coherent.housed p member
      have elsewhere : ticket ≠ p.ticket := by
        rintro rfl
        rw [placed] at located
        exact apart (Prod.mk.inj (Option.some.inj located)).1
      rw [settle_of_find? x p.id f found, Mailroom.getElem?_update_of_ne _ elsewhere, located]

theorem Coherent.settle_waiting (coherent : Coherent x)
    (located : x.mailroom.boxes[ticket]? = some (id, .waiting)) (other : RequestId) :
    (x.settle other f).mailroom.boxes[ticket]? =
      some (id, if other = id then f .waiting else .waiting) := by
  by_cases same : other = id
  · subst same
    rw [if_pos rfl]
    exact coherent.settle_self located
  · rw [if_neg same]
    exact coherent.settle_other same located

theorem settle_settled (settles : Mailbox.Settles f) (settled : box ≠ .waiting)
    (located : x.mailroom.boxes[ticket]? = some (id, box)) (other : RequestId) :
    (x.settle other f).mailroom.boxes[ticket]? = some (id, box) := by
  cases found : x.pending.find? other with
  | none => rwa [settle_of_not_mem x other f (PendingTable.find?_eq_none.mp found)]
  | some p =>
      rw [settle_of_find? x other f found, Mailroom.getElem?_update]
      split
      case isTrue => rw [located, Option.map_some, settles.2 box settled]
      case isFalse => exact located

theorem settleAll_settled (settles : Mailbox.Settles f) (settled : box ≠ .waiting)
    (located : x.mailroom.boxes[ticket]? = some (id, box)) (ids : List RequestId) :
    (x.settleAll ids f).mailroom.boxes[ticket]? = some (id, box) :=
  x.settleAll_induction (P := fun y => y.mailroom.boxes[ticket]? = some (id, box)) f ids
    (fun _ other kept => settle_settled settles settled kept other) located

/-- A request among those settled is settled once: by then its mailbox no longer waits. -/
theorem Coherent.settleAll_self (coherent : Coherent x) (settles : Mailbox.Settles f)
    (located : x.mailroom.boxes[ticket]? = some (id, .waiting)) {ids : List RequestId}
    (member : id ∈ ids) : (x.settleAll ids f).mailroom.boxes[ticket]? = some (id, f .waiting) := by
  induction ids generalizing x with
  | nil => contradiction
  | cons other rest ih =>
      rw [settleAll_cons]
      by_cases same : other = id
      · subst same
        exact settleAll_settled settles settles.1 (coherent.settle_self located) rest
      · have later : id ∈ rest := (List.mem_cons.mp member).resolve_left (Ne.symm same)
        exact ih (coherent.settle other settles) (coherent.settle_other same located) later

end Settling

theorem Ordered.owner?_undergo (ordered : Ordered x) (h : Happening) (ticket : Ticket) :
    (x.undergo h).mailroom.owner? ticket = x.mailroom.owner? ticket := by
  refine (undergo_induction
    (P := fun y => Ordered y ∧ y.mailroom.owner? ticket = x.mailroom.owner? ticket)
    (fun kept => kept.1.ascending) ?_ ?_ h ⟨ordered, rfl⟩).2
  · intro y other f _ kept
    refine ⟨kept.1.settle other f, ?_⟩
    cases found : y.pending.find? other with
    | none => rw [settle_of_not_mem y other f (PendingTable.find?_eq_none.mp found), kept.2]
    | some p => rw [settle_of_find? y other f found, Mailroom.owner?_update, kept.2]
  · intro reason kept
    exact ⟨⟨kept.1.ascending, kept.1.issued⟩, kept.2⟩

theorem Coherent.undergo_waiting (coherent : Coherent x)
    (located : x.mailroom.boxes[ticket]? = some (id, .waiting)) (h : Happening) :
    (x.undergo h).mailroom.boxes[ticket]? =
      some (id, h.leaves id x.rejectsOnClose x.closedFor) := by
  match h with
  | .refusal other failure =>
      rw [undergo_refusal]
      exact coherent.settle_waiting located other
  | .event (.cancel other) =>
      rw [undergo_cancel]
      exact coherent.settle_waiting located other
  | .event (.frame text) =>
      rw [Happening.leaves]
      cases answers : ReplyFrame.answer? text with
      | none => rwa [undergo_frame_of_none answers]
      | some answer =>
          rw [undergo_frame answers]
          exact coherent.settle_waiting located answer.1
  | .event (.close reason) =>
      rw [undergo_close, x.close_snd coherent.ascending, Happening.leaves]
      split
      case isTrue =>
        obtain ⟨p, member, rfl, -⟩ := coherent.awaited ticket id located
        exact (coherent.markClosed reason).settleAll_self (Mailbox.settles_deliver _) located
          (PendingTable.mem_ids.mpr ⟨p, member, rfl⟩)
      case isFalse => exact located

theorem Coherent.undergo_settled (coherent : Coherent x) (settled : box ≠ .waiting)
    (located : x.mailroom.boxes[ticket]? = some (id, box)) (h : Happening) :
    (x.undergo h).mailroom.boxes[ticket]? = some (id, box) :=
  (undergo_induction (P := fun y => Ordered y ∧ y.mailroom.boxes[ticket]? = some (id, box))
    (fun kept => kept.1.ascending)
    (fun _ other f settles kept =>
      ⟨kept.1.settle other f, settle_settled settles settled kept.2 other⟩)
    (fun _ kept => ⟨⟨kept.1.ascending, kept.1.issued⟩, kept.2⟩)
    h ⟨coherent.toOrdered, located⟩).2

section Entering

variable {s : Step}

theorem enter_located (elsewhere : s.ticket? ≠ some ticket)
    (located : x.mailroom.boxes[ticket]? = some (id, box)) :
    (x.enter s).mailroom.boxes[ticket]? = some (id, box) := by
  rcases x.enter_cases s with
    ⟨now, verb, arguments, handover, rfl, ⟨-, same⟩ | ⟨reason, -, same⟩⟩ | ⟨e, -, same⟩ |
    ⟨other, looks, same | same⟩ <;> rw [same]
  · exact Mailroom.getElem?_open_of_some _ located _ _
  · exact Mailroom.getElem?_open_of_some _ located _ _
  · exact located
  all_goals
    have apart : ticket ≠ other := by
      rintro rfl
      exact elsewhere looks
    exact (Mailroom.getElem?_update_of_ne _ apart _).trans located

/-- A mailbox that a step opens waits, or holds the reason why the request was turned away. -/
theorem of_enter_located (elsewhere : s.ticket? ≠ some ticket)
    (located : (x.enter s).mailroom.boxes[ticket]? = some (id, box)) :
    x.mailroom.boxes[ticket]? = some (id, box) ∨ box = .waiting ∨
      ∃ reason, box = .holding (.error (.disconnected reason)) := by
  rcases x.enter_cases s with
    ⟨now, verb, arguments, handover, rfl, ⟨-, same⟩ | ⟨reason, -, same⟩⟩ | ⟨e, -, same⟩ |
    ⟨other, looks, same | same⟩ <;> rw [same] at located
  · rcases Mailroom.of_getElem?_open _ located with before | ⟨-, new⟩
    · exact Or.inl before
    · exact Or.inr (Or.inl (Prod.mk.inj new).2)
  · rcases Mailroom.of_getElem?_open _ located with before | ⟨-, new⟩
    · exact Or.inl before
    · exact Or.inr (Or.inr ⟨reason, (Prod.mk.inj new).2⟩)
  · exact Or.inl located
  all_goals
    have apart : ticket ≠ other := by
      rintro rfl
      exact elsewhere looks
    exact Or.inl ((Mailroom.getElem?_update_of_ne _ apart _).symm.trans located)

/-- An outcome stays in its mailbox until someone looks. -/
theorem Coherent.after_settled (coherent : Coherent x) {steps : List Step}
    (numbered : x.Along Numbered steps) (unread : ∀ s ∈ steps, s.ticket? ≠ some ticket)
    (settled : box ≠ .waiting) (located : x.mailroom.boxes[ticket]? = some (id, box)) :
    (x.after steps).mailroom.boxes[ticket]? = some (id, box) := by
  refine (after_induction
    (P := fun y => Coherent y ∧ y.mailroom.boxes[ticket]? = some (id, box))
    ?_ ?_ ⟨coherent, located⟩ (numbered.and (along_of_forall unread))).2
  · rintro y s ⟨kept, there⟩ ⟨counted, elsewhere⟩
    exact ⟨kept.enter counted, enter_located elsewhere there⟩
  · rintro y h - ⟨kept, there⟩
    exact ⟨kept.undergo h, kept.undergo_settled settled there h⟩

end Entering

end Exchange

end Switchboard
