import Switchboard.Proofs.Exchange.Identifiers

/-! # Coherence of table and mailboxes

The table and the mailroom are two records of the same requests. They are coherent when a request is
in the table exactly while its mailbox waits, or would wait if its holder had not let go of it, and
when no other mailbox has the identifier of a pending request. Every run keeps them coherent.
-/

namespace Switchboard.Exchange

/-- The table and the mailroom agree on what is open. -/
structure Coherent (x : Exchange) : Prop extends Ordered x where
  /-- Before the end of the connection only identifiers that were handed out have mailboxes. -/
  owned : x.closedFor = none → ∀ (ticket : Ticket) (id : RequestId) (box : Mailbox),
    x.mailroom.boxes[ticket]? = some (id, box) → id.value ≤ x.ids.last
  /-- A pending request has a mailbox with nothing in it. -/
  housed : ∀ p ∈ x.pending.entries,
    ∃ box, Mailbox.Vacant box ∧ x.mailroom.boxes[p.ticket]? = some (p.id, box)
  /-- No other mailbox has its identifier. -/
  sole : ∀ p ∈ x.pending.entries, ∀ (ticket : Ticket) (box : Mailbox),
    x.mailroom.boxes[ticket]? = some (p.id, box) → ticket = p.ticket
  /-- A mailbox waits only for a pending request. -/
  awaited : ∀ (ticket : Ticket) (id : RequestId), x.mailroom.boxes[ticket]? = some (id, .waiting) →
    ∃ p ∈ x.pending.entries, p.id = id ∧ p.ticket = ticket

namespace Coherent

variable {x : Exchange}

theorem fresh (strategy : IdStrategy) (rejectsOnClose : Bool) :
    Coherent (Exchange.fresh strategy rejectsOnClose) where
  toOrdered := Ordered.fresh strategy rejectsOnClose
  owned := by simp [Exchange.fresh]
  housed := by simp [Exchange.fresh]
  sole := by simp [Exchange.fresh]
  awaited := by simp [Exchange.fresh]

theorem eq_of_ticket_eq (coherent : Coherent x) {p q : Pending} (first : p ∈ x.pending.entries)
    (second : q ∈ x.pending.entries) (same : p.ticket = q.ticket) : p = q := by
  obtain ⟨box, -, located⟩ := coherent.housed p first
  obtain ⟨other, -, locatedOther⟩ := coherent.housed q second
  rw [same, locatedOther] at located
  have owner : q.id = p.id := congrArg Prod.fst (Option.some.inj located)
  exact PendingTable.eq_of_id_eq coherent.ascending first second owner.symm

theorem settle (coherent : Coherent x) (id : RequestId) {f : Mailbox → Mailbox}
    (settles : Mailbox.Settles f) : Coherent (x.settle id f) := by
  cases found : x.pending.find? id with
  | none => rwa [settle_of_not_mem x id f (PendingTable.find?_eq_none.mp found)]
  | some p =>
      obtain ⟨member, rfl⟩ := PendingTable.mem_of_find? found
      have ordered := coherent.toOrdered.settle p.id f
      rw [settle_of_find? x p.id f found] at ordered ⊢
      refine ⟨ordered, ?_, ?_, ?_, ?_⟩
      · intro isOpen ticket owner box located
        obtain ⟨old, before, -⟩ := Mailroom.of_getElem?_update _ located
        exact coherent.owned isOpen ticket owner old before
      · intro q inside
        obtain ⟨old, other⟩ := PendingTable.mem_erase.mp inside
        obtain ⟨box, vacant, located⟩ := coherent.housed q old
        have apart : q.ticket ≠ p.ticket := fun same =>
          other (congrArg Pending.id (coherent.eq_of_ticket_eq old member same))
        exact ⟨box, vacant, (Mailroom.getElem?_update_of_ne _ apart f).trans located⟩
      · intro q inside ticket box located
        obtain ⟨old, before, -⟩ := Mailroom.of_getElem?_update _ located
        exact coherent.sole q (PendingTable.mem_erase.mp inside).1 ticket old before
      · intro ticket owner located
        -- The settled mailbox no longer waits, so this is the mailbox of another request.
        have apart : ticket ≠ p.ticket := by
          rintro rfl
          obtain ⟨old, before, -⟩ := Mailroom.of_getElem?_update _ located
          rw [Mailroom.getElem?_update_self, before, Option.map_some] at located
          have waits : f old = .waiting := congrArg Prod.snd (Option.some.inj located)
          by_cases open_ : old = .waiting
          · rw [open_] at waits
            exact settles.1 waits
          · rw [settles.2 old open_] at waits
            exact open_ waits
        rw [Mailroom.getElem?_update_of_ne _ apart] at located
        obtain ⟨q, old, rfl, rfl⟩ := coherent.awaited ticket owner located
        refine ⟨q, PendingTable.mem_erase.mpr ⟨old, ?_⟩, rfl, rfl⟩
        intro same
        exact apart (congrArg Pending.ticket
          (PendingTable.eq_of_id_eq coherent.ascending old member same))

theorem markClosed (coherent : Coherent x) (reason : String) : Coherent (x.markClosed reason) where
  ascending := coherent.ascending
  issued := coherent.issued
  owned := by
    intro isOpen
    contradiction
  housed := coherent.housed
  sole := coherent.sole
  awaited := coherent.awaited

theorem undergo (coherent : Coherent x) (h : Happening) : Coherent (x.undergo h) :=
  undergo_induction (fun kept => kept.ascending) (fun _ id _ settles kept => kept.settle id settles)
    (fun reason kept => kept.markClosed reason) h coherent

theorem undergoAll (coherent : Coherent x) (hs : List Happening) : Coherent (x.undergoAll hs) :=
  undergoAll_induction (fun _ h _ kept => kept.undergo h) coherent

/-- Looking into a mailbox, or letting go of it, neither opens nor closes a request. -/
theorem touch (coherent : Coherent x) (ticket : Ticket) {f : Mailbox → Mailbox}
    (waits : ∀ box, f box = .waiting → box = .waiting)
    (vacates : ∀ box, Mailbox.Vacant box → Mailbox.Vacant (f box)) :
    Coherent (x.touch ticket f) where
  ascending := coherent.ascending
  issued := coherent.issued
  owned := by
    intro isOpen other owner box located
    obtain ⟨old, before, -⟩ := Mailroom.of_getElem?_update _ located
    exact coherent.owned isOpen other owner old before
  housed := by
    intro p member
    obtain ⟨box, vacant, located⟩ := coherent.housed p member
    by_cases same : p.ticket = ticket
    · refine ⟨f box, vacates box vacant, ?_⟩
      subst same
      simp only [Exchange.touch, Mailroom.getElem?_update_self, located, Option.map_some]
    · exact ⟨box, vacant, (Mailroom.getElem?_update_of_ne _ same f).trans located⟩
  sole := by
    intro p member other box located
    obtain ⟨old, before, -⟩ := Mailroom.of_getElem?_update _ located
    exact coherent.sole p member other old before
  awaited := by
    intro other owner located
    obtain ⟨old, before, same | ⟨-, same⟩⟩ := Mailroom.of_getElem?_update _ located
    · rw [← same] at before
      exact coherent.awaited other owner before
    · rw [waits old same.symm] at before
      exact coherent.awaited other owner before

theorem look (coherent : Coherent x) (ticket : Ticket) :
    Coherent (x.touch ticket Mailbox.emptied) := by
  refine coherent.touch ticket (fun _ => Mailbox.emptied_eq_waiting.mp) ?_
  rintro box (rfl | rfl)
  · exact Or.inl rfl
  · exact Or.inr rfl

theorem discard (coherent : Coherent x) (ticket : Ticket) : Coherent (x.discard ticket) := by
  rw [discard_eq]
  refine coherent.touch ticket ?_ (fun _ _ => Or.inr rfl)
  intro box waits
  contradiction

theorem issue (coherent : Coherent x) (isOpen : x.closedFor = none) (room : x.ids.HasNext)
    (now : UInt64) (verb : String) : Coherent (x.issue now verb).2 := by
  have absent := coherent.peek_not_mem room now
  have past := IdSource.last_lt_peek room now
  refine ⟨coherent.toOrdered.issue room now verb, ?_, ?_, ?_, ?_⟩
  · intro _ ticket owner box located
    rcases Mailroom.of_getElem?_open _ located with before | ⟨-, new⟩
    · have old := UInt64.le_iff_toNat_le.mp (coherent.owned isOpen ticket owner box before)
      exact UInt64.le_iff_toNat_le.mpr (Nat.le_trans old (Nat.le_of_lt past))
    · rw [(Prod.mk.inj new).1]
      exact UInt64.le_refl _
  · intro p member
    rcases (PendingTable.mem_insert absent).mp member with rfl | old
    · exact ⟨.waiting, Or.inl rfl, Mailroom.getElem?_open_nextTicket _ _ _⟩
    · obtain ⟨box, vacant, located⟩ := coherent.housed p old
      exact ⟨box, vacant, Mailroom.getElem?_open_of_some _ located _ _⟩
  · intro p member ticket box located
    rcases (PendingTable.mem_insert absent).mp member with rfl | old
    · rcases Mailroom.of_getElem?_open _ located with before | ⟨last, -⟩
      · have below := UInt64.le_iff_toNat_le.mp (coherent.owned isOpen ticket _ box before)
        exact absurd below (Nat.not_le_of_lt past)
      · exact last
    · rcases Mailroom.of_getElem?_open _ located with before | ⟨-, new⟩
      · exact coherent.sole p old ticket box before
      · exact absurd (PendingTable.mem_ids.mpr ⟨p, old, (Prod.mk.inj new).1⟩) absent
  · intro ticket owner located
    rcases Mailroom.of_getElem?_open _ located with before | ⟨last, new⟩
    · obtain ⟨p, old, named, placed⟩ := coherent.awaited ticket owner before
      exact ⟨p, (PendingTable.mem_insert absent).mpr (Or.inr old), named, placed⟩
    · obtain ⟨rfl, -⟩ := Prod.mk.inj new
      exact ⟨_, (PendingTable.mem_insert absent).mpr (Or.inl rfl), rfl, last.symm⟩

theorem turnAway (coherent : Coherent x) {reason : String} (closed : x.closedFor = some reason)
    (room : x.ids.HasNext) (now : UInt64) : Coherent (x.turnAway now reason) where
  ascending := coherent.ascending
  issued := coherent.issued
  owned := by
    intro isOpen
    rw [Exchange.turnAway, closed] at isOpen
    contradiction
  housed := by
    intro p member
    obtain ⟨box, vacant, located⟩ := coherent.housed p member
    exact ⟨box, vacant, Mailroom.getElem?_open_of_some _ located _ _⟩
  sole := by
    intro p member ticket box located
    rcases Mailroom.of_getElem?_open _ located with before | ⟨-, new⟩
    · exact coherent.sole p member ticket box before
    · have absent := coherent.peek_not_mem room now
      exact absurd (PendingTable.mem_ids.mpr ⟨p, member, (Prod.mk.inj new).1⟩) absent
  awaited := by
    intro ticket owner located
    rcases Mailroom.of_getElem?_open _ located with before | ⟨-, new⟩
    · exact coherent.awaited ticket owner before
    · cases (Prod.mk.inj new).2

theorem enter (coherent : Coherent x) {s : Step} (numbered : x.Numbered s) :
    Coherent (x.enter s) := by
  rcases x.enter_cases s with
    ⟨now, verb, arguments, handover, rfl, ⟨isOpen, same⟩ | ⟨reason, closed, same⟩⟩ | ⟨e, -, same⟩ |
    ⟨ticket, -, same | same⟩ <;> rw [same]
  · exact coherent.issue isOpen numbered now verb
  · exact coherent.turnAway closed numbered now
  · exact coherent
  · exact coherent.look ticket
  · exact coherent.discard ticket

theorem step (coherent : Coherent x) {s : Step} (numbered : x.Numbered s) :
    Coherent (x.step s).2 := by
  rw [step_snd]
  exact (coherent.enter numbered).undergoAll _

theorem after (coherent : Coherent x) {steps : List Step} (along : x.Along Numbered steps) :
    Coherent (x.after steps) :=
  after_induction (fun _ _ kept numbered => kept.enter numbered) (fun _ h _ kept => kept.undergo h)
    coherent along

theorem moments (coherent : Coherent x) {steps : List Step} (along : x.Along Numbered steps) :
    ∀ m ∈ x.moments steps, Coherent m.1 :=
  moments_induction (fun _ _ kept numbered => kept.enter numbered) (fun _ h kept => kept.undergo h)
    coherent along

theorem stages (coherent : Coherent x) {steps : List Step} (along : x.Along Numbered steps) :
    ∀ m ∈ x.stages steps, Coherent m.exchange :=
  stages_induction (fun _ _ kept numbered => kept.enter numbered) (fun _ h kept => kept.undergo h)
    coherent along

end Coherent

/-- Some run comes to this state, between two steps or while a frame is handed over. -/
def Reachable (x : Exchange) : Prop :=
  ∃ (strategy : IdStrategy) (rejectsOnClose : Bool) (steps : List Step),
    (fresh strategy rejectsOnClose).Along Numbered steps ∧
      ∃ m ∈ (fresh strategy rejectsOnClose).stages steps, m.exchange = x

theorem reachable_after (strategy : IdStrategy) (rejectsOnClose : Bool) {steps : List Step}
    (numbered : (fresh strategy rejectsOnClose).Along Numbered steps) :
    Reachable ((fresh strategy rejectsOnClose).after steps) :=
  ⟨strategy, rejectsOnClose, steps, numbered, _, after_mem_stages _ steps, rfl⟩

theorem Reachable.coherent {x : Exchange} (reachable : Reachable x) : Coherent x := by
  obtain ⟨strategy, rejectsOnClose, steps, numbered, m, member, rfl⟩ := reachable
  exact (Coherent.fresh strategy rejectsOnClose).stages numbered m member

end Switchboard.Exchange
