import Switchboard.Proofs.Interleaving.Soundness

/-! # Requests that have left the table

A request that has left the table does not come back. So whatever is delivered to it later was in
someone's hands by then.
-/

namespace Switchboard.Scene

variable {s : Scene} {limit : UInt64} {ticket : Ticket} {id : RequestId}

/-- A delivery has the request in hand and is to bring it a reply. -/
def Carries (s : Scene) (id : RequestId) (r : Reply) : Prop :=
  ∃ c ∈ s.inHand, c.request.id = id ∧ c.errand = .reply r

/-- The request is not in the table and never will be again. -/
def Departed (s : Scene) (id : RequestId) : Prop :=
  id ∉ s.exchange.pending.ids ∧ (s.exchange.closedFor = none → id.value ≤ s.exchange.ids.last)

/-- What has become of a request by now was under way before. -/
structure Remains (s s' : Scene) (id : RequestId) : Prop where
  carries : ∀ r, s'.Carries id r → s.Carries id r
  delivered : ∀ r, (id, r) ∈ s'.delivered → (id, r) ∈ s.delivered ∨ s.Carries id r

theorem Remains.refl (s : Scene) (id : RequestId) : Remains s s id :=
  ⟨fun _ carries => carries, fun _ delivered => Or.inl delivered⟩

theorem Remains.of_exchange (s : Scene) (id : RequestId) (x : Exchange) :
    Remains s { s with exchange := x } id :=
  ⟨fun _ carries => carries, fun _ delivered => Or.inl delivered⟩

theorem Remains.trans {s' s'' : Scene} (first : Remains s s' id) (second : Remains s' s'' id) :
    Remains s s'' id where
  carries := fun r carries => first.carries r (second.carries r carries)
  delivered := by
    intro r delivered
    rcases second.delivered r delivered with before | carried
    · exact first.delivered r before
    · exact Or.inr (first.carries r carried)

namespace Departed

theorem of_exchange (departed : Departed s id) {x : Exchange}
    (fewer : ∀ i ∈ x.pending.ids, i ∈ s.exchange.pending.ids) (source : x.ids = s.exchange.ids)
    (gone : x.closedFor = none → s.exchange.closedFor = none) :
    Departed { s with exchange := x } id ∧ Remains s { s with exchange := x } id := by
  refine ⟨⟨mt (fewer id) departed.1, ?_⟩, Remains.of_exchange s id x⟩
  intro isOpen
  rw [source]
  exact departed.2 (gone isOpen)

theorem erase (departed : Departed s id) (other : RequestId) :
    id ∉ (s.exchange.pending.erase other).ids := by
  rw [PendingTable.ids_erase, List.mem_filter]
  exact fun member => departed.1 member.1

theorem ne_of_pending (departed : Departed s id) {p : Pending}
    (member : p ∈ s.exchange.pending.entries) : p.id ≠ id :=
  fun same => departed.1 (PendingTable.mem_ids.mpr ⟨p, member, same⟩)

/-- Whoever takes pending requests out takes others. -/
theorem remains_of_taken (departed : Departed s id) {taken : List Carried}
    (pending : ∀ c ∈ taken, c.request ∈ s.exchange.pending.entries) (x : Exchange) :
    Remains s { s with exchange := x, inHand := s.inHand ++ taken } id where
  carries := by
    rintro r ⟨c, member, named, errand⟩
    rcases List.mem_append.mp member with before | new
    · exact ⟨c, before, named, errand⟩
    · exact absurd named (departed.ne_of_pending (pending c new))
  delivered := fun _ delivered => Or.inl delivered

theorem pickUp (departed : Departed s id) (other : RequestId) (errand : Errand) :
    Departed (s.pickUp other errand) id ∧ Remains s (s.pickUp other errand) id := by
  rcases s.pickUp_cases other errand with same | ⟨p, member, same⟩
  · rw [same]
    exact ⟨departed, Remains.refl s id⟩
  · rw [same]
    refine ⟨⟨departed.erase other, departed.2⟩, departed.remains_of_taken ?_ _⟩
    intro c new
    rw [List.mem_singleton.mp new]
    exact member

theorem detach (departed : Departed s id) (reason : String) (order : PendingTable.Order) :
    Departed (s.detach reason order) id ∧ Remains s (s.detach reason order) id := by
  by_cases rejects : s.exchange.rejectsOnClose
  · rw [detach_of_rejects rejects]
    refine ⟨⟨by simp [PendingTable.ids], fun isOpen => by simp [Exchange.markClosed] at isOpen⟩,
      departed.remains_of_taken ?_ _⟩
    intro c new
    obtain ⟨p, member, rfl⟩ := List.mem_map.mp new
    exact (order.perm _).mem_iff.mp member
  · rw [detach_of_keeps rejects]
    refine departed.of_exchange (fun _ member => member) rfl ?_
    intro isOpen
    simp [Exchange.markClosed] at isOpen

theorem finish (departed : Departed s id) (place : Nat) :
    Departed (s.finish place) id ∧ Remains s (s.finish place) id := by
  cases there : s.inHand[place]? with
  | none =>
      rw [finish_of_none there]
      exact ⟨departed, Remains.refl s id⟩
  | some c =>
      rw [finish_of_getElem? there]
      refine ⟨departed, ?_, ?_⟩
      · rintro r ⟨other, member, parts⟩
        exact ⟨other, List.mem_of_mem_eraseIdx member, parts⟩
      · intro r delivered
        rcases List.mem_append.mp delivered with before | new
        · exact Or.inl before
        · exact Or.inr ⟨c, List.mem_of_getElem? there, mem_deliveries.mp new⟩

theorem cancel (departed : Departed s id) (other : RequestId) :
    Departed { s with exchange := (s.exchange.cancel other).2 } id ∧
      Remains s { s with exchange := (s.exchange.cancel other).2 } id := by
  rw [Exchange.cancel_eq]
  apply departed.of_exchange
  · intro i member
    rw [Exchange.settle_pending, PendingTable.ids_erase] at member
    exact (List.mem_filter.mp member).1
  · exact Exchange.settle_ids _ _ _
  · intro isOpen
    rwa [Exchange.settle_closedFor] at isOpen

theorem touch (departed : Departed s id) (other : Ticket) (f : Mailbox → Mailbox) :
    Departed { s with exchange := s.exchange.touch other f } id ∧
      Remains s { s with exchange := s.exchange.touch other f } id :=
  departed.of_exchange (fun _ member => member) rfl fun isOpen => isOpen

theorem send (departed : Departed s id) (sound : Sound s) (room : s.exchange.ids.HasNext)
    (now : UInt64) (verb : String) (arguments : List String) :
    Departed { s with exchange := (s.exchange.dispatch now verb arguments {}).2 } id ∧
      Remains s { s with exchange := (s.exchange.dispatch now verb arguments {}).2 } id := by
  cases gone : s.exchange.closedFor with
  | some reason =>
      rw [Exchange.dispatch_of_closed gone]
      exact departed.of_exchange (fun _ member => member) rfl fun isOpen => isOpen
  | none =>
      rw [Exchange.dispatch_snd_of_open gone]
      obtain ⟨t, whole⟩ := sound.whole
      have absent := whole.not_mem_pending (whole.coherent.peek_not_mem room now)
      have past := IdSource.last_lt_peek room now
      have before := UInt64.le_iff_toNat_le.mp (departed.2 gone)
      refine ⟨⟨?_, ?_⟩, Remains.of_exchange s id _⟩
      · intro pending
        obtain ⟨p, member, named⟩ := PendingTable.mem_ids.mp pending
        rcases (PendingTable.mem_insert absent).mp member with rfl | old
        · rw [← named] at before
          exact absurd before (Nat.not_le_of_lt past)
        · exact departed.ne_of_pending old named
      · intro _
        exact UInt64.le_iff_toNat_le.mpr (Nat.le_trans before (Nat.le_of_lt past))

theorem act (departed : Departed s id) (sound : Sound s) {a : Act} (allowed : s.Allowed ticket a) :
    Departed (s.act limit ticket a) id ∧ Remains s (s.act limit ticket a) id := by
  cases a with
  | send now verb arguments => exact departed.send sound allowed now verb arguments
  | arrive text =>
      rw [act_arrive]
      split
      · exact departed.pickUp _ _
      · exact ⟨departed, Remains.refl s id⟩
  | refuse other failure => exact departed.pickUp other _
  | close reason order => exact departed.detach reason order
  | finish place => exact departed.finish place
  | cancel other => exact departed.cancel other
  | look other =>
      rw [Scene.act, Exchange.poll_snd]
      exact departed.touch other _
  | discard other => exact departed.touch other _
  | wait =>
      have moved : ∀ x, Departed { s with exchange := x } id ∧ Remains s { s with exchange := x } id →
          (s.waiting.next limit ticket s.exchange).2 = x →
          Departed (s.act limit ticket .wait) id ∧ Remains s (s.act limit ticket .wait) id := by
        rintro x ⟨still, remains⟩ rfl
        exact ⟨still, remains.carries, remains.delivered⟩
      rcases next_exchange limit ticket s.exchange s.waiting with same | same | same | ⟨other, same⟩
      · exact moved _ ⟨departed, Remains.refl s id⟩ same
      · rw [Exchange.poll_snd] at same
        exact moved _ (departed.touch ticket _) same
      · exact moved _ (departed.touch ticket _) same
      · exact moved _ (departed.cancel other) same

theorem play (departed : Departed s id) (sound : Sound s) {acts : List Act}
    (legal : s.Legal limit ticket acts) : Remains s (s.play limit ticket acts) id := by
  induction acts generalizing s with
  | nil => exact Remains.refl s id
  | cons a rest ih =>
      obtain ⟨still, remains⟩ : Departed (s.act limit ticket a) id ∧ Remains s (s.act limit ticket a) id :=
        departed.act sound legal.1
      exact remains.trans (ih still (sound.act legal.1) legal.2)

end Departed

end Switchboard.Scene
