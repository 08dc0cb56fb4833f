import Switchboard.Proofs.Exchange.Noninterference

/-! # The order of delivery

Replies to different requests may come in any order. As long as replies with the same token keep
theirs, the exchange ends up in the same state, and each frame does the same. For every request sees
only its own replies, and these come in the same order.
-/

namespace Switchboard

/-- Both frames are replies, and they carry the same token. -/
def ReplyFrame.sameToken (first second : String) : Bool :=
  match decode first, decode second with
  | .ok (token, _), .ok (other, _) => token == other
  | _, _ => false

/-- Frames in another order: at each place stands the frame that `order` takes from the old list. -/
def reordered (frames : List String) (order : Equiv.Perm (Fin frames.length)) : List String :=
  (List.finRange frames.length).map fun place => frames[order place]

/-- Replies with the same token stay in their order. -/
def KeepsTokens (frames : List String) (order : Equiv.Perm (Fin frames.length)) : Prop :=
  ∀ i j : Fin frames.length, i < j → ReplyFrame.sameToken frames[i] frames[j] →
    order.symm i < order.symm j

instance (frames : List String) (order : Equiv.Perm (Fin frames.length)) :
    Decidable (KeepsTokens frames order) :=
  inferInstanceAs (Decidable (∀ i j : Fin frames.length, i < j →
    ReplyFrame.sameToken frames[i] frames[j] → order.symm i < order.symm j))

section Lists

variable {α : Type} {p : α → Bool}

theorem filter_split {l : List α} {a : α} {k : Nat} (located : l[k]? = some a) (passes : p a) :
    l.filter p = (l.take k).filter p ++ a :: (l.drop (k + 1)).filter p := by
  obtain ⟨inside, rfl⟩ := List.getElem?_eq_some_iff.mp located
  have whole : l = l.take k ++ l[k] :: l.drop (k + 1) := by simp
  conv => lhs; rw [whole]
  rw [List.filter_append, List.filter_cons_of_pos passes]

/-- Two lists with the same elements that pass a test have the same ones in front of any of these. -/
theorem filter_take_eq {first second : List α} {a : α} {i j : Nat}
    (same : first.filter p = second.filter p) (distinct : first.Nodup) (here : first[i]? = some a)
    (there : second[j]? = some a) (passes : p a) :
    (first.take i).filter p = (second.take j).filter p := by
  have distinct := distinct.filter p
  rw [filter_split here passes, List.nodup_middle, List.nodup_cons, List.mem_append, not_or] at distinct
  rw [filter_split here passes, filter_split there passes] at same
  exact ((List.append_cons_inj_of_notMem distinct.1.1 distinct.1.2).mp same).1

/-- An order that keeps what passes a test in place relative to each other only moves the rest. -/
theorem filter_map_order {n : Nat} {p : Fin n → Bool} (order : Equiv.Perm (Fin n))
    (keeps : ∀ i j, i < j → p i → p j → order.symm i < order.symm j) :
    (List.finRange n).filter p = ((List.finRange n).map order).filter p := by
  have ascending : ((List.finRange n).filter p).Pairwise (· < ·) :=
    (List.pairwise_lt_finRange n).filter p
  have ascendingToo : (((List.finRange n).map order).filter p).Pairwise (· < ·) := by
    rw [List.pairwise_filter, List.pairwise_map]
    apply (List.pairwise_lt_finRange n).imp
    intro i j before passesI passesJ
    by_contra notBefore
    have apart : order j ≠ order i := fun same => (Fin.ne_of_lt before) (order.injective same.symm)
    have after := keeps (order j) (order i) (lt_of_le_of_ne (not_lt.mp notBefore) apart) passesJ passesI
    simp only [Equiv.symm_apply_apply] at after
    exact absurd after (not_lt.mpr (le_of_lt before))
  apply ascending.eq_of_mem_iff ascendingToo
  intro i
  have somewhere : ∃ place, order place = i := ⟨order.symm i, order.apply_symm_apply i⟩
  simp [somewhere]

end Lists

namespace Exchange

variable {x y : Exchange} {id : RequestId}

/-- Happenings that are the same to every single request are the same. -/
theorem Coherent.undergoAll_congr (coherent : Coherent x) {first second : List Happening}
    (same : ∀ id, (first.filter fun h => !h.isForeign id) = second.filter fun h => !h.isForeign id) :
    x.undergoAll first = x.undergoAll second := by
  apply ext_view (coherent.undergoAll first).ascending (coherent.undergoAll second).ascending
  intro id
  rw [coherent.view_undergoAll, coherent.view_undergoAll, ← View.foldl_undergo_filter, same,
    View.foldl_undergo_filter]

theorem Coherent.pending_congr (coherent : Coherent x) {first second : List Happening}
    (same : (first.filter fun h => !h.isForeign id) = second.filter fun h => !h.isForeign id) :
    id ∈ (x.undergoAll first).pending.ids ↔ id ∈ (x.undergoAll second).pending.ids := by
  rw [view_pending, view_pending, coherent.view_undergoAll, coherent.view_undergoAll,
    ← View.foldl_undergo_filter, same, View.foldl_undergo_filter]

/-- What becomes of a frame depends on whether the request that it answers is pending. -/
theorem receive_fst_congr {text : String}
    (same : ∀ id reply, ReplyFrame.answer? text = some (id, reply) →
      (id ∈ x.pending.ids ↔ id ∈ y.pending.ids)) : (x.receive text).1 = (y.receive text).1 := by
  cases answers : ReplyFrame.answer? text with
  | some answer =>
      obtain ⟨id, reply⟩ := answer
      simp only [receive_of_answer? _ id answers, same id reply answers]
  | none =>
      unfold receive
      cases decoded : ReplyFrame.decode text with
      | error problem => rfl
      | ok frame =>
          have unread : RequestId.ofToken? frame.1 = none := by
            simpa [ReplyFrame.answer?, decoded] using answers
          simp [unread]

theorem performAll_fst_getElem? (x : Exchange) (events : List Event) (i : Nat) :
    (x.performAll events).1[i]? =
      events[i]?.map fun e => ((x.undergoAll ((events.take i).map .event)).perform e).1 := by
  induction events generalizing x i with
  | nil => rfl
  | cons e rest ih =>
      cases i with
      | zero => rfl
      | succ i => exact ih (x.perform e).2 i

section Arrivals

variable {frames : List String} {order : Equiv.Perm (Fin frames.length)}

/-- The arrival of the frames at some places of a list. -/
def arrivals (frames : List String) (places : List (Fin frames.length)) : List Event :=
  places.map fun i => .frame frames[i]

theorem map_frame_eq_arrivals (frames : List String) :
    frames.map .frame = arrivals frames (List.finRange frames.length) := by
  have whole : (List.finRange frames.length).map (fun i => frames[i]) = frames := by simp
  conv => lhs; rw [← whole]
  rw [arrivals, List.map_map]
  rfl

theorem map_frame_reordered :
    (reordered frames order).map .frame = arrivals frames ((List.finRange frames.length).map order) := by
  simp [reordered, arrivals]

theorem filter_arrivals (id : RequestId) (places : List (Fin frames.length)) :
    ((arrivals frames places).map Happening.event).filter (fun h => !h.isForeign id) =
      (arrivals frames (places.filter fun i => !(Event.frame frames[i]).isForeign id)).map .event := by
  simp only [arrivals, List.map_map, List.filter_map]
  rfl

theorem sameToken_of_native {first second : String} (native : !(Event.frame first).isForeign id)
    (nativeToo : !(Event.frame second).isForeign id) : ReplyFrame.sameToken first second := by
  simp only [Event.isForeign, Bool.not_eq_true'] at native nativeToo
  cases decoded : ReplyFrame.decode first with
  | error problem => simp [decoded] at native
  | ok frame =>
      cases decodedToo : ReplyFrame.decode second with
      | error problem => simp [decodedToo] at nativeToo
      | ok other =>
          simp only [decoded, decodedToo, bne_eq_false_iff_eq] at native nativeToo
          simp [ReplyFrame.sameToken, decoded, decodedToo, native, nativeToo]

theorem filter_places (keeps : KeepsTokens frames order) (id : RequestId) :
    (List.finRange frames.length).filter (fun i => !(Event.frame frames[i]).isForeign id) =
      ((List.finRange frames.length).map order).filter
        fun i => !(Event.frame frames[i]).isForeign id := by
  apply filter_map_order
  intro i j before native nativeToo
  exact keeps i j before (sameToken_of_native native nativeToo)

theorem performAll_arrivals (x : Exchange) {places : List (Fin frames.length)} {k : Nat}
    {i : Fin frames.length} (located : places[k]? = some i) :
    (x.performAll (arrivals frames places)).1[k]? =
      some (.frame
        ((x.undergoAll ((arrivals frames (places.take k)).map .event)).receive frames[i]).1) := by
  rw [performAll_fst_getElem?]
  simp only [arrivals, List.getElem?_map, located, List.map_take]
  rfl

/-- Delivering frames in another order, in which replies with the same token keep theirs, leaves the
exchange in the same state, and each frame has the same outcome. -/
theorem delivery_order_is_immaterial {x : Exchange} (reachable : Reachable x) (frames : List String)
    (order : Equiv.Perm (Fin frames.length)) (keeps : KeepsTokens frames order) :
    (x.performAll ((reordered frames order).map .frame)).2 = (x.performAll (frames.map .frame)).2 ∧
      ∀ place : Fin frames.length, ∃ outcome,
        (x.performAll (frames.map .frame)).1[(order place).val]? = some (.frame outcome) ∧
        (x.performAll ((reordered frames order).map .frame)).1[place.val]? =
          some (.frame outcome) := by
  have coherent := reachable.coherent
  rw [map_frame_reordered, map_frame_eq_arrivals]
  constructor
  · rw [performAll_snd, performAll_snd]
    apply coherent.undergoAll_congr
    intro id
    rw [filter_arrivals, filter_arrivals, filter_places keeps]
  · intro place
    have here : (List.finRange frames.length)[(order place).val]? = some (order place) := by simp
    have there : ((List.finRange frames.length).map order)[place.val]? = some (order place) := by simp
    rw [x.performAll_arrivals here, x.performAll_arrivals there]
    refine ⟨_, rfl, ?_⟩
    congr 2
    apply receive_fst_congr
    intro id reply answers
    apply coherent.pending_congr
    have native : !(Event.frame frames[order place]).isForeign id := by
      rw [native_of_answer? answers]
      rfl
    rw [filter_arrivals, filter_arrivals,
      filter_take_eq (filter_places keeps id) (List.nodup_finRange _) here there native]

/-- Two requests are pending, and their replies come with a second one to the first. -/
def twoPending : Exchange :=
  (fresh .counter true).after [.dispatch 0 "GET" ["a"] {}, .dispatch 0 "GET" ["b"] {}]

def threeReplies : List String :=
  ["ID 1 \x7b\"status\":\"success\"\x7d", "ID 2 \x7b\"status\":\"success\"\x7d",
    "ID 1 \x7b\"status\":\"error\",\"message\":\"late\"\x7d"]

theorem delivery_order_is_immaterial_threeReplies :
    let order : Equiv.Perm (Fin threeReplies.length) :=
      Equiv.swap ⟨0, by decide⟩ ⟨1, by decide⟩
    Reachable twoPending ∧ KeepsTokens threeReplies order ∧
      (twoPending.performAll ((reordered threeReplies order).map .frame)).2 =
        (twoPending.performAll (threeReplies.map .frame)).2 := by
  intro order
  have keeps : KeepsTokens threeReplies order := by decide
  have reachable : Reachable twoPending := reachable_after .counter true (by decide)
  exact ⟨reachable, keeps, (delivery_order_is_immaterial reachable threeReplies order keeps).1⟩

end Arrivals

end Exchange

end Switchboard
