import Switchboard.Proofs.Exchange.Identifiers

/-! # The books balance

A request leaves the table in one of five ways: a reply brings its data or a failure, its caller
withdraws it, the end of the connection drains it, or the transport refuses its frame. Over a run,
the identifiers handed out are those still pending and those that left, each of them once. What the
exchange reported adds up to the same, but for the refusals, which it does not report.
-/

namespace Switchboard

/-- A way for a request to leave the table. -/
inductive Exit where
  | resolved
  | rejected
  | cancelled
  | drained
  | refused
  deriving DecidableEq

def Exit.all : List Exit := [.resolved, .rejected, .cancelled, .drained, .refused]

/-- How many requests left in a way, by a report. -/
def Report.departed : Exit → Report → Nat
  | .resolved, .frame (.resolved _) => 1
  | .rejected, .frame (.rejected _) => 1
  | .cancelled, .cancelled true => 1
  | .drained, .closed rejected => rejected
  | _, _ => 0

/-- The request that a reply answered, by a report. -/
def Report.answered? : Exit → Report → Option RequestId
  | .resolved, .frame (.resolved id) => some id
  | .rejected, .frame (.rejected id) => some id
  | _, _ => none

def Exchange.Observation.reports : Observation → List Report
  | .dispatched d => d.reports
  | .reported r => [r]
  | .outcome _ | .discarded => []

namespace Exchange

open scoped List

/-- Everything that a run reports, in order. -/
def reports (x : Exchange) (steps : List Step) : List Report :=
  (x.run steps).1.flatMap Observation.reports

/-- What the exchange reports of a happening. -/
def report? (x : Exchange) : Happening → Option Report
  | .event e => some (x.perform e).1
  | .refusal .. => none

/-- The identifiers whose requests leave the table in a way by a happening. -/
def leaving (x : Exchange) : Exit → Happening → List RequestId
  | .resolved, .event (.frame text) =>
    match (x.receive text).1 with
    | .resolved id => [id]
    | _ => []
  | .rejected, .event (.frame text) =>
    match (x.receive text).1 with
    | .rejected id => [id]
    | _ => []
  | .cancelled, .event (.cancel id) => if (x.cancel id).1 then [id] else []
  | .drained, .event (.close reason) =>
    x.pending.ids.filter fun id => id ∉ (x.close reason).2.pending.ids
  | .refused, .refusal id _ => if id ∈ x.pending.ids then [id] else []
  | _, _ => []

/-- The identifiers whose requests leave the table in a way during a run, in order. -/
def left (x : Exchange) (steps : List Step) (way : Exit) : List RequestId :=
  (x.moments steps).flatMap fun m => m.1.leaving way m.2

/-- The identifiers whose requests leave the table by a happening. -/
def departing (x : Exchange) (h : Happening) : List RequestId :=
  Exit.all.flatMap fun way => x.leaving way h

variable {x : Exchange}

section Table

theorem ids_perm_settle (ordered : Ordered x) (id : RequestId) (f : Mailbox → Mailbox) :
    x.pending.ids.Perm
      ((x.settle id f).pending.ids ++ if id ∈ x.pending.ids then [id] else []) := by
  rw [settle_pending]
  split
  case isTrue present =>
    exact (PendingTable.ids_perm_of_mem ordered.ascending present).trans
      (List.perm_append_singleton id _).symm
  case isFalse absent =>
    rw [PendingTable.erase_of_not_mem absent, List.append_nil]

theorem departing_frame {text : String} {id : RequestId} {reply : Reply}
    (answers : ReplyFrame.answer? text = some (id, reply)) :
    x.departing (.event (.frame text)) = if id ∈ x.pending.ids then [id] else [] := by
  simp only [departing, Exit.all, List.flatMap_cons, List.flatMap_nil, leaving,
    x.receive_of_answer? id answers]
  by_cases present : id ∈ x.pending.ids
  · rw [if_pos present, if_pos present]
    cases reply.isSuccess <;> rfl
  · rw [if_neg present, if_neg present]
    rfl

theorem departing_frame_of_none {text : String} (answers : ReplyFrame.answer? text = none) :
    x.departing (.event (.frame text)) = [] := by
  rcases x.receive_of_answer?_none answers with dropped | dropped <;>
    simp [departing, Exit.all, leaving, dropped]

theorem departing_cancel (id : RequestId) :
    x.departing (.event (.cancel id)) = if id ∈ x.pending.ids then [id] else [] := by
  simp [departing, Exit.all, leaving, cancel_eq]

theorem departing_refusal (id : RequestId) (failure : Failure) :
    x.departing (.refusal id failure) = if id ∈ x.pending.ids then [id] else [] := by
  simp [departing, Exit.all, leaving]

theorem departing_close (reason : String) :
    x.departing (.event (.close reason)) = if x.rejectsOnClose then x.pending.ids else [] := by
  simp only [departing, Exit.all, List.flatMap_cons, List.flatMap_nil, leaving, close_pending,
    List.nil_append, List.append_nil]
  split
  case isTrue => simp [PendingTable.ids]
  case isFalse => simp

/-- A happening takes nothing out of the table but what departs by it, and puts nothing in. -/
theorem ids_perm_undergo (ordered : Ordered x) (h : Happening) :
    x.pending.ids.Perm ((x.undergo h).pending.ids ++ x.departing h) := by
  match h with
  | .event (.frame text) =>
      cases answers : ReplyFrame.answer? text with
      | none => rw [undergo_frame_of_none answers, departing_frame_of_none answers, List.append_nil]
      | some answer =>
          rw [undergo_frame answers, departing_frame answers]
          exact ids_perm_settle ordered answer.1 _
  | .event (.cancel id) =>
      rw [undergo_cancel, departing_cancel]
      exact ids_perm_settle ordered id _
  | .refusal id failure =>
      rw [undergo_refusal, departing_refusal]
      exact ids_perm_settle ordered id _
  | .event (.close reason) =>
      rw [undergo_close, close_pending, departing_close]
      cases x.rejectsOnClose <;> simp [PendingTable.ids]

theorem ids_perm_undergoAll (ordered : Ordered x) (hs : List Happening) :
    x.pending.ids.Perm
      ((x.undergoAll hs).pending.ids ++ (x.meetings hs).flatMap fun m => m.1.departing m.2) := by
  induction hs generalizing x with
  | nil => simp [meetings]
  | cons h rest ih =>
      have first := ids_perm_undergo ordered h
      have later := ih (ordered.undergo h)
      rw [undergoAll_cons, meetings, List.flatMap_cons]
      refine (first.trans (later.append_right _)).trans ?_
      rw [List.append_assoc]
      exact List.perm_append_comm.append_left _

theorem ids_perm_enter (ordered : Ordered x) {s : Step} (issuable : x.Issuable s) :
    (x.issuedBy s ++ x.pending.ids).Perm (x.enter s).pending.ids := by
  rcases x.enter_cases s with
    ⟨now, verb, arguments, handover, rfl, ⟨isOpen, same⟩ | ⟨reason, closed, same⟩⟩ | ⟨e, rfl, same⟩ |
    ⟨ticket, looks, same | same⟩ <;> rw [same]
  · rw [issuedBy_of_open isOpen]
    have added := ordered.issue_entries_perm (issuable isOpen) now verb
    exact (added.map Pending.id).symm
  · rw [issuedBy_of_closed closed]
    exact List.Perm.refl _
  · exact List.Perm.refl _
  · rw [issuedBy_of_ticket? looks]
    exact List.Perm.refl _
  · rw [issuedBy_of_ticket? looks]
    exact List.Perm.refl _

theorem ids_perm_after (ordered : Ordered x) {steps : List Step} (along : x.Along Issuable steps) :
    (x.issued steps ++ x.pending.ids).Perm
      ((x.after steps).pending.ids ++ (x.moments steps).flatMap fun m => m.1.departing m.2) := by
  induction steps generalizing x with
  | nil => simp [issued, moments]
  | cons s rest ih =>
      obtain ⟨issuable, along⟩ := along
      have entered := ids_perm_enter ordered issuable
      have happened := ids_perm_undergoAll (ordered.enter issuable) (x.happenings s)
      have later := ih (ordered.step issuable) along
      rw [← step_snd] at happened
      rw [issued, moments, List.flatMap_append, after_cons]
      let new := (x.step s).2.issued rest
      let gone := ((x.enter s).meetings (x.happenings s)).flatMap fun m => m.1.departing m.2
      let goneLater := ((x.step s).2.moments rest).flatMap fun m => m.1.departing m.2
      have first : (x.issuedBy s ++ x.pending.ids).Perm ((x.step s).2.pending.ids ++ gone) :=
        entered.trans happened
      calc x.issuedBy s ++ new ++ x.pending.ids
        _ ~ new ++ (x.issuedBy s ++ x.pending.ids) := by
            rw [← List.append_assoc]
            exact List.perm_append_comm.append_right _
        _ ~ new ++ ((x.step s).2.pending.ids ++ gone) := first.append_left new
        _ ~ ((x.step s).2.after rest).pending.ids ++ goneLater ++ gone := by
            rw [← List.append_assoc]
            exact later.append_right gone
        _ ~ ((x.step s).2.after rest).pending.ids ++ (gone ++ goneLater) := by
            rw [List.append_assoc]
            exact List.perm_append_comm.append_left _

/-- What departs happening by happening departs way by way. -/
theorem flatMap_left_perm (x : Exchange) (steps : List Step) (ways : List Exit) :
    ways.flatMap (x.left steps) ~
      (x.moments steps).flatMap fun m => ways.flatMap fun way => m.1.leaving way m.2 := by
  induction ways with
  | nil => simp
  | cons way rest ih =>
      simp only [List.flatMap_cons]
      exact (ih.append_left (x.left steps way)).trans (List.flatMap_append_perm _ _ _)

end Table

section Reports

theorem performAll_fst (x : Exchange) (events : List Event) :
    (x.performAll events).1 =
      (x.meetings (events.map .event)).filterMap fun m => m.1.report? m.2 := by
  induction events generalizing x with
  | nil => rfl
  | cons e rest ih => exact congrArg (List.cons (x.perform e).1) (ih (x.perform e).2)

/-- The transport's refusal is not reported, so a handover reports just what its events did. -/
theorem filterMap_report?_handover (x : Exchange) (handover : Handover) (id : RequestId) :
    (x.meetings (handover.happenings id)).filterMap (fun m => m.1.report? m.2) =
      (x.performAll handover.meanwhile).1 := by
  rw [Handover.happenings, meetings_append, List.filterMap_append, ← performAll_fst]
  cases handover.failure with
  | none => simp [meetings]
  | some failure => simp [meetings, report?]

theorem step_reports (x : Exchange) (s : Step) :
    (x.step s).1.reports =
      ((x.enter s).meetings (x.happenings s)).filterMap fun m => m.1.report? m.2 := by
  cases s with
  | dispatch now verb arguments handover =>
      cases closed : x.closedFor with
      | none =>
          simp only [happenings, isClosed, closed, Option.isSome_none, Bool.false_eq_true, if_false,
            filterMap_report?_handover, enter, step, dispatch, Observation.reports]
      | some reason =>
          simp only [happenings, isClosed, closed, Option.isSome_some, if_true, meetings,
            List.filterMap_nil, step, dispatch, Observation.reports]
  | event e => rfl
  | poll | waitFor | wait | discard => rfl

theorem reports_eq (x : Exchange) (steps : List Step) :
    x.reports steps = (x.moments steps).filterMap fun m => m.1.report? m.2 := by
  induction steps generalizing x with
  | nil => rfl
  | cons s rest ih =>
      rw [moments, List.filterMap_append, ← step_reports, ← ih]
      exact List.flatMap_cons

theorem length_leaving (x : Exchange) (h : Happening) {way : Exit} (reported : way ≠ .refused) :
    (x.leaving way h).length = ((x.report? h).map (Report.departed way)).getD 0 := by
  match way, h with
  | .refused, _ => contradiction
  | .resolved, .event (.frame text) | .rejected, .event (.frame text) =>
      simp only [leaving, report?, perform, Option.map_some, Option.getD_some]
      cases (x.receive text).1 <;> rfl
  | .cancelled, .event (.cancel id) =>
      simp only [leaving, report?, perform, Option.map_some, Option.getD_some]
      cases (x.cancel id).1 <;> rfl
  | .drained, .event (.close reason) =>
      simp only [leaving, report?, perform, Option.map_some, Option.getD_some, Report.departed,
        close_fst, close_pending]
      cases x.rejectsOnClose <;> simp [PendingTable.ids, PendingTable.size]
  | .resolved, .event (.cancel _) | .resolved, .event (.close _) | .resolved, .refusal .. => rfl
  | .rejected, .event (.cancel _) | .rejected, .event (.close _) | .rejected, .refusal .. => rfl
  | .cancelled, .event (.frame _) | .cancelled, .event (.close _) | .cancelled, .refusal .. => rfl
  | .drained, .event (.frame _) | .drained, .event (.cancel _) | .drained, .refusal .. => rfl

theorem leaving_of_reply (x : Exchange) (h : Happening) {way : Exit}
    (reply : way = .resolved ∨ way = .rejected) :
    x.leaving way h = ((x.report? h).bind (Report.answered? way)).toList := by
  match h with
  | .event (.frame text) =>
      rcases reply with rfl | rfl <;> simp only [leaving, report?, perform, Option.bind_some] <;>
        cases (x.receive text).1 <;> rfl
  | .event (.cancel _) | .event (.close _) | .refusal .. => rcases reply with rfl | rfl <;> rfl

theorem length_left (x : Exchange) (steps : List Step) {way : Exit} (reported : way ≠ .refused) :
    (x.left steps way).length = ((x.reports steps).map (Report.departed way)).sum := by
  rw [left, reports_eq]
  induction x.moments steps with
  | nil => rfl
  | cons m rest ih =>
      rw [List.flatMap_cons, List.length_append, ih, length_leaving m.1 m.2 reported]
      cases told : m.1.report? m.2 <;> simp [told]

theorem filterMap_answered? (x : Exchange) (steps : List Step) {way : Exit}
    (reply : way = .resolved ∨ way = .rejected) :
    (x.reports steps).filterMap (Report.answered? way) = x.left steps way := by
  rw [left, reports_eq]
  induction x.moments steps with
  | nil => rfl
  | cons m rest ih =>
      rw [List.flatMap_cons, leaving_of_reply m.1 m.2 reply, ← ih]
      cases told : m.1.report? m.2 with
      | none => simp [told]
      | some report => cases answered : Report.answered? way report <;> simp [told, answered]

end Reports

/-- Every identifier of a run is accounted for, and once. -/
structure Balanced (x : Exchange) (steps : List Step) : Prop where
  /-- What was handed out is pending or left in one of the ways. -/
  complete : x.issued steps ~ (x.after steps).pending.ids ++ Exit.all.flatMap (x.left steps)
  /-- No two of these accounts share an identifier, and none has one twice. -/
  once : ((x.after steps).pending.ids ++ Exit.all.flatMap (x.left steps)).Nodup
  /-- The identifiers that frames were reported to have answered are those that left by a reply. -/
  answered : ∀ way, way = .resolved ∨ way = .rejected →
    (x.reports steps).filterMap (Report.answered? way) = x.left steps way
  /-- The reports, with what is pending and what the transport refused in time, add up to all. -/
  count : (x.issued steps).length = (x.after steps).pending.size +
    ((x.reports steps).map (Report.departed .resolved)).sum +
    ((x.reports steps).map (Report.departed .rejected)).sum +
    ((x.reports steps).map (Report.departed .cancelled)).sum +
    ((x.reports steps).map (Report.departed .drained)).sum + (x.left steps .refused).length

/-- No request is lost, and none is reported twice. -/
theorem books_balance (strategy : IdStrategy) (rejectsOnClose : Bool) (steps : List Step)
    (issuable : (fresh strategy rejectsOnClose).Along Issuable steps) :
    Balanced (fresh strategy rejectsOnClose) steps := by
  have complete : (fresh strategy rejectsOnClose).issued steps ~
      ((fresh strategy rejectsOnClose).after steps).pending.ids ++
        Exit.all.flatMap ((fresh strategy rejectsOnClose).left steps) := by
    have flow := ids_perm_after (Ordered.fresh strategy rejectsOnClose) issuable
    have empty : (fresh strategy rejectsOnClose).pending.ids = [] := rfl
    rw [empty, List.append_nil] at flow
    exact flow.trans ((flatMap_left_perm _ steps Exit.all).symm.append_left _)
  have distinct : ((fresh strategy rejectsOnClose).issued steps).Nodup :=
    (issued_ascending issuable).1.imp RequestId.ne_of_lt
  refine ⟨complete, complete.nodup_iff.mp distinct, fun way => filterMap_answered? _ steps, ?_⟩
  have told (way : Exit) (reported : way ≠ .refused) :=
    length_left (fresh strategy rejectsOnClose) steps reported
  rw [← told .resolved (by simp), ← told .rejected (by simp), ← told .cancelled (by simp),
    ← told .drained (by simp), complete.length_eq, List.length_append, PendingTable.ids,
    List.length_map, PendingTable.size]
  simp only [Exit.all, List.flatMap_cons, List.flatMap_nil, List.length_append, List.length_nil]
  omega

/-- A run in which requests are answered, withdrawn, refused, drained and, after the end of the
connection, turned away. One is withdrawn before the transport refuses its frame, so the refusal comes too
late, and so does the second reply to the last one that is answered. -/
def mixedFates : List Step :=
  [.dispatch 0 "GET" ["a"] {},
    .dispatch 0 "GET" ["b"] { failure := some (.network "gone") },
    .dispatch 0 "GET" ["c"] { meanwhile := [.cancel ⟨3⟩], failure := some (.network "gone") },
    .dispatch 0 "GET" ["d"] { meanwhile := [.frame "ID 4 [\"success\",true]"] },
    .dispatch 0 "GET" ["e"] {},
    .event (.cancel ⟨2⟩),
    .event (.frame "ID 5 [\"failure\",null,\"no such document\"]"),
    .event (.frame "ID 5 [\"success\",true]"),
    .event (.close "over"),
    .dispatch 0 "GET" ["f"] {}]

theorem books_balance_mixedFates :
    (fresh .counter true).Along Issuable mixedFates ∧
      (fresh .counter true).left mixedFates .resolved = [⟨4⟩] ∧
      (fresh .counter true).left mixedFates .rejected = [⟨5⟩] ∧
      (fresh .counter true).left mixedFates .cancelled = [⟨3⟩] ∧
      (fresh .counter true).left mixedFates .drained = [⟨1⟩] ∧
      (fresh .counter true).left mixedFates .refused = [⟨2⟩] ∧
      Balanced (fresh .counter true) mixedFates := by
  have numbered : (fresh .counter true).Along Numbered mixedFates := by decide
  have issuable := numbered.mono Issuable.of_numbered
  exact ⟨issuable, rfl, rfl, rfl, rfl, rfl, books_balance .counter true mixedFates issuable⟩

end Exchange

end Switchboard
