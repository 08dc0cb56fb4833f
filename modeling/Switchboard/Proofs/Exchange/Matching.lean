import Switchboard.Proofs.Exchange.Answers
import Switchboard.Proofs.Frame

/-! # Which frame completes which request

A frame completes a request just when it is the marker, the canonical decimal of a pending identifier
and a payload that reads as a reply, with single blanks between them. Such a frame names one request
only, and it changes what belongs to that request and nothing else. Any other text is either no reply
frame at all or one that nobody waits for, and it leaves the exchange as it was.
-/

namespace Switchboard

/-- A text that is cut into a token and a payload that reads as a reply. -/
def ReplyFrame.WellFormed (text : String) : Prop :=
  ∃ token payload reply, text = marker ++ " " ++ token ++ " " ++ payload ∧ token ≠ "" ∧
    ' ' ∉ token.toList ∧ Reply.read payload = .ok reply

namespace Exchange

/-- A text brings a pending request its reply. -/
def Answers (x : Exchange) (text : String) (id : RequestId) (reply : Reply) : Prop :=
  id ∈ x.pending.ids ∧ ∃ payload,
    text = marker ++ " " ++ toString id.value.toNat ++ " " ++ payload ∧ Reply.read payload = .ok reply

/-- One request is completed, and nothing else is touched. -/
structure Completed (x y : Exchange) (id : RequestId) (outcome : Outcome) : Prop where
  ids : y.ids = x.ids
  rejectsOnClose : y.rejectsOnClose = x.rejectsOnClose
  closedFor : y.closedFor = x.closedFor
  /-- The request was in the table, and just its entry has left. -/
  wasPending : id ∈ x.pending.ids
  pending : y.pending = x.pending.erase id
  /-- The one mailbox of the request holds the outcome, if its holder has not let go. -/
  delivered : ∃ ticket, (∀ other, x.mailroom.owner? other = some id ↔ other = ticket) ∧
    (x.isHeld ticket → y.mailroom.box ticket = .holding outcome ∧ y.Finds ticket outcome) ∧
    (¬ x.isHeld ticket → y.mailroom = x.mailroom)
  /-- Every other mailbox is as it was. -/
  others : ∀ ticket, x.mailroom.owner? ticket ≠ some id →
    y.mailroom.boxes[ticket]? = x.mailroom.boxes[ticket]?

variable {x : Exchange} {text : String} {id : RequestId} {reply : Reply}

theorem answers_iff :
    x.Answers text id reply ↔ id ∈ x.pending.ids ∧ ReplyFrame.answer? text = some (id, reply) := by
  rw [Answers, ReplyFrame.answer?_eq_some_iff, ReplyFrame.decode_eq_ok_iff, ← id.token_eq_toString]
  refine and_congr_right fun _ => exists_congr fun payload => ?_
  simp only [id.token_ne_empty, id.blank_not_mem_token, ne_eq, not_false_eq_true, true_and]

theorem Answers.unique {other : RequestId} {otherReply : Reply} (first : x.Answers text id reply)
    (second : x.Answers text other otherReply) : other = id ∧ otherReply = reply := by
  have answers := (answers_iff.mp first).2
  rw [(answers_iff.mp second).2] at answers
  exact Prod.mk.inj (Option.some.inj answers)

theorem Answers.wellFormed (answers : x.Answers text id reply) : ReplyFrame.WellFormed text := by
  obtain ⟨-, payload, spelled, read⟩ := answers
  rw [← id.token_eq_toString] at spelled
  exact ⟨id.token, payload, reply, spelled, id.token_ne_empty, id.blank_not_mem_token, read⟩

section Receiving

theorem receive_of_answers (answers : x.Answers text id reply) :
    x.receive text =
      (if reply.isSuccess then .resolved id else .rejected id,
        x.settle id (·.deliver reply.outcome)) := by
  obtain ⟨pending, found⟩ := answers_iff.mp answers
  rw [receive_of_answer? x id found, if_pos pending]

theorem receive_of_not_wellFormed (formless : ¬ ReplyFrame.WellFormed text) :
    x.receive text = (.malformed, x) := by
  rw [receive]
  cases decoded : ReplyFrame.decode text with
  | error problem => rfl
  | ok frame => exact absurd (ReplyFrame.exists_decode_iff.mp ⟨frame, decoded⟩) formless

/-- Nobody waits for a well-formed frame that answers no pending request: its token is no identifier,
or the identifier of no pending request. -/
theorem receive_of_not_answers (wellFormed : ReplyFrame.WellFormed text)
    (unawaited : ∀ id reply, ¬ x.Answers text id reply) : x.receive text = (.unmatched, x) := by
  obtain ⟨⟨token, reply⟩, decoded⟩ := ReplyFrame.exists_decode_iff.mpr wellFormed
  cases named : RequestId.ofToken? token with
  | none => simp only [receive, decoded, named]
  | some id =>
      have found : ReplyFrame.answer? text = some (id, reply) := by
        simp only [ReplyFrame.answer?, decoded, named, Option.map_some]
      have absent : id ∉ x.pending.ids := fun pending =>
        unawaited id reply (answers_iff.mpr ⟨pending, found⟩)
      rw [receive_of_answer? x id found, if_neg absent, settle_of_not_mem x id _ absent]

/-- A text is of one of three kinds, and what is made of it depends on the kind alone. -/
theorem receive_cases (x : Exchange) (text : String) :
    (∃ id reply, x.Answers text id reply ∧ x.receive text =
        (if reply.isSuccess then .resolved id else .rejected id,
          x.settle id (·.deliver reply.outcome))) ∨
      (ReplyFrame.WellFormed text ∧ (¬ ∃ id reply, x.Answers text id reply) ∧
        x.receive text = (.unmatched, x)) ∨
      ¬ ReplyFrame.WellFormed text ∧ x.receive text = (.malformed, x) := by
  by_cases awaited : ∃ id reply, x.Answers text id reply
  · obtain ⟨id, reply, answers⟩ := awaited
    exact Or.inl ⟨id, reply, answers, receive_of_answers answers⟩
  · by_cases wellFormed : ReplyFrame.WellFormed text
    · refine Or.inr (Or.inl ⟨wellFormed, awaited, receive_of_not_answers wellFormed ?_⟩)
      intro id reply answers
      exact awaited ⟨id, reply, answers⟩
    · exact Or.inr (Or.inr ⟨wellFormed, receive_of_not_wellFormed wellFormed⟩)

theorem receive_completes_iff :
    (∃ id, (x.receive text).1 = .resolved id ∨ (x.receive text).1 = .rejected id) ↔
      ∃ id reply, x.Answers text id reply := by
  rcases x.receive_cases text with
    ⟨id, reply, answers, received⟩ | ⟨-, unawaited, received⟩ | ⟨formless, received⟩
  · refine iff_of_true ⟨id, ?_⟩ ⟨id, reply, answers⟩
    rw [received]
    cases reply with
    | success data => exact Or.inl rfl
    | failure message => exact Or.inr rfl
  · refine iff_of_false ?_ unawaited
    simp [received]
  · refine iff_of_false ?_ fun ⟨id, reply, answers⟩ => formless answers.wellFormed
    simp [received]

theorem receive_eq_malformed_iff :
    (x.receive text).1 = .malformed ↔ ¬ ReplyFrame.WellFormed text := by
  rcases x.receive_cases text with
    ⟨id, reply, answers, received⟩ | ⟨wellFormed, -, received⟩ | ⟨formless, received⟩
  · refine iff_of_false ?_ (not_not.mpr answers.wellFormed)
    rw [received]
    cases reply <;> simp [Reply.isSuccess]
  · exact iff_of_false (by simp [received]) (not_not.mpr wellFormed)
  · exact iff_of_true (by rw [received]) formless

theorem receive_eq_unmatched_iff :
    (x.receive text).1 = .unmatched ↔
      ReplyFrame.WellFormed text ∧ ¬ ∃ id reply, x.Answers text id reply := by
  rcases x.receive_cases text with
    ⟨id, reply, answers, received⟩ | ⟨wellFormed, unawaited, received⟩ | ⟨formless, received⟩
  · refine iff_of_false ?_ fun ⟨_, unawaited⟩ => unawaited ⟨id, reply, answers⟩
    rw [received]
    cases reply <;> simp [Reply.isSuccess]
  · exact iff_of_true (by rw [received]) ⟨wellFormed, unawaited⟩
  · exact iff_of_false (by simp [received]) fun ⟨wellFormed, _⟩ => formless wellFormed

/-- A text that completes no request is dropped. -/
theorem receive_of_dropped
    (dropped : (x.receive text).1 = .malformed ∨ (x.receive text).1 = .unmatched) :
    (x.receive text).2 = x := by
  rcases x.receive_cases text with
    ⟨id, reply, answers, received⟩ | ⟨-, -, received⟩ | ⟨-, received⟩
  · rw [received] at dropped
    cases reply <;> simp [Reply.isSuccess] at dropped
  · rw [received]
  · rw [received]

end Receiving

theorem Coherent.completed (coherent : Coherent x) (pending : id ∈ x.pending.ids)
    (outcome : Outcome) : x.Completed (x.settle id (·.deliver outcome)) id outcome where
  ids := x.settle_ids id _
  rejectsOnClose := x.settle_rejectsOnClose id _
  closedFor := x.settle_closedFor id _
  wasPending := pending
  pending := x.settle_pending id _
  delivered := by
    obtain ⟨p, member, rfl⟩ := PendingTable.mem_ids.mp pending
    obtain ⟨box, vacant, located⟩ := coherent.housed p member
    refine ⟨p.ticket, fun _ => coherent.owner?_iff member, ?_, ?_⟩
    · intro held
      have waits : box = .waiting := vacant.resolve_right ((isHeld_iff located).mp held)
      rw [waits] at located
      have settled := coherent.settle_self (f := (·.deliver outcome)) located
      exact ⟨Mailroom.box_eq settled, finds_of_outcomeOf settled rfl⟩
    · intro letGo
      have discarded : x.mailroom.box p.ticket = .discarded := by
        rw [Mailroom.box_eq located]
        exact not_not.mp (mt (isHeld_iff located).mpr letGo)
      have found := PendingTable.find?_of_mem coherent.ascending member
      rw [settle_of_find? x p.id _ found]
      exact Mailroom.update_of_discarded discarded rfl
  others := by
    obtain ⟨p, member, rfl⟩ := PendingTable.mem_ids.mp pending
    intro ticket foreign
    have elsewhere : ticket ≠ p.ticket := mt (coherent.owner?_iff member).mpr foreign
    have found := PendingTable.find?_of_mem coherent.ascending member
    rw [settle_of_find? x p.id _ found]
    exact Mailroom.getElem?_update_of_ne _ elsewhere _

theorem Coherent.receive_completed (coherent : Coherent x) (answers : x.Answers text id reply) :
    (x.receive text).1 = (if reply.isSuccess then .resolved id else .rejected id) ∧
      x.Completed (x.receive text).2 id reply.outcome := by
  rw [receive_of_answers answers]
  exact ⟨rfl, coherent.completed answers.1 reply.outcome⟩

/-- Inbound frames are matched exactly. In every state that a run can reach, a text completes a request
if and only if it is the marker, the decimal of a pending identifier and a payload that reads as a
reply; that identifier is then the only one, and its request alone is completed. A text is malformed if
and only if it is no reply frame, and unmatched in all remaining cases, and in both it changes
nothing. -/
theorem frames_match_exactly (reachable : Reachable x) (text : String) :
    let result := (x.receive text).1
    let y := (x.receive text).2
    ((∃ id, result = .resolved id ∨ result = .rejected id) ↔ ∃ id reply, x.Answers text id reply) ∧
      (∀ id reply, x.Answers text id reply →
        ∀ other otherReply, x.Answers text other otherReply → other = id ∧ otherReply = reply) ∧
      (∀ id data, x.Answers text id (.success data) →
        result = .resolved id ∧ x.Completed y id (.ok data)) ∧
      (∀ id message, x.Answers text id (.failure message) →
        result = .rejected id ∧ x.Completed y id (.error (.remote message))) ∧
      (result = .malformed ↔ ¬ ReplyFrame.WellFormed text) ∧
      (result = .unmatched ↔
        ReplyFrame.WellFormed text ∧ ¬ ∃ id reply, x.Answers text id reply) ∧
      (result = .malformed ∨ result = .unmatched → y = x) := by
  intro result y
  have coherent := reachable.coherent
  refine ⟨receive_completes_iff, ?_, ?_, ?_, receive_eq_malformed_iff, receive_eq_unmatched_iff,
    receive_of_dropped⟩
  · intro id reply first other otherReply second
    exact first.unique second
  · intro id data answers
    exact coherent.receive_completed answers
  · intro id message answers
    exact coherent.receive_completed answers

/-- A run with two pending requests, a third one that was withdrawn, and a fourth whose holder let
go. -/
def twoAwaited : List Step :=
  [.dispatch 0 "GET" ["a"] {}, .dispatch 0 "GET" ["b"] {}, .dispatch 0 "GET" ["c"] {},
    .event (.cancel ⟨3⟩), .dispatch 0 "GET" ["d"] {}, .discard 3]

/-- The payload of a failure. -/
def refused : String := "\x7b\"status\":\"error\",\"message\":\"no\"\x7d"

theorem frames_match_exactly_twoAwaited :
    let x := (fresh .counter true).after twoAwaited
    Reachable x ∧ x.Answers ("ID 2 " ++ refused) ⟨2⟩ (.failure "no") ∧
      (x.receive ("ID 2 " ++ refused)).1 = .rejected ⟨2⟩ ∧
      x.Completed (x.receive ("ID 2 " ++ refused)).2 ⟨2⟩ (.error (.remote "no")) ∧
      (x.receive ("ID 3 " ++ refused)).1 = .unmatched ∧
      (x.receive ("ID 3 " ++ refused)).2 = x := by
  intro x
  have reachable : Reachable x := reachable_after .counter true (by decide)
  have read : Reply.read refused = .ok (.failure "no") := by cbv
  have answers : x.Answers ("ID 2 " ++ refused) ⟨2⟩ (.failure "no") :=
    ⟨by decide, refused, rfl, read⟩
  obtain ⟨-, -, -, rejects, -⟩ := frames_match_exactly reachable ("ID 2 " ++ refused)
  obtain ⟨brought, completed⟩ := rejects ⟨2⟩ "no" answers
  obtain ⟨-, -, -, -, -, -, dropped⟩ := frames_match_exactly reachable ("ID 3 " ++ refused)
  have unmatched : (x.receive ("ID 3 " ++ refused)).1 = .unmatched := by cbv
  exact ⟨reachable, answers, brought, completed, unmatched, dropped (Or.inr unmatched)⟩

end Exchange

end Switchboard
