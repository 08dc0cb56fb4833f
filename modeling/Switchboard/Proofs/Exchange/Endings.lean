import Switchboard.Proofs.Exchange.Answers

/-! # The first ending wins

A request is ended by the first happening that can end it: a frame with its identifier, its
withdrawal, the end of the connection if that rejects what is pending, or the refusal of its own
frame. Until then its holder finds nothing. Whoever looks first after it finds the outcome that it
brought, and no one finds that outcome again. What races for the request later, even before its
dispatch has returned, changes nothing.
-/

namespace Switchboard

namespace Happening

variable {id : RequestId} {rejectsOnClose : Bool} {h : Happening}

theorem ends_frame {text : String} :
    (event (.frame text)).ends id rejectsOnClose ↔
      ∃ reply, ReplyFrame.answer? text = some (id, reply) := by
  simp only [ReplyFrame.answer?_eq_some_iff, ends]
  cases decoded : ReplyFrame.decode text with
  | error problem => simp
  | ok frame =>
      obtain ⟨token, reply⟩ := frame
      simp

theorem leaves_of_not_ends (closedFor : Option String) (other : ¬ h.ends id rejectsOnClose) :
    h.leaves id rejectsOnClose closedFor = .waiting := by
  match h with
  | .event (.frame text) =>
      rw [leaves]
      cases answers : ReplyFrame.answer? text with
      | none => rfl
      | some answer =>
          obtain ⟨token, reply⟩ := answer
          refine if_neg ?_
          rintro rfl
          exact other (ends_frame.mpr ⟨reply, answers⟩)
  | .event (.cancel id') => exact if_neg (by simpa [ends] using other)
  | .event (.close reason) => exact if_neg other
  | .refusal id' failure => exact if_neg (by simpa [ends] using other)

theorem leaves_of_ends (closedFor : Option String) (first : h.ends id rejectsOnClose) :
    ∃ outcome, h.outcome? id (closedFor.or h.reason?) = some outcome ∧
      (h.leaves id rejectsOnClose closedFor).Shows id outcome := by
  match h with
  | .event (.frame text) =>
      obtain ⟨reply, answers⟩ := ends_frame.mp first
      refine ⟨reply.outcome, ?_, Or.inl ?_⟩
      · simp only [outcome?, ReplyFrame.answer?_eq_some_iff.mp answers]
      · simp only [leaves, answers, if_true]
  | .event (.cancel id') =>
      obtain rfl : id' = id := by simpa [ends] using first
      exact ⟨_, rfl, Or.inr ⟨if_pos rfl, rfl⟩⟩
  | .event (.close reason) =>
      refine ⟨.error (.disconnected (closedFor.getD reason)), ?_, Or.inl (if_pos first)⟩
      cases closedFor <;> rfl
  | .refusal id' failure =>
      obtain rfl : id' = id := by simpa [ends] using first
      exact ⟨_, rfl, Or.inl (if_pos rfl)⟩

/-- What a happening brought stays what it brought, for the first reason stays. -/
theorem outcome?_or {outcome : Outcome} {closedFor : Option String}
    (brought : h.outcome? id closedFor = some outcome) (later : Option String) :
    h.outcome? id (closedFor.or later) = some outcome := by
  match h with
  | .event (.close reason) =>
      cases closedFor with
      | none => simp [outcome?] at brought
      | some first => exact brought
  | .event (.frame text) | .event (.cancel id') | .refusal id' failure => exact brought

end Happening

theorem firstReason_append (first second : List Happening) :
    firstReason (first ++ second) = (firstReason first).or (firstReason second) :=
  List.findSome?_append

namespace Exchange

variable {x y : Exchange} {ticket : Ticket} {id : RequestId}

theorem undergo_closedFor (x : Exchange) (h : Happening) :
    (x.undergo h).closedFor = x.closedFor.or h.reason? := by
  match h with
  | .event (.close reason) =>
      rw [undergo_close, close_closedFor]
      cases x.closedFor <;> rfl
  | .event (.cancel id) => simp [undergo_cancel, Happening.reason?]
  | .refusal id failure => simp [undergo_refusal, Happening.reason?]
  | .event (.frame text) =>
      simp only [Happening.reason?, Option.or_none]
      cases answers : ReplyFrame.answer? text with
      | none => rw [undergo_frame_of_none answers]
      | some answer => rw [undergo_frame answers, settle_closedFor]

theorem undergoAll_closedFor (hs : List Happening) :
    (x.undergoAll hs).closedFor = x.closedFor.or (firstReason hs) := by
  induction hs generalizing x with
  | nil => rw [undergoAll_nil, firstReason, List.findSome?_nil, Option.or_none]
  | cons h rest ih =>
      rw [undergoAll_cons, ih, undergo_closedFor, Option.or_assoc, ← List.singleton_append,
        firstReason_append]
      cases brings : h.reason? <;> simp [firstReason, brings]

theorem after_closedFor (steps : List Step) :
    (x.after steps).closedFor = x.closedFor.or (firstReason (x.history steps)) := by
  induction steps generalizing x with
  | nil => rw [after_nil, history, firstReason, List.findSome?_nil, Option.or_none]
  | cons s rest ih =>
      rw [after_cons, ih, step_snd, undergoAll_closedFor, enter_closedFor, history, step_snd,
        firstReason_append, Option.or_assoc]

/-- How a request stands after what has happened since it was sent, and how its mailbox does, where
someone may have looked since the request was ended. -/
def Standing (x : Exchange) (ticket : Ticket) (id : RequestId) (since : List Happening)
    (looked : Prop) : Prop :=
  match since.find? (·.ends id x.rejectsOnClose) with
  | none => ¬ looked ∧ x.mailroom.boxes[ticket]? = some (id, .waiting)
  | some ending => ∃ outcome box, ending.outcome? id x.closedFor = some outcome ∧
      x.mailroom.boxes[ticket]? = some (id, box) ∧
      (looked → box = .spent) ∧ (¬ looked → box.Shows id outcome)

namespace Standing

variable {since : List Happening} {looked : Prop}

theorem undergo (standing : x.Standing ticket id since looked) (coherent : Coherent x)
    (h : Happening) : (x.undergo h).Standing ticket id (since ++ [h]) looked := by
  rw [Standing, undergo_rejectsOnClose, List.find?_append]
  rw [Standing] at standing
  cases found : since.find? (·.ends id x.rejectsOnClose) with
  | none =>
      rw [found] at standing
      obtain ⟨unseen, located⟩ := standing
      have left := coherent.undergo_waiting located h
      by_cases first : h.ends id x.rejectsOnClose
      · obtain ⟨outcome, brought, shows_⟩ := Happening.leaves_of_ends x.closedFor first
        rw [← undergo_closedFor] at brought
        simp only [Option.none_or, List.find?_singleton, first, if_true]
        exact ⟨outcome, _, brought, left, fun seen => absurd seen unseen, fun _ => shows_⟩
      · rw [Happening.leaves_of_not_ends x.closedFor first] at left
        simp only [Option.none_or, List.find?_singleton, first]
        exact ⟨unseen, left⟩
  | some ending =>
      rw [found] at standing
      obtain ⟨outcome, box, brought, located, spent, shows_⟩ := standing
      have settled : box ≠ .waiting := by
        by_cases seen : looked
        · rw [spent seen]
          simp
        · exact (shows_ seen).ne_waiting
      refine ⟨outcome, box, ?_, coherent.undergo_settled settled located h, spent, shows_⟩
      rw [undergo_closedFor]
      exact Happening.outcome?_or brought _

theorem undergoAll (standing : x.Standing ticket id since looked) (coherent : Coherent x)
    (hs : List Happening) : (x.undergoAll hs).Standing ticket id (since ++ hs) looked := by
  induction hs generalizing x since with
  | nil => simpa using standing
  | cons h rest ih =>
      rw [undergoAll_cons, List.append_cons]
      exact ih (standing.undergo coherent h) (coherent.undergo h)

theorem enter (standing : x.Standing ticket id since looked) {s : Step}
    (elsewhere : s.ticket? ≠ some ticket) : (x.enter s).Standing ticket id since looked := by
  rw [Standing] at standing ⊢
  rw [enter_rejectsOnClose, enter_closedFor]
  cases found : since.find? (·.ends id x.rejectsOnClose) with
  | none =>
      rw [found] at standing
      exact ⟨standing.1, enter_located elsewhere standing.2⟩
  | some ending =>
      rw [found] at standing
      obtain ⟨outcome, box, brought, located, spent, shows_⟩ := standing
      exact ⟨outcome, box, brought, enter_located elsewhere located, spent, shows_⟩

/-- A look into the mailbox of a request that was ended takes out what it shows. -/
theorem look (standing : x.Standing ticket id since looked) :
    (x.touch ticket Mailbox.emptied).Standing ticket id since
      (looked ∨ (since.find? (·.ends id x.rejectsOnClose)).isSome) := by
  rw [Standing] at standing ⊢
  simp only [touch, Mailroom.getElem?_update_self]
  cases found : since.find? (·.ends id x.rejectsOnClose) with
  | none =>
      rw [found] at standing
      obtain ⟨unseen, located⟩ := standing
      simp [unseen, located, Mailbox.emptied]
  | some ending =>
      rw [found] at standing
      obtain ⟨outcome, box, brought, located, spent, shows_⟩ := standing
      refine ⟨outcome, box.emptied, brought, by rw [located, Option.map_some], ?_, ?_⟩
      · intro _
        by_cases seen : looked
        · rw [spent seen]
          rfl
        · rcases shows_ seen with rfl | ⟨rfl, -⟩ <;> rfl
      · intro unseen
        exact absurd (Or.inr rfl) unseen

end Standing

/-- In a run someone looks into a mailbox after something has come to hold of what happened. -/
def LooksAfter (x : Exchange) (ticket : Ticket) (holds : List Happening → Prop)
    (steps : List Step) : Prop :=
  ∃ first s rest, steps = first ++ s :: rest ∧ s.ticket? = some ticket ∧ holds (x.history first)

theorem looksAfter_nil (holds : List Happening → Prop) : ¬ x.LooksAfter ticket holds [] := by
  rintro ⟨first, s, rest, split, -⟩
  simp at split

theorem looksAfter_append_singleton (holds : List Happening → Prop) (steps : List Step) (s : Step) :
    x.LooksAfter ticket holds (steps ++ [s]) ↔
      x.LooksAfter ticket holds steps ∨ s.ticket? = some ticket ∧ holds (x.history steps) := by
  constructor
  · rintro ⟨first, t, rest, split, looks, held⟩
    rcases List.eq_nil_or_concat rest with rfl | ⟨rest, last, rfl⟩
    · obtain ⟨rfl, same⟩ := List.append_inj' split rfl
      obtain rfl := List.singleton_inj.mp same
      exact Or.inr ⟨looks, held⟩
    · rw [List.concat_eq_append, ← List.cons_append, ← List.append_assoc] at split
      obtain ⟨rfl, -⟩ := List.append_inj' split rfl
      exact Or.inl ⟨first, t, rest, rfl, looks, held⟩
  · rintro (⟨first, t, rest, rfl, looks, held⟩ | ⟨looks, held⟩)
    · exact ⟨first, t, rest ++ [s], by simp, looks, held⟩
    · exact ⟨steps, s, [], rfl, looks, held⟩

/-- How a request stands after a run in which its holder keeps the handle. The induction is on the
last step, since what was looked for before it depends on all that happened so far. -/
theorem Standing.after {done : List Happening} (standing : x.Standing ticket id done False)
    (coherent : Coherent x) {steps : List Step} (numbered : x.Along Numbered steps)
    (kept : ∀ s ∈ steps, s ≠ .wait ticket ∧ s ≠ .discard ticket) :
    (x.after steps).Standing ticket id (done ++ x.history steps)
      (x.LooksAfter ticket
        (fun hs => ((done ++ hs).find? (·.ends id x.rejectsOnClose)).isSome) steps) := by
  induction steps using List.reverseRecOn with
  | nil => simpa only [after_nil, history, List.append_nil, looksAfter_nil] using standing
  | append_singleton steps s ih =>
      obtain ⟨before, last, -⟩ := along_append.mp numbered
      have reached := ih before fun t member => kept t (List.mem_append_left _ member)
      have coherentThere := coherent.after before
      rw [after_append, after_cons, after_nil, step_snd, history_append, history, history,
        List.append_nil, looksAfter_append_singleton, ← List.append_assoc]
      by_cases looks : s.ticket? = some ticket
      · have keeps := kept s (List.mem_append_right _ List.mem_cons_self)
        rw [happenings_of_ticket? _ looks, enter_of_ticket? _ looks keeps, undergoAll_nil,
          List.append_nil]
        have looked := reached.look
        rw [after_rejectsOnClose] at looked
        simpa only [looks, true_and] using looked
      · have entered := reached.enter looks
        simpa only [looks, false_and, or_false] using
          entered.undergoAll (coherentThere.enter last) ((x.after steps).happenings s)

/-- A request that was sent has met what happened while its frame was handed over. -/
theorem standing_dispatch (coherent : Coherent x) (isOpen : x.closedFor = none)
    (room : x.ids.HasNext) (now : UInt64) (verb : String) (arguments : List String)
    (handover : Handover) :
    (x.dispatch now verb arguments handover).2.Standing x.mailroom.nextTicket (x.ids.peek now)
      (handover.happenings (x.ids.peek now)) False := by
  have issued : (x.issue now verb).2.Standing x.mailroom.nextTicket (x.ids.peek now) [] False :=
    ⟨not_false, Mailroom.getElem?_open_nextTicket _ _ _⟩
  rw [dispatch_snd_of_open isOpen]
  exact issued.undergoAll (coherent.issue isOpen room now verb) _

/-- The first ending wins and is seen exactly once. Take a run in which a request is sent while the
connection is there, and whose holder keeps the handle. Until something ends the request its holder
finds nothing. After that, whoever looks first finds what the first ending brought, and whoever looks
later finds the handle used up. -/
theorem first_ending_wins (strategy : IdStrategy) (rejectsOnClose : Bool) (before later : List Step)
    (now : UInt64) (verb : String) (arguments : List String) (handover : Handover) {d : Dispatched}
    {y : Exchange}
    (numbered : (fresh strategy rejectsOnClose).Along Numbered
      (before ++ .dispatch now verb arguments handover :: later))
    (isOpen : ((fresh strategy rejectsOnClose).after before).closedFor = none)
    (returned : ((fresh strategy rejectsOnClose).after before).dispatch now verb arguments handover =
      (d, y))
    (kept : ∀ s ∈ later, s ≠ .wait d.ticket ∧ s ≠ .discard d.ticket) :
    let firstEnding hs :=
      (handover.happenings d.id ++ hs).find? (Happening.ends d.id rejectsOnClose)
    let reason := firstReason ((fresh strategy rejectsOnClose).history
      (before ++ .dispatch now verb arguments handover :: later))
    match firstEnding (y.history later) with
    | none => (y.after later).FindsNothing d.ticket d.id
    | some ending => ∃ outcome, ending.outcome? d.id reason = some outcome ∧
        (¬ y.LooksAfter d.ticket (fun hs => (firstEnding hs).isSome) later →
          (y.after later).Finds d.ticket outcome) ∧
        (y.LooksAfter d.ticket (fun hs => (firstEnding hs).isSome) later →
          (y.after later).Finds d.ticket (.error (.abandoned d.id))) := by
  intro firstEnding reason
  obtain ⟨earlier, room, rest⟩ := along_append.mp numbered
  have coherent := (Coherent.fresh strategy rejectsOnClose).after earlier
  have moved : (((fresh strategy rejectsOnClose).after before).step
      (.dispatch now verb arguments handover)).2 = y := congrArg Prod.snd returned
  have whole : (fresh strategy rejectsOnClose).after
      (before ++ .dispatch now verb arguments handover :: later) = y.after later := by
    rw [after_append, after_cons, moved]
  have policy : (y.after later).rejectsOnClose = rejectsOnClose := by
    rw [← whole, after_rejectsOnClose]
    rfl
  have gone : (y.after later).closedFor = reason := by
    rw [← whole, after_closedFor]
    exact Option.none_or
  obtain ⟨named, placed⟩ := dispatch_fst_of_open isOpen now verb arguments handover
  have standing := standing_dispatch coherent isOpen room now verb arguments handover
  rw [returned] at named placed standing
  rw [← named, ← placed] at standing
  rw [moved] at rest
  have coherentThere : Coherent y := moved ▸ coherent.step room
  have final := standing.after coherentThere rest kept
  rw [after_rejectsOnClose] at policy
  rw [Standing, after_rejectsOnClose, policy, gone] at final
  cases found : firstEnding (y.history later) with
  | none =>
      simp only [firstEnding] at found
      rw [found] at final
      exact findsNothing_of_waiting final.2
  | some ending =>
      simp only [firstEnding] at found
      rw [found] at final
      obtain ⟨outcome, box, brought, located, spent, shows_⟩ := final
      refine ⟨outcome, brought, ?_, ?_⟩
      · intro unseen
        rcases shows_ unseen with rfl | ⟨rfl, rfl⟩
        · exact finds_of_outcomeOf located rfl
        · exact finds_of_outcomeOf located rfl
      · intro seen
        rw [spent seen] at located
        exact finds_of_outcomeOf located rfl

/-- While the frame is handed over the connection ends and the caller withdraws the request, and then
the transport refuses the frame. -/
def racedInside : Handover :=
  { meanwhile := [.close "over", .cancel ⟨2⟩], failure := some (.network "gone") }

theorem first_ending_wins_racedInside :
    let x := (fresh .counter true).after [.dispatch 0 "GET" ["a"] {}]
    let sent := x.dispatch 0 "GET" ["b"] racedInside
    let later := [.poll 0, .event (.close "again")]
    (fresh .counter true).Along Numbered
        ([.dispatch 0 "GET" ["a"] {}] ++ .dispatch 0 "GET" ["b"] racedInside :: later) ∧
      x.closedFor = none ∧ (∀ s ∈ later, s ≠ .wait sent.1.ticket ∧ s ≠ .discard sent.1.ticket) ∧
      (sent.2.after later).Finds sent.1.ticket (.error (.disconnected "over")) := by
  intro x sent later
  have numbered : (fresh .counter true).Along Numbered
      ([.dispatch 0 "GET" ["a"] {}] ++ .dispatch 0 "GET" ["b"] racedInside :: later) := by
    decide
  have kept : ∀ s ∈ later, s ≠ .wait sent.1.ticket ∧ s ≠ .discard sent.1.ticket := by
    simp [later]
  have unseen : ∀ holds, ¬ sent.2.LooksAfter sent.1.ticket holds later := by
    rintro holds ⟨first, s, rest, split, looks, -⟩
    have member : s ∈ later := by simp [split]
    have second : sent.1.ticket = 1 := rfl
    rw [second] at looks
    rcases List.mem_pair.mp member with rfl | rfl <;> simp [Step.ticket?] at looks
  have wins := first_ending_wins .counter true [.dispatch 0 "GET" ["a"] {}] later 0 "GET" ["b"]
    racedInside numbered rfl rfl kept
  obtain ⟨outcome, brought, finds, -⟩ := wins
  cases brought
  exact ⟨numbered, rfl, kept, finds (unseen _)⟩

end Exchange

end Switchboard
