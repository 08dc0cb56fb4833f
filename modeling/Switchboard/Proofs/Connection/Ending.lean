import Switchboard.Proofs.Connection.Outbound

/-! # The end of a connection answers everyone

A request is answered by the first line that comes in with a reply to it. If none does, the end of the
connection answers it, whichever side ends the connection first, or if it breaks. After that nothing
changes any more, and every request that is sent later is turned away for the same reason.
-/

namespace Switchboard

/-- The reply that a frame brings a request, if it is one to it. -/
def ReplyFrame.replyTo? (id : RequestId) (text : String) : Option Reply :=
  match decode text with
  | .ok (token, reply) => if token = id.token then some reply else none
  | .error _ => none

theorem ReplyFrame.replyTo?_eq_some_iff {id : RequestId} {text : String} {reply : Reply} :
    replyTo? id text = some reply ↔ answer? text = some (id, reply) := by
  rw [answer?_eq_some_iff, replyTo?]
  cases decode text with
  | error problem => simp
  | ok frame =>
      obtain ⟨token, found⟩ := frame
      simp [and_comm]

theorem ReplyFrame.leaves_frame (id : RequestId) (rejectsOnClose : Bool) (closedFor : Option String)
    (text : String) :
    (Happening.event (.frame text)).leaves id rejectsOnClose closedFor =
      match replyTo? id text with
      | some reply => .holding reply.outcome
      | none => .waiting := by
  cases found : replyTo? id text with
  | some reply => simp [Happening.leaves, replyTo?_eq_some_iff.mp found]
  | none =>
      apply Happening.leaves_of_not_ends
      rw [Happening.ends_frame]
      rintro ⟨reply, answers⟩
      rw [replyTo?_eq_some_iff.mpr answers] at found
      contradiction

namespace Connection

open Exchange (Coherent)
open Lines (OneLine)

/-- The first reply to a request among the frames that come in. -/
def firstReply (id : RequestId) (frames : List String) : Option Reply :=
  frames.findSome? (ReplyFrame.replyTo? id)

/-- The bytes that the peer sends in a run. -/
def bytesServed (steps : List Step) : List UInt8 :=
  steps.flatMap fun
    | .serve bytes => bytes
    | _ => []

/-- What becomes of a mailbox that waits while frames come in and the connection may end. -/
def fate (reply : Option Reply) (reason : Option String) : Mailbox :=
  match reply, reason with
  | some reply, _ => .holding reply.outcome
  | none, some reason => .holding (.error (.disconnected reason))
  | none, none => .waiting

variable {c : Connection} {x : Exchange} {ticket : Ticket} {id : RequestId} {steps : List Step}

section Waiting

theorem receiveAll_coherent (coherent : Coherent x) (frames : List String) :
    Coherent (receiveAll x frames) := by
  induction frames generalizing x with
  | nil => exact coherent
  | cons frame frames ih => exact ih (coherent.undergo (.event (.frame frame)))

theorem receiveAll_settled (coherent : Coherent x) {box : Mailbox} (settled : box ≠ .waiting)
    (located : x.mailroom.boxes[ticket]? = some (id, box)) (frames : List String) :
    (receiveAll x frames).mailroom.boxes[ticket]? = some (id, box) := by
  induction frames generalizing x with
  | nil => exact located
  | cons frame frames ih =>
      exact ih (coherent.undergo (.event (.frame frame)))
        (coherent.undergo_settled settled located (.event (.frame frame)))

theorem receiveAll_waiting (coherent : Coherent x)
    (located : x.mailroom.boxes[ticket]? = some (id, .waiting)) (frames : List String) :
    (receiveAll x frames).mailroom.boxes[ticket]? = some (id, fate (firstReply id frames) none) := by
  induction frames generalizing x with
  | nil => exact located
  | cons frame frames ih =>
      have kept := coherent.undergo (.event (.frame frame))
      have left := coherent.undergo_waiting located (.event (.frame frame))
      rw [ReplyFrame.leaves_frame] at left
      rw [firstReply, List.findSome?_cons]
      cases found : ReplyFrame.replyTo? id frame with
      | some reply =>
          rw [found] at left
          exact receiveAll_settled kept (by simp) left frames
      | none =>
          rw [found] at left
          exact ih kept left

theorem close_settled (coherent : Coherent x) {box : Mailbox} (settled : box ≠ .waiting)
    (located : x.mailroom.boxes[ticket]? = some (id, box)) (reason : String) :
    (x.close reason).2.mailroom.boxes[ticket]? = some (id, box) :=
  coherent.undergo_settled settled located (.event (.close reason))

theorem close_waiting (coherent : Coherent x) (rejects : x.rejectsOnClose) (isOpen : x.closedFor = none)
    (located : x.mailroom.boxes[ticket]? = some (id, .waiting)) (reason : String) :
    (x.close reason).2.mailroom.boxes[ticket]? =
      some (id, .holding (.error (.disconnected reason))) := by
  have left := coherent.undergo_waiting located (.event (.close reason))
  rwa [Happening.leaves, if_pos rejects, isOpen] at left

theorem hangUp_waiting (sound : Sound c) (rejects : c.exchange.rejectsOnClose)
    (isOpen : c.exchange.closedFor = none)
    (located : c.exchange.mailroom.boxes[ticket]? = some (id, .waiting)) :
    c.endOfStream.exchange.mailroom.boxes[ticket]? =
      some (id, fate (firstReply id (c.hears .hangUp)) (some serverClosed)) := by
  have listening : c.listening := by
    rw [sound.listening, isOpen]
    rfl
  have heard := receiveAll_waiting sound.coherent located c.buffer.flush
  have kept := receiveAll_coherent sound.coherent c.buffer.flush
  rw [hears, if_pos listening, endOfStream, if_pos listening]
  cases found : firstReply id c.buffer.flush with
  | some reply =>
      rw [found] at heard
      exact close_settled kept (by simp [fate]) heard serverClosed
  | none =>
      rw [found] at heard
      refine close_waiting kept ?_ ?_ heard serverClosed
      · rwa [receiveAll_eq_after, Exchange.after_rejectsOnClose]
      · rw [receiveAll_closedFor, isOpen]

theorem shutDown_waiting (coherent : Coherent c.exchange) (rejects : c.exchange.rejectsOnClose)
    (isOpen : c.exchange.closedFor = none)
    (located : c.exchange.mailroom.boxes[ticket]? = some (id, .waiting)) :
    c.shutdown.exchange.mailroom.boxes[ticket]? =
      some (id, .holding (.error (.disconnected shutDown))) := by
  have closed := close_waiting coherent rejects isOpen located shutDown
  have kept := coherent.undergo (.event (.close shutDown))
  rw [shutdown, endOfStream]
  split
  · exact close_settled (receiveAll_coherent kept _) (by simp)
      (receiveAll_settled kept (by simp) closed _) serverClosed
  · exact closed

theorem breakOff_waiting (coherent : Coherent c.exchange) (rejects : c.exchange.rejectsOnClose)
    (isOpen : c.exchange.closedFor = none) (listening : c.listening)
    (located : c.exchange.mailroom.boxes[ticket]? = some (id, .waiting)) (reason : String) :
    (c.breakOff reason).exchange.mailroom.boxes[ticket]? =
      some (id, .holding (.error (.disconnected reason))) := by
  rw [breakOff, if_pos listening]
  exact close_waiting coherent rejects isOpen located reason

theorem dispatch_waiting (sound : Sound c) (isOpen : c.exchange.closedFor = none) {now : UInt64}
    {verb : String} {arguments : List String} (fault : Option WriteFault)
    (room : c.exchange.ids.HasNext)
    (located : c.exchange.mailroom.boxes[ticket]? = some (id, .waiting)) :
    (c.dispatch now verb arguments fault).2.exchange.mailroom.boxes[ticket]? = some (id, .waiting) := by
  by_cases fits : OneLine (requestFrame (c.exchange.ids.peek now) verb arguments)
  · cases fault with
    | none =>
        rw [dispatch_of_oneLine isOpen fits]
        exact c.exchange.mailroom.getElem?_open_of_some located _ _
    | some fault =>
        rw [dispatch_of_fault sound.coherent isOpen room fits]
        exact c.exchange.mailroom.getElem?_open_of_some located _ _
  · rw [dispatch_of_not_oneLine sound.coherent isOpen room fits]
    exact c.exchange.mailroom.getElem?_open_of_some located _ _

/-- A step of the open connection brings a request that waits its reply, or the end, or neither. -/
theorem step_waiting (sound : Sound c) (rejects : c.exchange.rejectsOnClose)
    (isOpen : c.exchange.closedFor = none) {s : Step} (numbered : c.Numbered s)
    (elsewhere : s.ticket? ≠ some ticket)
    (located : c.exchange.mailroom.boxes[ticket]? = some (id, .waiting)) :
    (c.step s).2.exchange.mailroom.boxes[ticket]? =
      some (id, fate (firstReply id (c.hears s)) s.reason?) := by
  have listening : c.listening := by
    rw [sound.listening, isOpen]
    rfl
  cases s with
  | dispatch now verb arguments fault => exact dispatch_waiting sound isOpen fault numbered located
  | look other look =>
      rw [look_exchange]
      apply Exchange.enter_located _ located
      cases look <;> exact elsewhere
  | serve bytes =>
      rw [hears, if_pos listening]
      change (c.receive bytes).exchange.mailroom.boxes[ticket]? = _
      rw [receive_listening listening]
      exact receiveAll_waiting sound.coherent located _
  | hangUp => exact hangUp_waiting sound rejects isOpen located
  | shutDown => exact shutDown_waiting sound.coherent rejects isOpen located
  | breakOff reason => exact breakOff_waiting sound.coherent rejects isOpen listening located reason

theorem heard_of_silent (silent : c.listening = false) (steps : List Step) : c.heard steps = [] := by
  induction steps generalizing c with
  | nil => rfl
  | cons s rest ih =>
      have still : (c.step s).2.listening = false := by rw [step_listening, silent, Bool.false_and]
      rw [heard, ih still, List.append_nil]
      cases s <;> simp [hears, silent]

/-- How a request fares in a run in which no one looks for its outcome. -/
theorem after_waiting (sound : Sound c) (rejects : c.exchange.rejectsOnClose)
    (isOpen : c.exchange.closedFor = none) (along : c.Along steps)
    (unread : ∀ s ∈ steps, s.ticket? ≠ some ticket)
    (located : c.exchange.mailroom.boxes[ticket]? = some (id, .waiting)) :
    (c.after steps).exchange.mailroom.boxes[ticket]? =
      some (id, fate (firstReply id (c.heard steps)) (firstEnd steps)) := by
  induction steps generalizing c with
  | nil => exact located
  | cons s rest ih =>
      obtain ⟨first, later⟩ := List.forall_mem_cons.mp unread
      have stepped := step_waiting sound rejects isOpen along.1 first located
      have kept := sound.step along.1
      have heard : firstReply id (c.heard (s :: rest)) =
          (firstReply id (c.hears s)).or (firstReply id ((c.step s).2.heard rest)) :=
        List.findSome?_append
      rw [after_cons, heard, firstEnd, List.findSome?_cons]
      cases replied : firstReply id (c.hears s) with
      | some reply =>
          rw [replied] at stepped
          exact kept.after_settled along.2 later (by simp [fate]) stepped
      | none =>
          rw [replied] at stepped
          cases ends : s.reason? with
          | some reason =>
              have silent : (c.step s).2.listening = false := by rw [step_listening, ends]; simp
              rw [ends] at stepped
              rw [heard_of_silent silent]
              exact kept.after_settled along.2 later (by simp [fate, firstReply]) stepped
          | none =>
              rw [ends] at stepped
              have still : (c.step s).2.exchange.closedFor = none := by
                rw [sound.step_closedFor, isOpen, ends]
                rfl
              have policy : (c.step s).2.exchange.rejectsOnClose := by
                rwa [step_exchange, Exchange.after_rejectsOnClose]
              exact ih kept policy still along.2 later stepped

end Waiting

section Hearing

theorem step_buffer (c : Connection) {s : Step} (lasts : s.reason? = none) (listening : c.listening) :
    c.hears s = (c.buffer.feed (bytesServed [s])).1 ∧
      (c.step s).2.buffer = (c.buffer.feed (bytesServed [s])).2 := by
  cases s with
  | dispatch now verb arguments fault =>
      exact ⟨rfl, (c.dispatch_inbound now verb arguments fault).1⟩
  | look => exact ⟨rfl, rfl⟩
  | serve bytes =>
      simp [hears, listening, bytesServed, step, receive_listening listening]
  | hangUp | shutDown | breakOff => contradiction

/-- Until the connection ends, what is heard is what the lines of the bytes served say. -/
theorem heard_eq_feed (listening : c.listening) (lasts : firstEnd steps = none) :
    c.heard steps = (c.buffer.feed (bytesServed steps)).1 ∧
      (c.after steps).buffer = (c.buffer.feed (bytesServed steps)).2 ∧ (c.after steps).listening := by
  induction steps generalizing c with
  | nil => exact ⟨rfl, rfl, listening⟩
  | cons s rest ih =>
      obtain ⟨first, later⟩ := List.forall_mem_cons.mp (List.findSome?_eq_none_iff.mp lasts)
      have still : (c.step s).2.listening := by rw [step_listening, first, listening]; rfl
      obtain ⟨here, moved⟩ := c.step_buffer first listening
      obtain ⟨heard, buffer, lasting⟩ := ih still (List.findSome?_eq_none_iff.mpr later)
      have split : bytesServed (s :: rest) = bytesServed [s] ++ bytesServed rest := by
        simp [bytesServed]
      rw [Connection.heard, here, heard, after_cons, buffer, moved, split, Lines.Buffer.feed_append]
      exact ⟨rfl, rfl, lasting⟩

end Hearing

section Quiet

theorem endOfStream_of_silent (silent : c.listening = false) : c.endOfStream = c := by
  rw [endOfStream, if_neg (by simp [silent])]

theorem breakOff_of_silent (silent : c.listening = false) (reason : String) : c.breakOff reason = c := by
  rw [breakOff, if_neg (by simp [silent])]

/-- Once a connection has ended, ending it again changes nothing. -/
theorem step_of_ended (sound : Sound c) (rejects : c.exchange.rejectsOnClose)
    (gone : c.exchange.closedFor.isSome) {s : Step} (ends : s.reason?.isSome) : (c.step s).2 = c := by
  have silent : c.listening = false := by
    rw [sound.listening]
    simpa using gone
  cases s with
  | dispatch | look | serve => contradiction
  | hangUp => exact endOfStream_of_silent silent
  | shutDown =>
      have closed := sound.drained.close rejects gone Connection.shutDown
      change c.shutdown = c
      rw [shutdown, closed]
      exact endOfStream_of_silent silent
  | breakOff reason => exact breakOff_of_silent silent reason

end Quiet

/-- A connection that has ended owes no one an answer. -/
structure Answered (c : Connection) (steps : List Step) : Prop where
  /-- It is gone for the reason of whichever end came first, and nothing is pending. -/
  closed : (c.after steps).exchange.closedFor = firstEnd steps ∧
    (c.after steps).exchange.pending.ids = []
  /-- Whoever still holds a request finds its outcome without waiting. -/
  available : ∀ ticket id, (c.after steps).exchange.mailroom.owner? ticket = some id →
    (c.after steps).exchange.isHeld ticket → ∃ outcome, (c.after steps).exchange.Finds ticket outcome
  /-- A request that went out comes to the first reply to it among the frames that come in later, and
  without one to the end of the connection. -/
  decided : ∀ before now verb arguments later,
      steps = before ++ .dispatch now verb arguments none :: later →
    let sent := (c.after before).dispatch now verb arguments
    firstEnd before = none → OneLine (requestFrame sent.1.id verb arguments) →
      (∀ s ∈ later, s.ticket? ≠ some sent.1.ticket) →
      c.heard steps = c.heard before ++ sent.2.heard later ∧
        (∀ reply, firstReply sent.1.id (sent.2.heard later) = some reply →
          (c.after steps).exchange.Finds sent.1.ticket reply.outcome) ∧
        (firstReply sent.1.id (sent.2.heard later) = none → ∃ reason, firstEnd steps = some reason ∧
          (c.after steps).exchange.Finds sent.1.ticket (.error (.disconnected reason)))
  /-- A request whose frame the system does not take comes to what it says. -/
  unwritten : ∀ before now verb arguments fault later,
      steps = before ++ .dispatch now verb arguments (some fault) :: later →
    let sent := (c.after before).dispatch now verb arguments (some fault)
    firstEnd before = none → OneLine (requestFrame sent.1.id verb arguments) →
      (∀ s ∈ later, s.ticket? ≠ some sent.1.ticket) →
      (c.after steps).exchange.Finds sent.1.ticket (.error (.io fault.text))
  /-- A request that comes after the end is told of it. -/
  turnedAway : ∀ before now verb arguments fault later reason,
      steps = before ++ .dispatch now verb arguments fault :: later → firstEnd before = some reason →
    let sent := (c.after before).dispatch now verb arguments fault
    (∀ s ∈ later, s.ticket? ≠ some sent.1.ticket) →
      (c.after steps).exchange.Finds sent.1.ticket (.error (.disconnected reason))
  /-- The frames that come in are those of the lines that have ended before the connection does. Only
  if it is the peer who ends it, the last line counts too. -/
  heard : ∀ before e later, steps = before ++ e :: later → firstEnd before = none → e.reason?.isSome →
    ∃ ended rest, Lines.AreLines (bytesServed before) ended rest ∧
      c.heard steps =
        (match e with
          | .hangUp => ended ++ [rest]
          | _ => ended).filterMap Lines.frame?
  /-- To end it again changes nothing. -/
  settled : ∀ s : Step, s.reason?.isSome → ((c.after steps).step s).2 = c.after steps

theorem heard_until_end (config : Config) {before later : List Step} {e : Step}
    (lasts : firstEnd before = none) (ends : e.reason?.isSome) :
    ∃ ended rest, Lines.AreLines (bytesServed before) ended rest ∧
      (fresh config).heard (before ++ e :: later) =
        (match e with
          | .hangUp => ended ++ [rest]
          | _ => ended).filterMap Lines.frame? := by
  obtain ⟨ended, rest, lines⟩ := Lines.exists_areLines (bytesServed before)
  obtain ⟨heard, buffer, listening⟩ := heard_eq_feed (c := fresh config) rfl lasts
  have fed : Lines.Buffer.feed (fresh config).buffer (bytesServed before) =
      (ended.filterMap Lines.frame?, ⟨rest.reverse⟩) := Lines.Buffer.feed_lines lines
  rw [fed] at heard buffer
  have silent : (((fresh config).after before).step e).2.listening = false := by
    rw [step_listening, Option.isNone_eq_false_iff.mpr ends, Bool.and_false]
  refine ⟨ended, rest, lines, ?_⟩
  rw [heard_append, Connection.heard, heard_of_silent silent, List.append_nil, heard]
  cases e with
  | dispatch | look | serve => contradiction
  | shutDown | breakOff => exact List.append_nil _
  | hangUp =>
      rw [hears, if_pos listening, buffer, Lines.Buffer.flush, List.reverse_reverse,
        List.filterMap_append]
      cases found : Lines.frame? rest <;> simp [found]

theorem dispatch_id (c : Connection) (now : UInt64) (verb : String) (arguments : List String)
    (fault : Option WriteFault) :
    (c.dispatch now verb arguments fault).1.id = c.exchange.ids.peek now := by
  rw [(c.dispatch_exchange now verb arguments fault).1]
  simp only [Exchange.dispatch]
  cases c.exchange.closedFor <;> rfl

section Sending

variable {now : UInt64} {verb : String} {arguments : List String} {sent : Dispatched × Connection}
  {later : List Step}

/-- The mailbox of a request that goes out has the fate of every mailbox that waits. -/
theorem after_dispatch (sound : Sound c) (rejects : c.exchange.rejectsOnClose)
    (isOpen : c.exchange.closedFor = none) (room : c.exchange.ids.HasNext)
    (sends : c.dispatch now verb arguments = sent)
    (fits : OneLine (requestFrame sent.1.id verb arguments)) (along : sent.2.Along later)
    (unread : ∀ s ∈ later, s.ticket? ≠ some sent.1.ticket) :
    (sent.2.after later).exchange.mailroom.boxes[sent.1.ticket]? =
      some (sent.1.id, fate (firstReply sent.1.id (sent.2.heard later)) (firstEnd later)) := by
  subst sends
  have kept : Sound (c.dispatch now verb arguments).2 :=
    sound.step (s := .dispatch now verb arguments) room
  refine after_waiting kept ?_ ?_ along unread ?_
  · exact (after_rejectsOnClose c [.dispatch now verb arguments]).trans rejects
  · exact (c.dispatch_closedFor now verb arguments none).trans isOpen
  · rw [dispatch_id] at fits
    rw [dispatch_of_oneLine isOpen fits]
    exact c.exchange.mailroom.getElem?_open_nextTicket _ _

theorem finds_of_fault (sound : Sound c) (isOpen : c.exchange.closedFor = none)
    (room : c.exchange.ids.HasNext) {fault : WriteFault}
    (sends : c.dispatch now verb arguments (some fault) = sent)
    (fits : OneLine (requestFrame sent.1.id verb arguments)) (along : sent.2.Along later)
    (unread : ∀ s ∈ later, s.ticket? ≠ some sent.1.ticket) :
    (sent.2.after later).exchange.Finds sent.1.ticket (.error (.io fault.text)) := by
  subst sends
  rw [dispatch_id] at fits
  refine sound.finds_of_dispatch room along ?_ unread
  rw [dispatch_of_fault sound.coherent isOpen room fits]
  exact c.exchange.mailroom.getElem?_open_nextTicket _ _

theorem finds_of_closed (sound : Sound c) {reason : String}
    (closed : c.exchange.closedFor = some reason) (room : c.exchange.ids.HasNext)
    {fault : Option WriteFault} (sends : c.dispatch now verb arguments fault = sent)
    (along : sent.2.Along later) (unread : ∀ s ∈ later, s.ticket? ≠ some sent.1.ticket) :
    (sent.2.after later).exchange.Finds sent.1.ticket (.error (.disconnected reason)) := by
  subst sends
  refine sound.finds_of_dispatch room along ?_ unread
  rw [dispatch_of_closed closed]
  exact c.exchange.mailroom.getElem?_open_nextTicket _ _

end Sending

/-- However a connection ends, whichever side is first and how often it happens, everyone is
answered. -/
theorem end_answers_everyone (config : Config) (rejects : config.rejectsOnClose = true)
    (steps : List Step) (numbered : (fresh config).Along steps) (ended : (firstEnd steps).isSome) :
    Answered (fresh config) steps := by
  have start := Sound.fresh config
  have policy : ∀ part, ((fresh config).after part).exchange.rejectsOnClose := fun part =>
    (after_rejectsOnClose _ part).trans rejects
  have reasons : ∀ {part}, (fresh config).Along part →
      ((fresh config).after part).exchange.closedFor = firstEnd part := start.after_closedFor
  have sound := start.after numbered
  have gone : ((fresh config).after steps).exchange.isClosed := by
    rwa [Exchange.isClosed, reasons numbered]
  have empty := sound.drained (policy steps) gone
  constructor
  case closed => exact ⟨reasons numbered, empty⟩
  case available =>
    intro ticket id owned held
    exact sound.coherent.answerable.available ticket id owned held (by simp [empty])
  case decided =>
    rintro before now verb arguments later rfl sent lasting fits unread
    obtain ⟨earlier, room, rest⟩ := along_append.mp numbered
    have located := after_dispatch (start.after earlier) (policy before)
      ((reasons earlier).trans lasting) room rfl fits rest unread
    have ends : firstEnd (before ++ .dispatch now verb arguments none :: later) = firstEnd later := by
      rw [firstEnd_append, lasting, Option.none_or]
      rfl
    obtain ⟨reason, last⟩ := Option.isSome_iff_exists.mp ended
    have lastLater := ends.symm.trans last
    rw [lastLater] at located
    refine ⟨heard_append before _, ?_, ?_⟩
    · intro reply found
      rw [found] at located
      rw [after_append]
      exact Exchange.finds_of_outcomeOf located rfl
    · intro none
      rw [none] at located
      rw [after_append]
      exact ⟨reason, last, Exchange.finds_of_outcomeOf located rfl⟩
  case unwritten =>
    rintro before now verb arguments fault later rfl sent lasting fits unread
    obtain ⟨earlier, room, rest⟩ := along_append.mp numbered
    rw [after_append]
    exact finds_of_fault (start.after earlier) ((reasons earlier).trans lasting) room rfl fits rest
      unread
  case turnedAway =>
    rintro before now verb arguments fault later reason rfl first sent unread
    obtain ⟨earlier, room, rest⟩ := along_append.mp numbered
    rw [after_append]
    exact finds_of_closed (start.after earlier) ((reasons earlier).trans first) room rfl rest unread
  case heard =>
    rintro before e later rfl lasts ends
    exact heard_until_end config lasts ends
  case settled => exact fun s ends => step_of_ended sound (policy steps) gone ends

/-- A run in which the frame of one request is not taken, the peer hangs up in the middle of the line with
the reply to the first, and the connection is broken and ended once more after that. -/
def cutShort : List Step :=
  [.dispatch 0 "GET" ["a"],
    .dispatch 0 "GET" ["b"],
    .dispatch 0 "GET" ["c"] (some { taken := 3, kept := 0, text := "timed out" }),
    .serve "ID 1 [\"failure\",null".toUTF8.toList,
    .serve ",\"gone\"]".toUTF8.toList,
    .hangUp,
    .breakOff "reset",
    .shutDown,
    .dispatch 0 "GET" ["d"],
    .hangUp]

theorem end_answers_everyone_cutShort :
    (fresh {}).Along cutShort ∧ firstEnd cutShort = some serverClosed ∧
      ((fresh {}).after cutShort).exchange.Finds 0 (.error (.remote "gone")) ∧
      ((fresh {}).after cutShort).exchange.Finds 1 (.error (.disconnected serverClosed)) ∧
      ((fresh {}).after cutShort).exchange.Finds 2 (.error (.io "timed out")) ∧
      ((fresh {}).after cutShort).exchange.Finds 3 (.error (.disconnected serverClosed)) := by
  have numbered : (fresh {}).Along cutShort := by decide +kernel
  have ends : firstEnd cutShort = some serverClosed := rfl
  have answered := end_answers_everyone {} rfl cutShort numbered (by rw [ends]; rfl)
  refine ⟨numbered, ends, ?_, ?_, ?_, ?_⟩
  · have first := answered.decided [] 0 "GET" ["a"] _ rfl rfl (by decide +kernel) (by decide +kernel)
    have heard : ((fresh {}).dispatch 0 "GET" ["a"]).2.heard cutShort.tail =
        ["ID 1 [\"failure\",null,\"gone\"]"] := by decide +kernel
    refine first.2.1 (.failure "gone") ?_
    change firstReply ⟨1⟩ (((fresh {}).dispatch 0 "GET" ["a"]).2.heard cutShort.tail) = _
    rw [heard]
    cbv
  · have second := answered.decided (cutShort.take 1) 0 "GET" ["b"] _ rfl rfl
      (by decide +kernel) (by decide +kernel)
    obtain ⟨reason, last, finds⟩ := second.2.2 (by decide +kernel)
    rw [ends] at last
    cases last
    have ticket : (((fresh {}).after (cutShort.take 1)).dispatch 0 "GET" ["b"]).1.ticket = 1 := by
      decide +kernel
    rwa [ticket] at finds
  · have third := answered.unwritten (cutShort.take 2) 0 "GET" ["c"] _ _ rfl rfl
      (by decide +kernel) (by decide +kernel)
    have ticket : (((fresh {}).after (cutShort.take 2)).dispatch 0 "GET" ["c"]
        (some { taken := 3, kept := 0, text := "timed out" })).1.ticket = 2 := by
      decide +kernel
    rwa [ticket] at third
  · have fourth := answered.turnedAway (cutShort.take 8) 0 "GET" ["d"] none [.hangUp] _ rfl ends
      (by decide +kernel)
    have ticket : (((fresh {}).after (cutShort.take 8)).dispatch 0 "GET" ["d"]).1.ticket = 3 := by
      decide +kernel
    rwa [ticket] at fourth

end Connection

end Switchboard
