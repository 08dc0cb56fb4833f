import Switchboard.Proofs.Connection.Traffic
import Switchboard.Proofs.Exchange.Views

/-! # What goes out on a stream

A frame that stays on one line is written with a newline after it, and no other byte is ever written.
So as long as the writes succeed, whoever reads lines gets back the frames that were sent. A frame that
would break is refused before any of it goes out, and a write may fail: the request is over at once then,
and nothing but its identifier is used up.
-/

namespace Switchboard

namespace Exchange

variable {x : Exchange}

/-- A request that is refused as soon as it is entered leaves a mailbox with the reason, and moves the
source of identifiers on. -/
theorem Coherent.reject_issue (coherent : Coherent x) (room : x.ids.HasNext) (now : UInt64)
    (verb : String) (failure : Failure) :
    (x.issue now verb).2.reject (x.ids.peek now) failure =
      { x with
        ids := (x.ids.next now).2
        mailroom := x.mailroom.open (x.ids.peek now) (.holding (.error failure)) } := by
  have absent := coherent.peek_not_mem room now
  let p : Pending := ⟨x.ids.peek now, verb, x.mailroom.nextTicket⟩
  have found : (x.issue now verb).2.pending.find? p.id = some p := by
    exact (PendingTable.find?_insert x.pending p p.id).trans (if_pos rfl)
  have emptied : (x.issue now verb).2.pending.erase p.id = x.pending :=
    PendingTable.erase_insert coherent.ascending absent
  have rejected : (x.issue now verb).2.mailroom.update p.ticket (·.deliver (.error failure)) =
      x.mailroom.open p.id (.holding (.error failure)) := x.mailroom.update_open_nextTicket p.id .waiting _
  rw [reject_eq, settle_of_find? _ p.id _ found, emptied, rejected]
  rfl

theorem Coherent.dispatch_of_refused (coherent : Coherent x) (isOpen : x.closedFor = none)
    (room : x.ids.HasNext) (now : UInt64) (verb : String) (arguments : List String) (failure : Failure) :
    x.dispatch now verb arguments { failure := some failure } =
      (⟨x.ids.peek now, x.mailroom.nextTicket, some (requestFrame (x.ids.peek now) verb arguments), []⟩,
        { x with
          ids := (x.ids.next now).2
          mailroom := x.mailroom.open (x.ids.peek now) (.holding (.error failure)) }) := by
  have issued : (x.issue now verb).1 = x.ids.peek now := rfl
  simp only [dispatch, isOpen, performAll, issued, coherent.reject_issue room now verb failure]

end Exchange

namespace Connection

open Lines (OneLine lineOf)

/-- The frame of the request that a step sends, if there still is a connection. -/
def requestOf (c : Connection) : Step → List String
  | .dispatch now verb arguments _ =>
    if c.exchange.isClosed then []
    else [requestFrame (c.exchange.ids.peek now) verb arguments]
  | _ => []

def requests (c : Connection) : List Step → List String
  | [] => []
  | s :: rest => c.requestOf s ++ (c.step s).2.requests rest

/-- The frames of a run that stay on one line. -/
def sent (c : Connection) (steps : List Step) : List String :=
  (c.requests steps).filter fun frame => decide (OneLine frame)

variable {c : Connection} {now : UInt64} {verb : String} {arguments : List String}
  {fault : Option WriteFault}

theorem requestFrame_ne_empty (id : RequestId) (verb : String) (arguments : List String) :
    requestFrame id verb arguments ≠ "" := by
  intro empty
  have texts := congrArg String.toList empty
  simp [requestFrame, marker] at texts

theorem filled_requests (c : Connection) (steps : List Step) : "" ∉ c.requests steps := by
  induction steps generalizing c with
  | nil => simp [requests]
  | cons s rest ih =>
      rw [requests, List.mem_append]
      rintro (here | later)
      · cases s with
        | dispatch now verb arguments fault =>
            rw [requestOf, List.mem_ite_nil_left, List.mem_singleton] at here
            exact requestFrame_ne_empty _ _ _ here.2.symm
        | look | serve | hangUp | shutDown | breakOff => contradiction
      · exact ih _ later

section Dispatching

theorem dispatch_of_closed {reason : String} (closed : c.exchange.closedFor = some reason)
    (now : UInt64) (verb : String) (arguments : List String) (fault : Option WriteFault) :
    c.dispatch now verb arguments fault =
      (⟨c.exchange.ids.peek now, c.exchange.mailroom.nextTicket, none, []⟩,
        { c with exchange := c.exchange.turnAway now reason }) := by
  simp [dispatch, Exchange.dispatch_of_closed closed]

theorem dispatch_of_oneLine (isOpen : c.exchange.closedFor = none)
    (fits : OneLine (requestFrame (c.exchange.ids.peek now) verb arguments)) :
    c.dispatch now verb arguments =
      (⟨c.exchange.ids.peek now, c.exchange.mailroom.nextTicket,
          some (requestFrame (c.exchange.ids.peek now) verb arguments), []⟩,
        { c with
          exchange := (c.exchange.issue now verb).2
          written := c.written ++
            (c.unsent ++ lineOf (requestFrame (c.exchange.ids.peek now) verb arguments))
          unsent := [] }) := by
  have line := Lines.encode_of_oneLine fits
  simp only [dispatch, handover, line, Exchange.dispatch, isOpen]
  rfl

/-- A frame with a line break costs its request the identifier and nothing else. -/
theorem dispatch_of_not_oneLine (coherent : Exchange.Coherent c.exchange)
    (isOpen : c.exchange.closedFor = none) (room : c.exchange.ids.HasNext)
    (broken : ¬ OneLine (requestFrame (c.exchange.ids.peek now) verb arguments)) :
    c.dispatch now verb arguments fault =
      (⟨c.exchange.ids.peek now, c.exchange.mailroom.nextTicket,
          some (requestFrame (c.exchange.ids.peek now) verb arguments), []⟩,
        { c with
          exchange := { c.exchange with
            ids := (c.exchange.ids.next now).2
            mailroom := c.exchange.mailroom.open (c.exchange.ids.peek now)
              (.holding (.error (.protocol .lineBreak))) } }) := by
  have refused := Lines.encode_of_not_oneLine broken
  simp only [dispatch, handover, refused,
    coherent.dispatch_of_refused isOpen room now verb arguments (.protocol .lineBreak)]

/-- A write that fails costs its request the identifier as well. -/
theorem dispatch_of_fault (coherent : Exchange.Coherent c.exchange)
    (isOpen : c.exchange.closedFor = none) (room : c.exchange.ids.HasNext)
    (fits : OneLine (requestFrame (c.exchange.ids.peek now) verb arguments)) (fault : WriteFault) :
    c.dispatch now verb arguments (some fault) =
      (⟨c.exchange.ids.peek now, c.exchange.mailroom.nextTicket,
          some (requestFrame (c.exchange.ids.peek now) verb arguments), []⟩,
        { c with
          exchange := { c.exchange with
            ids := (c.exchange.ids.next now).2
            mailroom := c.exchange.mailroom.open (c.exchange.ids.peek now)
              (.holding (.error (.io fault.text))) }
          written := c.written ++
            (c.unsent ++ lineOf (requestFrame (c.exchange.ids.peek now) verb arguments)).take fault.taken
          unsent := ((c.unsent ++ lineOf (requestFrame (c.exchange.ids.peek now) verb arguments)).drop
            fault.taken).take fault.kept }) := by
  have line := Lines.encode_of_oneLine fits
  simp only [dispatch, handover, line, Option.map_some,
    coherent.dispatch_of_refused isOpen room now verb arguments (.io fault.text), write]

end Dispatching

section Writing

/-- The line of the request that a step sends, if its frame stays on one. -/
def lineFor (c : Connection) (s : Step) : List UInt8 :=
  ((c.requestOf s).filter fun frame => decide (OneLine frame)).flatMap lineOf

theorem endOfStream_stream (c : Connection) :
    c.endOfStream.written = c.written ∧ c.endOfStream.unsent = c.unsent := by
  unfold endOfStream
  split <;> exact ⟨rfl, rfl⟩

/-- A step writes the line of its request, or it writes nothing and has no line. -/
theorem step_stream (c : Connection) (s : Step) :
    (c.lineFor s = [] ∧ (c.step s).2.written = c.written ∧ (c.step s).2.unsent = c.unsent) ∨
      (c.step s).2.written = (c.write (c.lineFor s) s.fault?).written ∧
        (c.step s).2.unsent = (c.write (c.lineFor s) s.fault?).unsent := by
  cases s with
  | dispatch now verb arguments fault =>
      cases closed : c.exchange.closedFor with
      | some reason =>
          left
          simp [lineFor, requestOf, Exchange.isClosed, closed, step, dispatch_of_closed closed]
      | none =>
          by_cases fits : OneLine (requestFrame (c.exchange.ids.peek now) verb arguments)
          · right
            have line : c.lineFor (.dispatch now verb arguments fault) =
                lineOf (requestFrame (c.exchange.ids.peek now) verb arguments) := by
              simp [lineFor, requestOf, Exchange.isClosed, closed, fits]
            simp only [step, dispatch, Lines.encode_of_oneLine fits, Exchange.dispatch, closed, line]
            cases fault <;> exact ⟨rfl, rfl⟩
          · left
            simp [lineFor, requestOf, Exchange.isClosed, closed, fits, step, dispatch,
              Lines.encode_of_not_oneLine fits]
  | look => exact Or.inl ⟨rfl, rfl, rfl⟩
  | serve bytes =>
      refine Or.inl ⟨rfl, ?_⟩
      simp only [step, receive]
      split <;> exact ⟨rfl, rfl⟩
  | hangUp => exact Or.inl ⟨rfl, c.endOfStream_stream⟩
  | shutDown => exact Or.inl ⟨rfl, endOfStream_stream _⟩
  | breakOff reason =>
      refine Or.inl ⟨rfl, ?_⟩
      simp only [step, breakOff]
      split <;> exact ⟨rfl, rfl⟩

theorem write_sublist (c : Connection) (line : List UInt8) (fault : Option WriteFault) :
    ((c.write line fault).written ++ (c.write line fault).unsent).Sublist
      (c.written ++ c.unsent ++ line) := by
  cases fault with
  | none => simp [write]
  | some fault =>
      have kept := List.take_sublist fault.kept ((c.unsent ++ line).drop fault.taken)
      have due := kept.append_left ((c.unsent ++ line).take fault.taken)
      rw [List.take_append_drop] at due
      simpa only [write, List.append_assoc] using due.append_left c.written

/-- Even if writes fail, nothing is ever written but lines of requests, in order and none twice. -/
theorem after_sublist (c : Connection) (steps : List Step) :
    ((c.after steps).written ++ (c.after steps).unsent).Sublist
      (c.written ++ c.unsent ++ (c.sent steps).flatMap lineOf) := by
  induction steps generalizing c with
  | nil => exact (List.append_nil _).symm ▸ List.Sublist.refl _
  | cons s rest ih =>
      have here : ((c.step s).2.written ++ (c.step s).2.unsent).Sublist
          (c.written ++ c.unsent ++ c.lineFor s) := by
        rcases c.step_stream s with ⟨none, written, unsent⟩ | ⟨written, unsent⟩
        · simp [none, written, unsent]
        · rw [written, unsent]
          exact c.write_sublist _ _
      have lines : (c.sent (s :: rest)).flatMap lineOf =
          c.lineFor s ++ ((c.step s).2.sent rest).flatMap lineOf := by
        simp only [sent, requests, lineFor, List.filter_append, List.flatMap_append]
      rw [lines, ← List.append_assoc]
      exact (ih (c.step s).2).trans (here.append_right _)

/-- As long as the writes succeed, all lines are written whole. -/
theorem after_written (c : Connection) {steps : List Step} (whole : ∀ s ∈ steps, s.fault? = none)
    (clear : c.unsent = []) :
    (c.after steps).written = c.written ++ (c.sent steps).flatMap lineOf ∧
      (c.after steps).unsent = [] := by
  induction steps generalizing c with
  | nil => exact ⟨(List.append_nil _).symm, clear⟩
  | cons s rest ih =>
      obtain ⟨first, later⟩ := List.forall_mem_cons.mp whole
      have here : (c.step s).2.written = c.written ++ c.lineFor s ∧ (c.step s).2.unsent = [] := by
        rcases c.step_stream s with ⟨none, written, unsent⟩ | ⟨written, unsent⟩
        · rw [none, List.append_nil]
          exact ⟨written, unsent.trans clear⟩
        · rw [written, unsent, first]
          simp [write, clear]
      obtain ⟨written, unsent⟩ := ih (c.step s).2 later here.2
      refine ⟨?_, unsent⟩
      rw [after_cons, written, here.1]
      simp only [sent, requests, lineFor, List.filter_append, List.flatMap_append, List.append_assoc]

end Writing

/-- Frames go out whole, one a line, or not at all, as far as the writes succeed. -/
structure Framed (c : Connection) (steps : List Step) : Prop where
  /-- The bytes written are the frames that stay on one line, in the order of their requests, each with
  a newline after it. -/
  written : (∀ s ∈ steps, s.fault? = none) →
    (c.after steps).written = (c.sent steps).flatMap lineOf
  /-- Who cuts them into lines, all at once or as they come, gets back these frames and has no byte
  left over. -/
  read : (∀ s ∈ steps, s.fault? = none) →
    Lines.frames (c.after steps).written = c.sent steps ∧
      Lines.Buffer.feed {} (c.after steps).written = (c.sent steps, {})
  /-- If a write fails some of these bytes may be missing, but no others are ever written. -/
  nothingElse : (c.after steps).written.Sublist ((c.sent steps).flatMap lineOf)
  /-- As long as the identifiers last, a request whose frame would break uses up one of them. Its mailbox
  holds the reason, for its holder to find, and nothing else changes: no byte is written and nothing is
  pending for it. -/
  refused : c.Along steps →
    ∀ before now verb arguments fault later,
      steps = before ++ .dispatch now verb arguments fault :: later →
    let here := c.after before
    let id := here.exchange.ids.peek now
    let ticket := here.exchange.mailroom.nextTicket
    here.exchange.closedFor = none → ¬ OneLine (requestFrame id verb arguments) →
      here.dispatch now verb arguments fault =
        (⟨id, ticket, some (requestFrame id verb arguments), []⟩,
          { here with
            exchange := { here.exchange with
              ids := (here.exchange.ids.next now).2
              mailroom := here.exchange.mailroom.open id (.holding (.error (.protocol .lineBreak))) } }) ∧
      id ∉ here.exchange.pending.ids ∧
      ((∀ s ∈ later, s.ticket? ≠ some ticket) →
        (c.after steps).exchange.Finds ticket (.error (.protocol .lineBreak)))
  /-- So does a request whose write fails, for what the system says. Some of the bytes that were due are
  written, and some are kept. -/
  failed : c.Along steps →
    ∀ before now verb arguments fault later,
      steps = before ++ .dispatch now verb arguments (some fault) :: later →
    let here := c.after before
    let id := here.exchange.ids.peek now
    let ticket := here.exchange.mailroom.nextTicket
    let due := here.unsent ++ lineOf (requestFrame id verb arguments)
    here.exchange.closedFor = none → OneLine (requestFrame id verb arguments) →
      here.dispatch now verb arguments (some fault) =
        (⟨id, ticket, some (requestFrame id verb arguments), []⟩,
          { here with
            exchange := { here.exchange with
              ids := (here.exchange.ids.next now).2
              mailroom := here.exchange.mailroom.open id (.holding (.error (.io fault.text))) }
            written := here.written ++ due.take fault.taken
            unsent := (due.drop fault.taken).take fault.kept }) ∧
      id ∉ here.exchange.pending.ids ∧
      ((∀ s ∈ later, s.ticket? ≠ some ticket) →
        (c.after steps).exchange.Finds ticket (.error (.io fault.text)))

/-- A request that is over as soon as it is sent stays so. -/
theorem Sound.finds_of_dispatch {c : Connection} (sound : Sound c) {now : UInt64} {verb : String}
    {arguments : List String} {fault : Option WriteFault} {later : List Step} (room : c.exchange.ids.HasNext)
    (along : (c.dispatch now verb arguments fault).2.Along later) {ticket : Ticket} {failure : Failure}
    (located : (c.dispatch now verb arguments fault).2.exchange.mailroom.boxes[ticket]? =
      some (c.exchange.ids.peek now, .holding (.error failure)))
    (unread : ∀ s ∈ later, s.ticket? ≠ some ticket) :
    ((c.dispatch now verb arguments fault).2.after later).exchange.Finds ticket (.error failure) := by
  have next : Sound (c.dispatch now verb arguments fault).2 :=
    sound.step (s := .dispatch now verb arguments fault) room
  exact Exchange.finds_of_outcomeOf (next.after_settled along unread (by simp) located) rfl

/-- Every run of a connection is framed, whatever the peer sends meanwhile and whoever ends it. -/
theorem outbound_stream_law (config : Config) (steps : List Step) : Framed (fresh config) steps := by
  have written (whole : ∀ s ∈ steps, s.fault? = none) :
      ((fresh config).after steps).written = ((fresh config).sent steps).flatMap lineOf :=
    (after_written _ whole rfl).1
  have fits : ∀ frame ∈ (fresh config).sent steps, OneLine frame := by
    intro frame member
    exact of_decide_eq_true (List.mem_filter.mp member).2
  have filled : "" ∉ (fresh config).sent steps := fun member =>
    filled_requests _ steps (List.mem_filter.mp member).1
  constructor
  case written => exact written
  case read =>
    intro whole
    rw [written whole]
    exact ⟨Lines.frames_flatMap_lineOf fits filled, Lines.feed_flatMap_lineOf fits filled⟩
  case nothingElse => exact (List.sublist_append_left _ _).trans ((fresh config).after_sublist steps)
  case refused =>
    rintro numbered before now verb arguments fault later rfl here id ticket isOpen broken
    obtain ⟨earlier, room, rest⟩ := along_append.mp numbered
    have sound : Sound here := (Sound.fresh config).after earlier
    have refused : here.dispatch now verb arguments fault = _ :=
      dispatch_of_not_oneLine sound.coherent isOpen room broken
    refine ⟨refused, sound.coherent.peek_not_mem room now, fun unread => ?_⟩
    rw [after_append, after_cons]
    refine sound.finds_of_dispatch room rest ?_ unread
    rw [refused]
    exact here.exchange.mailroom.getElem?_open_nextTicket _ _
  case failed =>
    rintro numbered before now verb arguments fault later rfl here id ticket due isOpen fit
    obtain ⟨earlier, room, rest⟩ := along_append.mp numbered
    have sound : Sound here := (Sound.fresh config).after earlier
    have failed := dispatch_of_fault sound.coherent isOpen room fit fault
    refine ⟨failed, sound.coherent.peek_not_mem room now, fun unread => ?_⟩
    rw [after_append, after_cons]
    refine sound.finds_of_dispatch room rest ?_ unread
    rw [failed]
    exact here.exchange.mailroom.getElem?_open_nextTicket _ _

/-- A run with a break hidden in a verb, a lone one at the end of an argument, and an empty argument at
the end. -/
def hiddenBreaks : List Step :=
  [.dispatch 0 "GET" ["a b", ""],
    .dispatch 0 "G\nET" ["a"],
    .serve [73, 68, 32],
    .dispatch 0 "GET" ["ü\r"],
    .dispatch 0 "GET" ["ü"]]

theorem outbound_stream_law_hiddenBreaks :
    (fresh {}).Along hiddenBreaks ∧ (∀ s ∈ hiddenBreaks, s.fault? = none) ∧
      (fresh {}).sent hiddenBreaks = ["ID 1 GET a b ", "ID 4 GET ü"] ∧
      ((fresh {}).after hiddenBreaks).written = lineOf "ID 1 GET a b " ++ lineOf "ID 4 GET ü" ∧
      ((fresh {}).after hiddenBreaks).exchange.Finds 1 (.error (.protocol .lineBreak)) := by
  have numbered : (fresh {}).Along hiddenBreaks := by decide +kernel
  have whole : ∀ s ∈ hiddenBreaks, s.fault? = none := by simp [hiddenBreaks, Step.fault?]
  have sent : (fresh {}).sent hiddenBreaks = ["ID 1 GET a b ", "ID 4 GET ü"] := by decide +kernel
  have framed := outbound_stream_law {} hiddenBreaks
  refine ⟨numbered, whole, sent, ?_, ?_⟩
  · rw [framed.written whole, sent]
    simp
  · have refused := framed.refused numbered [.dispatch 0 "GET" ["a b", ""]] 0 "G\nET" ["a"] none _ rfl
    obtain ⟨-, -, finds⟩ := refused (by decide +kernel) (by decide +kernel)
    have second : ((fresh {}).after [.dispatch 0 "GET" ["a b", ""]]).exchange.mailroom.nextTicket = 1 := by
      decide +kernel
    rw [second] at finds
    exact finds (by decide)

/-- What a failed write has left goes out with the next frame, although its request is over. -/
example :
    let broken : WriteFault := { taken := 4, kept := 100, text := "timed out" }
    let c := (fresh {}).after [.dispatch 0 "GET" ["a"] (some broken), .dispatch 0 "GET" ["b"]]
    c.written = lineOf "ID 1 GET a" ++ lineOf "ID 2 GET b" ∧ c.exchange.pending.ids = [⟨2⟩] := by
  decide +kernel

end Connection

end Switchboard
