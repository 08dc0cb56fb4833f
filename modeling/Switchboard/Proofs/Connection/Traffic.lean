import Switchboard.Connection.Run
import Switchboard.Proofs.Connection.Inbound
import Switchboard.Proofs.Exchange.Closing

/-! # The traffic of a connection

Whatever a step of a connection does to the exchange is a run of the exchange by itself. So what every
run of an exchange keeps, a run of a connection keeps too. On top of that a connection listens just as
long as its exchange is open.
-/

namespace Switchboard.Connection

open Exchange (Coherent Drained)

def Step.ticket? : Step → Option Ticket
  | .look ticket _ => some ticket
  | _ => none

/-- Why a step ends the connection, if it does. -/
def Step.reason? : Step → Option String
  | .hangUp => some serverClosed
  | .shutDown => some Connection.shutDown
  | .breakOff reason => some reason
  | _ => none

/-- How the write of a step fails, if it does. -/
def Step.fault? : Step → Option WriteFault
  | .dispatch _ _ _ fault => fault
  | _ => none

/-- Why the connection ends first. -/
def firstEnd (steps : List Step) : Option String := steps.findSome? Step.reason?

def after (c : Connection) (steps : List Step) : Connection := (c.run steps).2

/-- A request is sent only while the next identifier is a 64-bit word. -/
def Numbered (c : Connection) : Step → Prop
  | .dispatch .. => c.exchange.ids.HasNext
  | _ => True

def Along (c : Connection) : List Step → Prop
  | [] => True
  | s :: rest => c.Numbered s ∧ (c.step s).2.Along rest

instance (c : Connection) (s : Step) : Decidable (c.Numbered s) :=
  match s with
  | .dispatch .. => inferInstanceAs (Decidable (c.exchange.ids.last.toNat + 1 < UInt64.size))
  | .look .. | .serve _ | .hangUp | .shutDown | .breakOff _ => .isTrue trivial

instance Along.decidable : ∀ (c : Connection) (steps : List Step), Decidable (c.Along steps)
  | _, [] => .isTrue trivial
  | c, s :: rest =>
    have : Decidable ((c.step s).2.Along rest) := Along.decidable (c.step s).2 rest
    inferInstanceAs (Decidable (c.Numbered s ∧ (c.step s).2.Along rest))

/-- The frames that come in with a step, while there is a connection. -/
def hears (c : Connection) : Step → List String
  | .serve bytes => if c.listening then (c.buffer.feed bytes).1 else []
  | .hangUp => if c.listening then c.buffer.flush else []
  | _ => []

def heard (c : Connection) : List Step → List String
  | [] => []
  | s :: rest => c.hears s ++ (c.step s).2.heard rest

def arrivals (frames : List String) : List Exchange.Step := frames.map fun frame => .event (.frame frame)

/-- What the exchange goes through when the stream ends. -/
def farewell (c : Connection) : List Exchange.Step :=
  if c.listening then arrivals c.buffer.flush ++ [.event (.close serverClosed)] else []

/-- What the exchange goes through in a step. -/
def traffic (c : Connection) : Step → List Exchange.Step
  | .dispatch now verb arguments fault =>
    [.dispatch now verb arguments
      (handover (requestFrame (c.exchange.ids.peek now) verb arguments) fault)]
  | .look ticket look => [look.step ticket]
  | .serve bytes => arrivals (c.hears (.serve bytes))
  | .hangUp => c.farewell
  | .shutDown => .event (.close shutDown) :: c.farewell
  | .breakOff reason => if c.listening then [.event (.close reason)] else []

variable {c : Connection}

@[simp] theorem after_nil : c.after [] = c := rfl

@[simp] theorem after_cons (s : Step) (rest : List Step) :
    c.after (s :: rest) = (c.step s).2.after rest := rfl

theorem after_append (first second : List Step) :
    c.after (first ++ second) = (c.after first).after second := by
  induction first generalizing c with
  | nil => rfl
  | cons s rest ih => exact ih

theorem along_append {first second : List Step} :
    c.Along (first ++ second) ↔ c.Along first ∧ (c.after first).Along second := by
  induction first generalizing c with
  | nil => simp only [List.nil_append, Along, true_and, after_nil]
  | cons s rest ih => simp only [List.cons_append, Along, ih, and_assoc, after_cons]

theorem heard_append (first second : List Step) :
    c.heard (first ++ second) = c.heard first ++ (c.after first).heard second := by
  induction first generalizing c with
  | nil => rfl
  | cons s rest ih => simp only [List.cons_append, heard, ih, List.append_assoc, after_cons]

theorem firstEnd_append (first second : List Step) :
    firstEnd (first ++ second) = (firstEnd first).or (firstEnd second) := List.findSome?_append

section Exchange

@[simp] theorem write_exchange (c : Connection) (line : List UInt8) (fault : Option WriteFault) :
    (c.write line fault).exchange = c.exchange := by
  cases fault <;> rfl

@[simp] theorem write_buffer (c : Connection) (line : List UInt8) (fault : Option WriteFault) :
    (c.write line fault).buffer = c.buffer := by
  cases fault <;> rfl

@[simp] theorem write_listening (c : Connection) (line : List UInt8) (fault : Option WriteFault) :
    (c.write line fault).listening = c.listening := by
  cases fault <;> rfl

/-- Whatever becomes of its bytes, a request is sent through the exchange. -/
theorem dispatch_exchange (c : Connection) (now : UInt64) (verb : String) (arguments : List String)
    (fault : Option WriteFault) :
    let passed := c.exchange.dispatch now verb arguments
      (handover (requestFrame (c.exchange.ids.peek now) verb arguments) fault)
    (c.dispatch now verb arguments fault).1 = passed.1 ∧
      (c.dispatch now verb arguments fault).2.exchange = passed.2 := by
  refine ⟨rfl, ?_⟩
  simp only [dispatch]
  split <;> simp

theorem dispatch_inbound (c : Connection) (now : UInt64) (verb : String) (arguments : List String)
    (fault : Option WriteFault) :
    (c.dispatch now verb arguments fault).2.buffer = c.buffer ∧
      (c.dispatch now verb arguments fault).2.listening = c.listening := by
  simp only [dispatch]
  split <;> simp

theorem receiveAll_eq_after (x : Exchange) (frames : List String) :
    receiveAll x frames = x.after (arrivals frames) := by
  induction frames generalizing x with
  | nil => rfl
  | cons frame frames ih => exact ih (x.receive frame).2

theorem endOfStream_exchange (c : Connection) : c.endOfStream.exchange = c.exchange.after c.farewell := by
  unfold endOfStream farewell
  split
  · rw [Exchange.after_append, ← receiveAll_eq_after]
    rfl
  · rfl

/-- What a step does to the exchange is what its traffic does. -/
theorem step_exchange (c : Connection) (s : Step) :
    (c.step s).2.exchange = c.exchange.after (c.traffic s) := by
  cases s with
  | dispatch now verb arguments fault => exact (c.dispatch_exchange now verb arguments fault).2
  | look => rfl
  | serve bytes =>
      unfold traffic hears
      cases listening : c.listening with
      | true =>
          simp only [if_true, ← receiveAll_eq_after]
          exact congrArg Connection.exchange (receive_listening listening bytes)
      | false => simp [step, receive, listening, arrivals]
  | hangUp => exact c.endOfStream_exchange
  | shutDown => exact endOfStream_exchange { c with exchange := (c.exchange.close shutDown).2 }
  | breakOff reason =>
      cases listening : c.listening with
      | true =>
          simp only [step, breakOff, traffic, listening, if_true]
          rfl
      | false => simp [step, breakOff, traffic, listening]

theorem after_rejectsOnClose (c : Connection) (steps : List Step) :
    (c.after steps).exchange.rejectsOnClose = c.exchange.rejectsOnClose := by
  induction steps generalizing c with
  | nil => rfl
  | cons s rest ih => rw [after_cons, ih, step_exchange, Exchange.after_rejectsOnClose]

theorem exists_event_of_mem_farewell {s : Exchange.Step} (member : s ∈ c.farewell) :
    ∃ e, s = .event e := by
  unfold farewell at member
  split at member
  · rcases List.mem_append.mp member with frame | close
    · obtain ⟨text, -, rfl⟩ := List.mem_map.mp frame
      exact ⟨_, rfl⟩
    · exact ⟨_, List.mem_singleton.mp close⟩
  · contradiction

theorem traffic_numbered {s : Step} (numbered : c.Numbered s) :
    c.exchange.Along Exchange.Numbered (c.traffic s) := by
  have events : ∀ {x : Exchange} {steps : List Exchange.Step},
      (∀ s ∈ steps, ∃ e, s = .event e) → x.Along Exchange.Numbered steps := by
    intro x steps all
    refine (Exchange.along_of_forall all).mono ?_
    rintro y _ ⟨e, rfl⟩
    trivial
  have farewell : ∀ s ∈ c.farewell, ∃ e, s = .event e := fun _ => exists_event_of_mem_farewell
  cases s with
  | dispatch => exact ⟨numbered, trivial⟩
  | look ticket look => cases look <;> exact ⟨trivial, trivial⟩
  | serve bytes => exact events (by simp [traffic, arrivals])
  | hangUp => exact events farewell
  | shutDown => exact events (List.forall_mem_cons.mpr ⟨⟨_, rfl⟩, farewell⟩)
  | breakOff reason => exact events (by simp [traffic])

end Exchange

section Ends

theorem receiveAll_closedFor (x : Exchange) (frames : List String) :
    (receiveAll x frames).closedFor = x.closedFor := by
  induction frames generalizing x with
  | nil => rfl
  | cons frame frames ih =>
      have kept := x.undergo_closedFor (.event (.frame frame))
      have quiet : (Happening.event (.frame frame)).reason? = none := rfl
      rw [quiet, Option.or_none] at kept
      exact (ih (x.receive frame).2).trans kept

theorem firstReason_handover (frame : String) (fault : Option WriteFault) (id : RequestId) :
    firstReason ((handover frame fault).happenings id) = none := by
  unfold handover
  split
  · cases fault <;> rfl
  · rfl

theorem dispatch_closedFor (c : Connection) (now : UInt64) (verb : String) (arguments : List String)
    (fault : Option WriteFault) :
    (c.dispatch now verb arguments fault).2.exchange.closedFor = c.exchange.closedFor := by
  rw [(c.dispatch_exchange now verb arguments fault).2]
  change (c.exchange.step (.dispatch now verb arguments _)).2.closedFor = _
  rw [Exchange.step_snd, Exchange.undergoAll_closedFor, Exchange.enter_closedFor, Exchange.happenings]
  split
  · exact Option.or_none
  · rw [firstReason_handover, Option.or_none]

theorem look_exchange (c : Connection) (ticket : Ticket) (look : Look) :
    (c.step (.look ticket look)).2.exchange = c.exchange.enter (look.step ticket) := by
  cases look <;> rfl

theorem receive_closedFor (c : Connection) (bytes : List UInt8) :
    (c.receive bytes).exchange.closedFor = c.exchange.closedFor := by
  unfold receive
  split
  · exact receiveAll_closedFor _ _
  · rfl

theorem endOfStream_closedFor (gone : c.listening = false → c.exchange.closedFor.isSome) :
    c.endOfStream.exchange.closedFor = c.exchange.closedFor.or (some serverClosed) := by
  unfold endOfStream
  cases closed : c.exchange.closedFor <;>
    cases listening : c.listening <;>
      simp_all [Exchange.close_closedFor, receiveAll_closedFor]

theorem breakOff_closedFor (gone : c.listening = false → c.exchange.closedFor.isSome) (reason : String) :
    (c.breakOff reason).exchange.closedFor = c.exchange.closedFor.or (some reason) := by
  unfold breakOff
  cases closed : c.exchange.closedFor <;>
    cases listening : c.listening <;>
      simp_all [Exchange.close_closedFor]

theorem step_listening (c : Connection) (s : Step) :
    (c.step s).2.listening = (c.listening && s.reason?.isNone) := by
  cases s with
  | dispatch now verb arguments fault =>
      exact (c.dispatch_inbound now verb arguments fault).2.trans (Bool.and_true _).symm
  | look => simp [step, Step.reason?]
  | serve bytes => cases listening : c.listening <;> simp [step, receive, listening, Step.reason?]
  | hangUp => cases listening : c.listening <;> simp [step, endOfStream, listening, Step.reason?]
  | shutDown =>
      cases listening : c.listening <;> simp [step, shutdown, endOfStream, listening, Step.reason?]
  | breakOff reason => cases listening : c.listening <;> simp [step, breakOff, listening, Step.reason?]

/-- What every run of a connection keeps. -/
structure Sound (c : Connection) : Prop where
  coherent : Coherent c.exchange
  drained : c.exchange.Drained
  listening : c.listening = c.exchange.closedFor.isNone

namespace Sound

theorem fresh (config : Config) : Sound (fresh config) where
  coherent := Coherent.fresh _ _
  drained := fun _ closed => by contradiction
  listening := rfl

theorem step_closedFor (sound : Sound c) (s : Step) :
    (c.step s).2.exchange.closedFor = c.exchange.closedFor.or s.reason? := by
  have gone : c.listening = false → c.exchange.closedFor.isSome := by
    intro silent
    have closed := sound.listening
    rw [silent] at closed
    simpa using closed.symm
  cases s with
  | dispatch now verb arguments fault =>
      exact (c.dispatch_closedFor now verb arguments fault).trans Option.or_none.symm
  | look ticket look =>
      rw [look_exchange, Exchange.enter_closedFor]
      exact Option.or_none.symm
  | serve bytes => exact (c.receive_closedFor bytes).trans Option.or_none.symm
  | hangUp => exact endOfStream_closedFor gone
  | shutDown =>
      have closed := c.exchange.close_closedFor Connection.shutDown
      refine (endOfStream_closedFor fun _ => by rw [closed]; rfl).trans ?_
      rw [closed]
      cases c.exchange.closedFor <;> rfl
  | breakOff reason => exact breakOff_closedFor gone reason

theorem step (sound : Sound c) {s : Step} (numbered : c.Numbered s) : Sound (c.step s).2 where
  coherent := by
    rw [step_exchange]
    exact sound.coherent.after (traffic_numbered numbered)
  drained := by
    rw [step_exchange]
    exact Exchange.stages_drained sound.drained _ _ (Exchange.after_mem_stages _ _)
  listening := by
    rw [step_listening, sound.step_closedFor, sound.listening]
    cases c.exchange.closedFor <;> cases s.reason? <;> rfl

theorem after (sound : Sound c) {steps : List Step} (along : c.Along steps) :
    Sound (c.after steps) := by
  induction steps generalizing c with
  | nil => exact sound
  | cons s rest ih => exact ih (sound.step along.1) along.2

theorem traffic_unread {ticket : Ticket} {s : Step} (unread : s.ticket? ≠ some ticket) :
    ∀ t ∈ c.traffic s, t.ticket? ≠ some ticket := by
  have events : ∀ t ∈ c.farewell, t.ticket? ≠ some ticket := by
    intro t member
    obtain ⟨e, rfl⟩ := exists_event_of_mem_farewell member
    simp [Exchange.Step.ticket?]
  cases s with
  | dispatch => simp [traffic, Exchange.Step.ticket?]
  | look other look =>
      have apart : other ≠ ticket := fun same => unread (congrArg some same)
      cases look <;> simpa [traffic, Look.step, Exchange.Step.ticket?] using apart
  | serve => simp [traffic, arrivals, Exchange.Step.ticket?]
  | hangUp => exact events
  | shutDown => exact List.forall_mem_cons.mpr ⟨by simp [Exchange.Step.ticket?], events⟩
  | breakOff => simp [traffic, Exchange.Step.ticket?]

theorem after_settled (sound : Sound c) {steps : List Step} (along : c.Along steps) {ticket : Ticket}
    {id : RequestId} {box : Mailbox} (unread : ∀ s ∈ steps, s.ticket? ≠ some ticket)
    (settled : box ≠ .waiting) (located : c.exchange.mailroom.boxes[ticket]? = some (id, box)) :
    (c.after steps).exchange.mailroom.boxes[ticket]? = some (id, box) := by
  induction steps generalizing c with
  | nil => exact located
  | cons s rest ih =>
      obtain ⟨first, later⟩ := List.forall_mem_cons.mp unread
      have stepped : (c.step s).2.exchange.mailroom.boxes[ticket]? = some (id, box) := by
        rw [step_exchange]
        exact sound.coherent.after_settled (traffic_numbered along.1) (traffic_unread first) settled
          located
      exact ih (sound.step along.1) along.2 later stepped

/-- The first end stays the reason why the connection is gone. -/
theorem after_closedFor (sound : Sound c) {steps : List Step} (along : c.Along steps) :
    (c.after steps).exchange.closedFor = c.exchange.closedFor.or (firstEnd steps) := by
  induction steps generalizing c with
  | nil => exact Option.or_none.symm
  | cons s rest ih =>
      rw [after_cons, ih (sound.step along.1) along.2, sound.step_closedFor, Option.or_assoc]
      cases ends : s.reason? <;> simp [firstEnd, ends]

end Sound

end Ends

end Switchboard.Connection
