import Switchboard.Exchange.Run
import Switchboard.Proofs.Exchange.Settle

/-! # Histories of runs

A step of an exchange is what its caller does, followed by what happens from outside while the step
lasts. The history of a run is the list of all those happenings, in order, and an invariant of runs
is one that both parts keep.
-/

namespace Switchboard

/-- What happens to an exchange from outside: an event, or the refusal of a frame that was handed to
the transport. -/
inductive Happening where
  | event (e : Event)
  | refusal (id : RequestId) (failure : Failure)

/-- What happens while the frame of a request is handed over. The transport answers last. -/
def Handover.happenings (handover : Handover) (id : RequestId) : List Happening :=
  handover.meanwhile.map .event ++ handover.failure.toList.map (.refusal id)

namespace Exchange

def Step.ticket? : Step → Option Ticket
  | .poll ticket | .waitFor ticket _ | .wait ticket | .discard ticket => some ticket
  | .dispatch .. | .event _ => none

/-- The exchange after a happening. -/
def undergo (x : Exchange) : Happening → Exchange
  | .event e => (x.perform e).2
  | .refusal id failure => x.reject id failure

def undergoAll (x : Exchange) (hs : List Happening) : Exchange := hs.foldl undergo x

/-- A request after the end of the connection gets a mailbox that holds the reason. -/
def turnAway (x : Exchange) (now : UInt64) (reason : String) : Exchange :=
  { x with mailroom := x.mailroom.open (x.ids.peek now) (.holding (.error (.disconnected reason))) }

/-- What a step does by itself, before anything happens from outside. -/
def enter (x : Exchange) : Step → Exchange
  | .dispatch now verb _ _ =>
    match x.closedFor with
    | some reason => x.turnAway now reason
    | none => (x.issue now verb).2
  | .event _ => x
  | .poll ticket => (x.poll ticket).2
  | .waitFor ticket limit => (x.waitFor ticket limit).2
  | .wait ticket => (x.wait ticket).2
  | .discard ticket => x.discard ticket

/-- What happens from outside during a step. After the end of the connection nothing is handed over,
so nothing happens meanwhile. -/
def happenings (x : Exchange) : Step → List Happening
  | .dispatch now _ _ handover =>
    if x.isClosed then [] else handover.happenings (x.ids.peek now)
  | .event e => [.event e]
  | _ => []

def after (x : Exchange) (steps : List Step) : Exchange := (x.run steps).2

/-- Everything that happens from outside in a run. -/
def history (x : Exchange) : List Step → List Happening
  | [] => []
  | s :: rest => x.happenings s ++ (x.step s).2.history rest

/-- Happenings in turn, each with the exchange that it meets. -/
def meetings (x : Exchange) : List Happening → List (Exchange × Happening)
  | [] => []
  | h :: rest => (x, h) :: (x.undergo h).meetings rest

/-- Everything that happens from outside in a run, each with the exchange that it meets, be it between
two steps or in the middle of a handover. -/
def moments (x : Exchange) : List Step → List (Exchange × Happening)
  | [] => []
  | s :: rest => (x.enter s).meetings (x.happenings s) ++ (x.step s).2.moments rest

/-- What moves an exchange on: a caller, or something from outside. -/
inductive Move where
  | caller (s : Step)
  | outside (h : Happening)

/-- A point of a run: the exchange, and all that has happened to it by then. -/
structure Stage where
  past : List Happening
  exchange : Exchange

def Stage.next (g : Stage) : Move → Stage
  | .caller s => { g with exchange := g.exchange.enter s }
  | .outside h => ⟨g.past ++ [h], g.exchange.undergo h⟩

/-- The points that moves lead through, with the first and the last. -/
def Stage.path (g : Stage) : List Move → List Stage
  | [] => [g]
  | m :: rest => g :: (g.next m).path rest

def moves (x : Exchange) : List Step → List Move
  | [] => []
  | s :: rest => .caller s :: (x.happenings s).map .outside ++ (x.step s).2.moves rest

/-- All points of a run, in order. Those in the middle of a handover are among them. -/
def stages (x : Exchange) (steps : List Step) : List Stage := Stage.path ⟨[], x⟩ (x.moves steps)

/-- Something holds whenever a step of a run begins. -/
def Along (holds : Exchange → Step → Prop) (x : Exchange) : List Step → Prop
  | [] => True
  | s :: rest => holds x s ∧ (x.step s).2.Along holds rest

/-- A request is sent, or rejected at once, only while the next identifier is a 64-bit word. -/
def Numbered (x : Exchange) : Step → Prop
  | .dispatch .. => x.ids.HasNext
  | _ => True

/-- An identifier is used up only while the next one is a 64-bit word. -/
def Issuable (x : Exchange) : Step → Prop
  | .dispatch .. => x.closedFor = none → x.ids.HasNext
  | _ => True

instance (x : Exchange) (s : Step) : Decidable (x.Numbered s) :=
  match s with
  | .dispatch .. => inferInstanceAs (Decidable (x.ids.last.toNat + 1 < UInt64.size))
  | .event _ | .poll _ | .waitFor .. | .wait _ | .discard _ => .isTrue trivial

instance Along.decidable {holds : Exchange → Step → Prop} [∀ y s, Decidable (holds y s)] :
    ∀ (x : Exchange) (steps : List Step), Decidable (x.Along holds steps)
  | _, [] => .isTrue trivial
  | x, s :: rest =>
    have : Decidable ((x.step s).2.Along holds rest) := Along.decidable (x.step s).2 rest
    inferInstanceAs (Decidable (holds x s ∧ (x.step s).2.Along holds rest))

variable {x : Exchange}

@[simp] theorem undergoAll_nil : x.undergoAll [] = x := rfl

@[simp] theorem undergoAll_cons (h : Happening) (hs : List Happening) :
    x.undergoAll (h :: hs) = (x.undergo h).undergoAll hs := rfl

theorem undergoAll_append (first second : List Happening) :
    x.undergoAll (first ++ second) = (x.undergoAll first).undergoAll second :=
  List.foldl_append

theorem performAll_snd (x : Exchange) (events : List Event) :
    (x.performAll events).2 = x.undergoAll (events.map .event) := by
  induction events generalizing x with
  | nil => rfl
  | cons e rest ih => exact ih (x.perform e).2

theorem dispatch_fst_of_open (isOpen : x.closedFor = none) (now : UInt64) (verb : String)
    (arguments : List String) (handover : Handover) :
    (x.dispatch now verb arguments handover).1.id = x.ids.peek now ∧
      (x.dispatch now verb arguments handover).1.ticket = x.mailroom.nextTicket := by
  simp only [dispatch, isOpen, issue, IdSource.next, and_self]

/-- What a dispatch on the open exchange leaves: the new request has met all that happened while its
frame was handed over. -/
theorem dispatch_snd_of_open (isOpen : x.closedFor = none) (now : UInt64) (verb : String)
    (arguments : List String) (handover : Handover) :
    (x.dispatch now verb arguments handover).2 =
      (x.issue now verb).2.undergoAll (handover.happenings (x.ids.peek now)) := by
  have issued : (x.issue now verb).1 = x.ids.peek now := rfl
  simp only [dispatch, isOpen, Handover.happenings, undergoAll_append, performAll_snd, issued]
  cases handover.failure <;> rfl

theorem step_snd (x : Exchange) (s : Step) :
    (x.step s).2 = (x.enter s).undergoAll (x.happenings s) := by
  cases s with
  | dispatch now verb arguments handover =>
      cases closed : x.closedFor with
      | none =>
          simp only [step, dispatch_snd_of_open closed, enter, closed, happenings, isClosed,
            Option.isSome_none, Bool.false_eq_true, if_false]
      | some reason =>
          simp only [step, dispatch, enter, turnAway, closed, happenings, isClosed,
            Option.isSome_some, if_true, undergoAll_nil]
  | event | poll | waitFor | wait | discard => rfl

/-- What a step amounts to before anything happens: a request is sent or turned away, or a mailbox is
looked into or given up. -/
theorem enter_cases (x : Exchange) (s : Step) :
    (∃ now verb arguments handover, s = .dispatch now verb arguments handover ∧
      (x.closedFor = none ∧ x.enter s = (x.issue now verb).2 ∨
        ∃ reason, x.closedFor = some reason ∧ x.enter s = x.turnAway now reason)) ∨
      (∃ e, s = .event e ∧ x.enter s = x) ∨
      ∃ ticket, s.ticket? = some ticket ∧
        (x.enter s = x.touch ticket Mailbox.emptied ∨ x.enter s = x.discard ticket) := by
  cases s with
  | dispatch now verb arguments handover =>
      left
      refine ⟨now, verb, arguments, handover, rfl, ?_⟩
      cases closed : x.closedFor with
      | none => simp only [enter, closed, true_and, true_or]
      | some reason => exact Or.inr ⟨reason, rfl, by simp only [enter, closed]⟩
  | event e => exact Or.inr (Or.inl ⟨e, rfl, rfl⟩)
  | poll ticket => exact Or.inr (Or.inr ⟨ticket, rfl, Or.inl (x.poll_snd ticket)⟩)
  | waitFor ticket limit =>
      refine Or.inr (Or.inr ⟨ticket, rfl, Or.inl ?_⟩)
      rw [enter, waitFor_snd, poll_snd]
  | wait ticket =>
      refine Or.inr (Or.inr ⟨ticket, rfl, ?_⟩)
      rw [enter, wait_snd]
      split
      case isTrue => exact Or.inr rfl
      case isFalse => exact Or.inl rfl
  | discard ticket => exact Or.inr (Or.inr ⟨ticket, rfl, Or.inr rfl⟩)

theorem happenings_of_ticket? (x : Exchange) {s : Step} {ticket : Ticket}
    (looks : s.ticket? = some ticket) :
    x.happenings s = [] := by
  cases s with
  | dispatch | event => cases looks
  | poll | waitFor | wait | discard => rfl

theorem enter_of_ticket? (x : Exchange) {s : Step} {ticket : Ticket}
    (looks : s.ticket? = some ticket) (kept : s ≠ .wait ticket ∧ s ≠ .discard ticket) :
    x.enter s = x.touch ticket Mailbox.emptied := by
  cases s with
  | dispatch | event => cases looks
  | poll other =>
      cases looks
      exact x.poll_snd ticket
  | waitFor other limit =>
      cases looks
      rw [enter, waitFor_snd, poll_snd]
  | wait other =>
      cases looks
      exact absurd rfl kept.1
  | discard other =>
      cases looks
      exact absurd rfl kept.2

theorem enter_closedFor (x : Exchange) (s : Step) : (x.enter s).closedFor = x.closedFor := by
  rcases x.enter_cases s with
    ⟨now, verb, arguments, handover, -, ⟨-, same⟩ | ⟨reason, -, same⟩⟩ | ⟨e, -, same⟩ |
    ⟨ticket, -, same | same⟩ <;> rw [same]
  all_goals rfl

theorem enter_rejectsOnClose (x : Exchange) (s : Step) :
    (x.enter s).rejectsOnClose = x.rejectsOnClose := by
  rcases x.enter_cases s with
    ⟨now, verb, arguments, handover, -, ⟨-, same⟩ | ⟨reason, -, same⟩⟩ | ⟨e, -, same⟩ |
    ⟨ticket, -, same | same⟩ <;> rw [same]
  all_goals rfl

@[simp] theorem after_nil : x.after [] = x := rfl

@[simp] theorem after_cons (s : Step) (rest : List Step) :
    x.after (s :: rest) = (x.step s).2.after rest := rfl

theorem after_append (first second : List Step) :
    x.after (first ++ second) = (x.after first).after second := by
  induction first generalizing x with
  | nil => rfl
  | cons s rest ih => exact ih

theorem meetings_append (first second : List Happening) :
    x.meetings (first ++ second) = x.meetings first ++ (x.undergoAll first).meetings second := by
  induction first generalizing x with
  | nil => rfl
  | cons h rest ih => exact congrArg (List.cons (x, h)) ih

theorem history_append (first second : List Step) :
    x.history (first ++ second) = x.history first ++ (x.after first).history second := by
  induction first generalizing x with
  | nil => rfl
  | cons s rest ih =>
      simp only [List.cons_append, history, ih, List.append_assoc, after_cons]

theorem along_append {holds : Exchange → Step → Prop} {first second : List Step} :
    x.Along holds (first ++ second) ↔ x.Along holds first ∧ (x.after first).Along holds second := by
  induction first generalizing x with
  | nil => simp only [List.nil_append, Along, true_and, after_nil]
  | cons s rest ih => simp only [List.cons_append, Along, ih, and_assoc, after_cons]

theorem along_of_forall {holds : Step → Prop} {steps : List Step} (all : ∀ s ∈ steps, holds s) :
    x.Along (fun _ s => holds s) steps := by
  induction steps generalizing x with
  | nil => trivial
  | cons s rest ih =>
      exact ⟨all s List.mem_cons_self, ih fun t member => all t (List.mem_cons_of_mem s member)⟩

theorem Along.and {first second : Exchange → Step → Prop} {steps : List Step}
    (alongFirst : x.Along first steps) (alongSecond : x.Along second steps) :
    x.Along (fun y s => first y s ∧ second y s) steps := by
  induction steps generalizing x with
  | nil => trivial
  | cons s rest ih => exact ⟨⟨alongFirst.1, alongSecond.1⟩, ih alongFirst.2 alongSecond.2⟩

theorem Along.mono {weak strong : Exchange → Step → Prop} (weaker : ∀ y s, strong y s → weak y s)
    {steps : List Step} (along : x.Along strong steps) : x.Along weak steps := by
  induction steps generalizing x with
  | nil => trivial
  | cons s rest ih => exact ⟨weaker x s along.1, ih along.2⟩

theorem Issuable.of_numbered (y : Exchange) (s : Step) (numbered : y.Numbered s) : y.Issuable s := by
  cases s with
  | dispatch => exact fun _ => numbered
  | event | poll | waitFor | wait | discard => trivial

theorem undergoAll_induction {P : Exchange → Prop} {hs : List Happening}
    (undergo : ∀ y, ∀ h ∈ hs, P y → P (y.undergo h)) (start : P x) :
    P (x.undergoAll hs) := by
  induction hs generalizing x with
  | nil => exact start
  | cons h rest ih =>
      refine ih (fun y h' member => undergo y h' (List.mem_cons_of_mem h member)) ?_
      exact undergo x h List.mem_cons_self start

theorem meetings_induction {P : Exchange → Prop} (undergo : ∀ y h, P y → P (y.undergo h))
    (start : P x) (hs : List Happening) : ∀ m ∈ x.meetings hs, P m.1 := by
  induction hs generalizing x with
  | nil => simp [meetings]
  | cons h rest ih =>
      rw [meetings, List.forall_mem_cons]
      exact ⟨start, ih (undergo x h start)⟩

/-- What callers and happenings keep holds whenever something happens. -/
theorem moments_induction {P : Exchange → Prop} {holds : Exchange → Step → Prop}
    {steps : List Step} (enter : ∀ y s, P y → holds y s → P (y.enter s))
    (undergo : ∀ y h, P y → P (y.undergo h)) (start : P x) (along : x.Along holds steps) :
    ∀ m ∈ x.moments steps, P m.1 := by
  induction steps generalizing x with
  | nil => simp [moments]
  | cons s rest ih =>
      have entered := enter x s start along.1
      have stepped : P (x.step s).2 := by
        rw [step_snd]
        exact undergoAll_induction (fun y h _ => undergo y h) entered
      rw [moments, List.forall_mem_append]
      exact ⟨meetings_induction undergo entered _, ih stepped along.2⟩

/-- What callers keep, and all that happens meanwhile, a run keeps. -/
theorem after_induction {P : Exchange → Prop} {holds : Exchange → Step → Prop}
    {steps : List Step} (enter : ∀ y s, P y → holds y s → P (y.enter s))
    (undergo : ∀ y, ∀ h ∈ x.history steps, P y → P (y.undergo h))
    (start : P x) (along : x.Along holds steps) : P (x.after steps) := by
  induction steps generalizing x with
  | nil => exact start
  | cons s rest ih =>
      have stepped : P (x.step s).2 := by
        rw [step_snd]
        refine undergoAll_induction ?_ (enter x s start along.1)
        intro y h member
        exact undergo y h (List.mem_append_left _ member)
      refine ih ?_ stepped along.2
      intro y h member
      exact undergo y h (List.mem_append_right _ member)

theorem undergo_refusal (id : RequestId) (failure : Failure) :
    x.undergo (.refusal id failure) = x.settle id (·.deliver (.error failure)) :=
  x.reject_eq id failure

theorem undergo_cancel (id : RequestId) :
    x.undergo (.event (.cancel id)) = x.settle id Mailbox.giveUp :=
  congrArg Prod.snd (x.cancel_eq id)

theorem undergo_frame {text : String} {id : RequestId} {reply : Reply}
    (answers : ReplyFrame.answer? text = some (id, reply)) :
    x.undergo (.event (.frame text)) = x.settle id (·.deliver reply.outcome) :=
  congrArg Prod.snd (x.receive_of_answer? id answers)

theorem undergo_frame_of_none {text : String} (answers : ReplyFrame.answer? text = none) :
    x.undergo (.event (.frame text)) = x := by
  rcases x.receive_of_answer?_none answers with dropped | dropped <;>
    exact congrArg Prod.snd dropped

theorem undergo_close (reason : String) :
    x.undergo (.event (.close reason)) = (x.close reason).2 := rfl

/-- What a happening amounts to: it settles one identifier, or ends the connection, or does nothing. -/
theorem undergo_cases (x : Exchange) (h : Happening) :
    x.undergo h = x ∨
      (∃ id f, Mailbox.Settles f ∧ x.undergo h = x.settle id f) ∨
      ∃ reason, h = .event (.close reason) ∧ x.undergo h = (x.close reason).2 := by
  match h with
  | .refusal id failure =>
      exact Or.inr (Or.inl ⟨id, _, Mailbox.settles_deliver _, undergo_refusal id failure⟩)
  | .event (.cancel id) => exact Or.inr (Or.inl ⟨id, _, Mailbox.settles_giveUp, undergo_cancel id⟩)
  | .event (.close reason) => exact Or.inr (Or.inr ⟨reason, rfl, rfl⟩)
  | .event (.frame text) =>
      cases answers : ReplyFrame.answer? text with
      | some answer =>
          exact Or.inr (Or.inl ⟨_, _, Mailbox.settles_deliver _, undergo_frame answers⟩)
      | none => exact Or.inl (undergo_frame_of_none answers)

@[simp] theorem undergo_ids (x : Exchange) (h : Happening) : (x.undergo h).ids = x.ids := by
  rcases undergo_cases x h with same | ⟨id, f, -, same⟩ | ⟨reason, -, same⟩
  · rw [same]
  · rw [same, settle_ids]
  · rw [same, close_ids]

@[simp] theorem undergo_rejectsOnClose (x : Exchange) (h : Happening) :
    (x.undergo h).rejectsOnClose = x.rejectsOnClose := by
  rcases undergo_cases x h with same | ⟨id, f, -, same⟩ | ⟨reason, -, same⟩
  · rw [same]
  · rw [same, settle_rejectsOnClose]
  · rw [same, close_rejectsOnClose]

@[simp] theorem undergoAll_ids (hs : List Happening) : (x.undergoAll hs).ids = x.ids :=
  undergoAll_induction (fun y h _ same => (undergo_ids y h).trans same) rfl

@[simp] theorem undergoAll_rejectsOnClose (hs : List Happening) :
    (x.undergoAll hs).rejectsOnClose = x.rejectsOnClose :=
  undergoAll_induction (fun y h _ same => (undergo_rejectsOnClose y h).trans same) rfl

theorem after_rejectsOnClose (steps : List Step) :
    (x.after steps).rejectsOnClose = x.rejectsOnClose := by
  induction steps generalizing x with
  | nil => rfl
  | cons s rest ih =>
      rw [after_cons, ih, step_snd, undergoAll_rejectsOnClose, enter_rejectsOnClose]

namespace Stage

variable {g : Stage}

theorem mem_path_self (g : Stage) (ms : List Move) : g ∈ g.path ms := by
  cases ms <;> simp [path]

theorem mem_path_append {m : Stage} (first second : List Move) :
    m ∈ g.path (first ++ second) ↔ m ∈ g.path first ∨ m ∈ (first.foldl next g).path second := by
  induction first generalizing g with
  | nil =>
      have start := g.mem_path_self second
      simp only [List.nil_append, path, List.mem_singleton, List.foldl_nil]
      constructor
      · exact Or.inr
      · rintro (rfl | member)
        · exact start
        · exact member
  | cons move rest ih => simp only [List.cons_append, path, List.mem_cons, ih, List.foldl_cons, or_assoc]

theorem foldl_outside (g : Stage) (hs : List Happening) :
    (hs.map .outside).foldl next g = ⟨g.past ++ hs, g.exchange.undergoAll hs⟩ := by
  induction hs generalizing g with
  | nil => simp
  | cons h rest ih => simp [ih, next]

theorem foldl_mem_path (g : Stage) (ms : List Move) : ms.foldl next g ∈ g.path ms := by
  induction ms generalizing g with
  | nil => simp [path]
  | cons move rest ih => simp [path, ih]

theorem foldl_moves (x : Exchange) (past : List Happening) (steps : List Step) :
    (x.moves steps).foldl next ⟨past, x⟩ = ⟨past ++ x.history steps, x.after steps⟩ := by
  induction steps generalizing x past with
  | nil => simp [moves, history]
  | cons s rest ih =>
      rw [moves, List.cons_append, List.foldl_cons, List.foldl_append, foldl_outside]
      simp only [next, ← step_snd]
      rw [ih, history, after_cons, List.append_assoc]

theorem path_induction {P : Stage → Prop} {ms : List Move}
    (next : ∀ g, ∀ m ∈ ms, P g → P (g.next m)) (start : P g) : ∀ m ∈ g.path ms, P m := by
  induction ms generalizing g with
  | nil => simpa [path] using start
  | cons move rest ih =>
      rw [path, List.forall_mem_cons]
      refine ⟨start, ih ?_ (next g move List.mem_cons_self start)⟩
      intro f m member
      exact next f m (List.mem_cons_of_mem move member)

/-- What every move relates, a path relates from each point to all later ones. -/
theorem path_pairwise {R : Stage → Stage → Prop} (trans : ∀ {f g h}, R f g → R g h → R f h)
    (next : ∀ g m, R g (g.next m)) (g : Stage) (ms : List Move) : (g.path ms).Pairwise R := by
  induction ms generalizing g with
  | nil => exact List.pairwise_singleton R g
  | cons move rest ih =>
      apply List.Pairwise.cons _ (ih (g.next move))
      exact path_induction (fun f m _ before => trans before (next f m)) (next g move)

end Stage

/-- A run comes to its end. -/
theorem after_mem_stages (x : Exchange) (steps : List Step) :
    ⟨x.history steps, x.after steps⟩ ∈ x.stages steps := by
  have last := Stage.foldl_mem_path ⟨[], x⟩ (x.moves steps)
  rwa [Stage.foldl_moves, List.nil_append] at last

theorem stages_induction {P : Exchange → Prop} {holds : Exchange → Step → Prop} {steps : List Step}
    (enter : ∀ y s, P y → holds y s → P (y.enter s)) (undergo : ∀ y h, P y → P (y.undergo h))
    (start : P x) (along : x.Along holds steps) : ∀ m ∈ x.stages steps, P m.exchange := by
  suffices general : ∀ past, ∀ m ∈ Stage.path ⟨past, x⟩ (x.moves steps), P m.exchange from general []
  induction steps generalizing x with
  | nil =>
      intro past m member
      rw [moves, Stage.path, List.mem_singleton] at member
      rwa [member]
  | cons s rest ih =>
      intro past m member
      have entered := enter x s start along.1
      rw [moves, List.cons_append, Stage.path, List.mem_cons, Stage.mem_path_append,
        Stage.foldl_outside] at member
      simp only [Stage.next, ← step_snd] at member
      rcases member with rfl | inside | later
      · exact start
      · refine Stage.path_induction (P := fun g => P g.exchange) ?_ entered m inside
        intro g move among kept
        obtain ⟨h, -, rfl⟩ := List.mem_map.mp among
        exact undergo g.exchange h kept
      · refine ih ?_ along.2 _ m later
        rw [step_snd]
        exact undergoAll_induction (fun y h _ => undergo y h) entered

/-- What marking and settling keep, every happening keeps. -/
theorem undergo_induction {P : Exchange → Prop}
    (ascending : P x → x.pending.Ascending)
    (settle : ∀ y id f, Mailbox.Settles f → P y → P (y.settle id f))
    (mark : ∀ reason, P x → P (x.markClosed reason))
    (h : Happening) (start : P x) : P (x.undergo h) := by
  rcases undergo_cases x h with same | ⟨id, f, settles, same⟩ | ⟨reason, -, same⟩
  · rwa [same]
  · rw [same]
    exact settle x id f settles start
  · rw [same, x.close_snd (ascending start)]
    split
    case isTrue =>
      exact settleAll_induction _ _ _ (fun y id => settle y id _ (Mailbox.settles_deliver _))
        (mark reason start)
    case isFalse => exact mark reason start

end Exchange

end Switchboard
