import Switchboard.Proofs.Exchange.Views

/-! # Requests do not interfere

Whoever watches one request cannot tell which other frames came in: replies to other requests, texts
that are no replies, or identifiers that are written in another way. Two runs that are the same but for
such frames give every caller the same handles and the transport the same frames, and show the same of
the request, step by step.
-/

namespace Switchboard

/-- A frame that is no reply with the token of an identifier. -/
def Event.isForeign (id : RequestId) : Event → Bool
  | .frame text =>
    match ReplyFrame.decode text with
    | .ok (token, _) => token != id.token
    | .error _ => true
  | .cancel _ | .close _ => false

def Happening.isForeign (id : RequestId) : Happening → Bool
  | .event e => e.isForeign id
  | .refusal .. => false

namespace Exchange

/-- A step without foreign frames, if anything is left of it. -/
def Step.relevant? (id : RequestId) : Step → Option Step
  | .dispatch now verb arguments handover =>
    some (.dispatch now verb arguments
      { handover with meanwhile := handover.meanwhile.filter fun e => !e.isForeign id })
  | .event e => if e.isForeign id then none else some (.event e)
  | s => some s

/-- Runs that differ only by frames that are foreign to an identifier, between two steps or inside
handovers: without those frames they are the same. -/
def Alike (id : RequestId) (first second : List Step) : Prop :=
  first.filterMap (Step.relevant? id) = second.filterMap (Step.relevant? id)

/-- What a step shows to whoever watches a request. -/
structure Sight where
  /-- The handle that the step returns. -/
  returned : Option (RequestId × Ticket)
  /-- Whether the request is pending, each time that something happens during the step. -/
  meanwhile : List Bool
  /-- What the step finds in a mailbox of the request, if it looks into one. -/
  found : Option (Option Outcome)
  /-- Whether the request is pending after the step. -/
  pending : Bool

def Observation.returned? : Observation → Option (RequestId × Ticket)
  | .dispatched d => some (d.id, d.ticket)
  | _ => none

def Observation.outcome? : Observation → Option (Option Outcome)
  | .outcome o => some o
  | _ => none

/-- Whether a request is pending as each happening comes that is not foreign to it. -/
def pendingAt (id : RequestId) (x : Exchange) (hs : List Happening) : List Bool :=
  ((x.meetings hs).filter fun m => !m.2.isForeign id).map fun m => decide (id ∈ m.1.pending.ids)

def sight (id : RequestId) (x : Exchange) (s : Step) : Sight where
  returned := (x.step s).1.returned?
  meanwhile := (x.enter s).pendingAt id (x.happenings s)
  found :=
    if s.ticket?.bind x.mailroom.owner? = some id then (x.step s).1.outcome? else none
  pending := decide (id ∈ (x.step s).2.pending.ids)

/-- What the steps of a run give, put together in order. -/
def gather {α : Type} (f : Exchange → Step → List α) (x : Exchange) : List Step → List α
  | [] => []
  | s :: rest => f x s ++ (x.step s).2.gather f rest

/-- What a run shows, step by step, to whoever watches a request and sees no foreign frames. -/
def sights (id : RequestId) (x : Exchange) (steps : List Step) : List Sight :=
  x.gather (fun y s => if (s.relevant? id).isSome then [y.sight id s] else []) steps

/-- Two runs are the same to whoever watches a request, to the source of identifiers and to the
transport. -/
structure Indistinguishable (id : RequestId) (x : Exchange) (first second : List Step) : Prop where
  sights : x.sights id first = x.sights id second
  issued : x.issued first = x.issued second
  sent : x.sentFrames first = x.sentFrames second

variable {x y : Exchange} {id : RequestId} {s t : Step}

section Foreign

theorem native_of_answer? {text : String} {reply : Reply}
    (answers : ReplyFrame.answer? text = some (id, reply)) :
    (Event.frame text).isForeign id = false := by
  rw [ReplyFrame.answer?_eq_some_iff] at answers
  simp [Event.isForeign, answers]

theorem View.undergo_of_foreign (v : View) {h : Happening} (foreign : h.isForeign id) :
    v.undergo id h = v := by
  match h with
  | .event (.frame text) =>
      rw [undergo]
      cases answers : ReplyFrame.answer? text with
      | none => rfl
      | some answer =>
          obtain ⟨other, reply⟩ := answer
          apply if_neg
          rintro rfl
          have native := native_of_answer? answers
          simp [Happening.isForeign, native] at foreign
  | .event (.cancel _) | .event (.close _) | .refusal .. => contradiction

theorem View.foldl_undergo_filter (v : View) (hs : List Happening) :
    (hs.filter fun h => !h.isForeign id).foldl (fun v h => v.undergo id h) v =
      hs.foldl (fun v h => v.undergo id h) v := by
  induction hs generalizing v with
  | nil => rfl
  | cons h rest ih =>
      by_cases foreign : h.isForeign id
      · simp [foreign, v.undergo_of_foreign foreign, ih]
      · simp [foreign, ih]

theorem filter_happenings (handover : Handover) (other : RequestId) :
    (handover.happenings other).filter (fun h => !h.isForeign id) =
      { handover with meanwhile := handover.meanwhile.filter fun e => !e.isForeign id }.happenings
        other := by
  have refusals : (handover.failure.toList.map (Happening.refusal other)).filter
      (fun h => !h.isForeign id) = handover.failure.toList.map (Happening.refusal other) := by
    cases handover.failure <;> simp [Happening.isForeign]
  simp only [Handover.happenings, List.filter_append, refusals, List.filter_map]
  rfl

end Foreign

section Steps

theorem relevant?_cases (kept : s.relevant? id = some t) :
    (∃ now verb arguments handover, s = .dispatch now verb arguments handover ∧
      t = .dispatch now verb arguments
        { handover with meanwhile := handover.meanwhile.filter fun e => !e.isForeign id }) ∨
    (∃ e, s = .event e ∧ t = s ∧ ¬ e.isForeign id) ∨ (∃ ticket, s.ticket? = some ticket ∧ t = s) := by
  cases s with
  | dispatch now verb arguments handover =>
      cases kept
      exact Or.inl ⟨now, verb, arguments, handover, rfl, rfl⟩
  | event e =>
      rw [Step.relevant?] at kept
      split at kept
      · contradiction
      case isFalse native =>
        cases kept
        exact Or.inr (Or.inl ⟨e, rfl, rfl, native⟩)
  | poll ticket | waitFor ticket _ | wait ticket | discard ticket =>
      cases kept
      exact Or.inr (Or.inr ⟨ticket, rfl, rfl⟩)

theorem relevant?_eq_none (dropped : s.relevant? id = none) : ∃ e, s = .event e ∧ e.isForeign id := by
  cases s with
  | event e =>
      rw [Step.relevant?] at dropped
      split at dropped
      case isTrue foreign => exact ⟨e, rfl, foreign⟩
      case isFalse => contradiction
  | dispatch | poll | waitFor | wait | discard => contradiction

/-- Two states that are the same in all that concerns one identifier. -/
structure AgreeOn (id : RequestId) (x y : Exchange) : Prop where
  first : Coherent x
  second : Coherent y
  view : x.view id = y.view id

namespace AgreeOn

variable (agree : AgreeOn id x y)
include agree

theorem ids : x.ids = y.ids := congrArg View.ids agree.view

theorem closedFor : x.closedFor = y.closedFor := congrArg View.closedFor agree.view

theorem nextTicket : x.mailroom.nextTicket = y.mailroom.nextTicket := by
  have lengths := congrArg (fun v => v.boxes.length) agree.view
  simp only [Exchange.view, List.length_map] at lengths
  exact lengths

theorem pending : id ∈ x.pending.ids ↔ id ∈ y.pending.ids := by
  rw [view_pending, view_pending, agree.view]

theorem numbered (kept : s.relevant? id = some t) (numbered : x.Numbered s) : y.Numbered t := by
  rcases relevant?_cases kept with ⟨_, _, _, _, rfl, rfl⟩ | ⟨e, rfl, rfl, -⟩ | ⟨ticket, looks, rfl⟩
  · have room : x.ids.HasNext := numbered
    rwa [agree.ids] at room
  · trivial
  · cases t with
    | dispatch | event => contradiction
    | poll | waitFor | wait | discard => trivial

theorem undergo (h : Happening) : AgreeOn id (x.undergo h) (y.undergo h) where
  first := agree.first.undergo h
  second := agree.second.undergo h
  view := by rw [agree.first.view_undergo, agree.second.view_undergo, agree.view]

theorem undergo_foreign {h : Happening} (foreign : h.isForeign id) : AgreeOn id (x.undergo h) y where
  first := agree.first.undergo h
  second := agree.second
  view := by rw [agree.first.view_undergo, View.undergo_of_foreign _ foreign, agree.view]

theorem undergoAll (hs : List Happening) :
    AgreeOn id (x.undergoAll hs) (y.undergoAll (hs.filter fun h => !h.isForeign id)) := by
  induction hs generalizing x y with
  | nil => exact agree
  | cons h rest ih =>
      by_cases foreign : h.isForeign id
      · simpa [foreign] using ih (agree.undergo_foreign foreign)
      · simpa [foreign] using ih (agree.undergo h)

theorem enter (kept : s.relevant? id = some t) (numbered : x.Numbered s) :
    AgreeOn id (x.enter s) (y.enter t) where
  first := agree.first.enter numbered
  second := agree.second.enter (agree.numbered kept numbered)
  view := by
    rw [view_enter, view_enter, agree.view]
    rcases relevant?_cases kept with ⟨_, _, _, _, rfl, rfl⟩ | ⟨e, -, rfl, -⟩ | ⟨ticket, -, rfl⟩ <;> rfl

theorem happenings (kept : s.relevant? id = some t) :
    y.happenings t = (x.happenings s).filter fun h => !h.isForeign id := by
  rcases relevant?_cases kept with
    ⟨now, verb, arguments, handover, rfl, rfl⟩ | ⟨e, rfl, rfl, native⟩ | ⟨ticket, looks, rfl⟩
  · simp only [Exchange.happenings, isClosed, ← agree.closedFor, ← agree.ids, ← filter_happenings]
    by_cases gone : x.closedFor.isSome <;> simp [gone]
  · simp [Exchange.happenings, Happening.isForeign, native]
  · rw [happenings_of_ticket? x looks, happenings_of_ticket? y looks, List.filter_nil]

theorem step (kept : s.relevant? id = some t) (numbered : x.Numbered s) :
    AgreeOn id (x.step s).2 (y.step t).2 := by
  rw [step_snd, step_snd, agree.happenings kept]
  exact (agree.enter kept numbered).undergoAll _

theorem step_foreign (dropped : s.relevant? id = none) : AgreeOn id (x.step s).2 y := by
  obtain ⟨e, rfl, foreign⟩ := relevant?_eq_none dropped
  exact agree.undergo_foreign (h := .event e) foreign

theorem pendingAt (hs : List Happening) :
    x.pendingAt id hs = y.pendingAt id (hs.filter fun h => !h.isForeign id) := by
  induction hs generalizing x y with
  | nil => rfl
  | cons h rest ih =>
      by_cases foreign : h.isForeign id
      · have later := ih (agree.undergo_foreign foreign)
        simpa [Exchange.pendingAt, meetings, foreign] using later
      · have later := ih (agree.undergo h)
        simp only [Exchange.pendingAt] at later
        simp [Exchange.pendingAt, meetings, foreign, agree.pending, later]

/-- What a dispatch returns depends on the source of identifiers, the end of the connection and the
number of mailboxes, not on what comes in meanwhile. -/
theorem dispatched (now : UInt64) (verb : String) (arguments : List String)
    (first second : Handover) :
    let d := (x.dispatch now verb arguments first).1
    let e := (y.dispatch now verb arguments second).1
    d.id = e.id ∧ d.ticket = e.ticket ∧ d.frame = e.frame := by
  cases gone : x.closedFor with
  | some reason =>
      have goneToo := agree.closedFor ▸ gone
      simp [dispatch, gone, goneToo, agree.ids, agree.nextTicket]
  | none =>
      have openToo := agree.closedFor ▸ gone
      simp [dispatch, gone, openToo, issue, agree.ids, agree.nextTicket]

theorem frame? (kept : s.relevant? id = some t) : (x.step s).1.frame? = (y.step t).1.frame? := by
  rcases relevant?_cases kept with
    ⟨now, verb, arguments, handover, rfl, rfl⟩ | ⟨e, rfl, rfl, -⟩ | ⟨ticket, looks, rfl⟩
  · exact (agree.dispatched now verb arguments handover _).2.2
  · rfl
  · cases t with
    | dispatch | event => contradiction
    | poll | waitFor | wait | discard => rfl

theorem issuedBy (kept : s.relevant? id = some t) : x.issuedBy s = y.issuedBy t := by
  rcases relevant?_cases kept with
    ⟨now, verb, arguments, handover, rfl, rfl⟩ | ⟨e, rfl, rfl, -⟩ | ⟨ticket, looks, rfl⟩
  · cases gone : x.closedFor with
    | some reason =>
        rw [issuedBy_of_closed gone, issuedBy_of_closed (agree.closedFor ▸ gone)]
    | none => rw [issuedBy_of_open gone, issuedBy_of_open (agree.closedFor ▸ gone), agree.ids]
  · rfl
  · rw [issuedBy_of_ticket? looks, issuedBy_of_ticket? looks]

theorem located {ticket : Ticket} (owned : x.mailroom.owner? ticket = some id) :
    ∃ box, x.mailroom.boxes[ticket]? = some (id, box) ∧
      y.mailroom.boxes[ticket]? = some (id, box) := by
  have here := Mailroom.located_of_owner? owned
  refine ⟨_, here, ?_⟩
  rwa [← view_located, ← agree.view, view_located]

theorem sight (kept : s.relevant? id = some t) (numbered : x.Numbered s) :
    x.sight id s = y.sight id t := by
  have meanwhile := (agree.enter kept numbered).pendingAt (x.happenings s)
  have after := (agree.step kept numbered).pending
  rw [← agree.happenings kept] at meanwhile
  simp only [Exchange.sight, meanwhile, after]
  rcases relevant?_cases kept with
    ⟨now, verb, arguments, handover, rfl, rfl⟩ | ⟨e, rfl, rfl, -⟩ | ⟨ticket, looks, rfl⟩
  · obtain ⟨named, placed, -⟩ := agree.dispatched now verb arguments handover
      { handover with meanwhile := handover.meanwhile.filter fun e => !e.isForeign id }
    simp [Exchange.step, Observation.returned?, Step.ticket?, named, placed]
  · simp [Exchange.step, Observation.returned?, Step.ticket?]
  · have owners : x.mailroom.owner? ticket = y.mailroom.owner? ticket := by
      rw [view_owner? x id, view_owner? y id, agree.view]
    have found : x.mailroom.owner? ticket = some id → (x.step t).1.outcome? = (y.step t).1.outcome? := by
      intro owned
      obtain ⟨box, here, there⟩ := agree.located owned
      cases t with
      | dispatch | event => contradiction
      | poll other =>
          cases looks
          simp [Exchange.step, Observation.outcome?, poll_fst here, poll_fst there]
      | waitFor other limit =>
          cases looks
          simp [Exchange.step, Observation.outcome?, waitFor_fst here, waitFor_fst there]
      | wait other =>
          cases looks
          simp [Exchange.step, Observation.outcome?, wait_fst, poll_fst here, poll_fst there]
      | discard other => rfl
    have unreturned : ∀ z : Exchange, (z.step t).1.returned? = none := by
      intro z
      cases t with
      | dispatch | event => contradiction
      | poll | waitFor | wait | discard => rfl
    simp only [unreturned, looks, Option.bind_some, owners] at found ⊢
    by_cases own : y.mailroom.owner? ticket = some id
    · simp [own, found own]
    · simp [own]

end AgreeOn

end Steps

section Runs

theorem isSome_relevant? (kept : s.relevant? id = some t) : (t.relevant? id).isSome := by
  rcases relevant?_cases kept with ⟨_, _, _, _, rfl, rfl⟩ | ⟨e, -, rfl, -⟩ | ⟨ticket, -, rfl⟩
  · rfl
  · simp [kept]
  · simp [kept]

theorem gather_relevant {α : Type} {f : Exchange → Step → List α}
    (same : ∀ {x y : Exchange} {s t : Step}, AgreeOn id x y → s.relevant? id = some t →
      x.Numbered s → f x s = f y t)
    (silent : ∀ {x : Exchange} {s : Step}, s.relevant? id = none → f x s = [])
    (agree : AgreeOn id x y) {steps : List Step} (numbered : x.Along Numbered steps) :
    x.gather f steps = y.gather f (steps.filterMap (Step.relevant? id)) := by
  induction steps generalizing x y with
  | nil => rfl
  | cons s rest ih =>
      obtain ⟨room, later⟩ := numbered
      cases kept : s.relevant? id with
      | none =>
          rw [List.filterMap_cons_none kept, gather, silent kept, List.nil_append]
          exact ih (agree.step_foreign kept) later
      | some t =>
          rw [List.filterMap_cons_some kept, gather, gather, same agree kept room]
          exact congrArg (f y t ++ ·) (ih (agree.step kept room) later)

theorem issued_eq_gather (x : Exchange) (steps : List Step) :
    x.issued steps = x.gather issuedBy steps := by
  induction steps generalizing x with
  | nil => rfl
  | cons s rest ih => rw [issued, gather, ih]

theorem sentFrames_eq_gather (x : Exchange) (steps : List Step) :
    x.sentFrames steps = x.gather (fun y s => (y.step s).1.frame?.toList) steps := by
  induction steps generalizing x with
  | nil => rfl
  | cons s rest ih => rw [sentFrames_cons, gather, ih]

theorem indistinguishable_relevant (id : RequestId) (coherent : Coherent x) {steps : List Step}
    (numbered : x.Along Numbered steps) :
    Indistinguishable id x steps (steps.filterMap (Step.relevant? id)) := by
  have agree : AgreeOn id x x := ⟨coherent, coherent, rfl⟩
  constructor
  · refine gather_relevant ?_ ?_ agree numbered
    · intro y z s t agree kept room
      simp only [kept, isSome_relevant? kept, Option.isSome_some, if_true, agree.sight kept room]
    · intro y s dropped
      simp [dropped]
  · rw [issued_eq_gather, issued_eq_gather]
    refine gather_relevant (fun agree kept _ => agree.issuedBy kept) ?_ agree numbered
    intro y s dropped
    obtain ⟨e, rfl, -⟩ := relevant?_eq_none dropped
    rfl
  · rw [sentFrames_eq_gather, sentFrames_eq_gather]
    refine gather_relevant (fun agree kept _ => by rw [agree.frame? kept]) ?_ agree numbered
    intro y s dropped
    obtain ⟨e, rfl, -⟩ := relevant?_eq_none dropped
    rfl

/-- Requests do not interfere. Two runs that differ only by frames that do not answer a request show
the same of it at every step that they share, and hand out the same identifiers and frames. -/
theorem requests_do_not_interfere (strategy : IdStrategy) (rejectsOnClose : Bool) (id : RequestId)
    (first second : List Step) (alike : Alike id first second)
    (numberedFirst : (fresh strategy rejectsOnClose).Along Numbered first)
    (numberedSecond : (fresh strategy rejectsOnClose).Along Numbered second) :
    Indistinguishable id (fresh strategy rejectsOnClose) first second := by
  have coherent := Coherent.fresh strategy rejectsOnClose
  have left := indistinguishable_relevant id coherent numberedFirst
  have right := indistinguishable_relevant id coherent numberedSecond
  rw [Alike] at alike
  rw [alike] at left
  exact ⟨left.sights.trans right.sights.symm, left.issued.trans right.issued.symm,
    left.sent.trans right.sent.symm⟩

/-- The reply `success` to a token. -/
def success (token : String) : Event :=
  .frame ("ID " ++ token ++ " \x7b\"status\":\"success\"\x7d")

/-- A run in which other tokens are answered, one of them while a frame is handed over, and a text comes
in that is no reply. -/
def noisy : List Step :=
  [.dispatch 0 "GET" ["a"] { meanwhile := [success "01", .frame "noise"] },
    .event (success "2"),
    .dispatch 0 "GET" ["b"] {},
    .event (success "2"),
    .poll 0,
    .event (success "1"),
    .poll 0]

/-- The same run without them. -/
def quiet : List Step :=
  [.dispatch 0 "GET" ["a"] {}, .dispatch 0 "GET" ["b"] {}, .poll 0, .event (success "1"), .poll 0]

theorem requests_do_not_interfere_noisy :
    Alike ⟨1⟩ noisy quiet ∧ (fresh .counter true).Along Numbered noisy ∧
      (fresh .counter true).Along Numbered quiet ∧
      Indistinguishable ⟨1⟩ (fresh .counter true) noisy quiet := by
  have padded : (success "01").isForeign ⟨1⟩ = true := by cbv
  have another : (success "2").isForeign ⟨1⟩ = true := by cbv
  have own : (success "1").isForeign ⟨1⟩ = false := by cbv
  have noise : (Event.frame "noise").isForeign ⟨1⟩ = true := by cbv
  have alike : Alike ⟨1⟩ noisy quiet := by
    simp [Alike, noisy, quiet, Step.relevant?, padded, another, own, noise]
  have numberedNoisy : (fresh .counter true).Along Numbered noisy := by decide
  have numberedQuiet : (fresh .counter true).Along Numbered quiet := by decide
  exact ⟨alike, numberedNoisy, numberedQuiet,
    requests_do_not_interfere .counter true ⟨1⟩ noisy quiet alike numberedNoisy numberedQuiet⟩

end Runs

end Exchange

end Switchboard
