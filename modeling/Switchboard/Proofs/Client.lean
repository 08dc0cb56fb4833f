import Switchboard.Client
import Switchboard.Proofs.Exchange.Closing
import Switchboard.Proofs.Exchange.Rollback
import Switchboard.Proofs.Interleaving.Soundness

/-! # Calls of the client

A call sends one request and waits for it with a limit. When it returns, the request is over: something
ended it while its frame was handed over, or the time ran out and the client withdrew it. Nothing else
shows that the call was there, but for an identifier that is used up and a mailbox that no one holds.

There is one way to get around this. A transport may refuse a frame with a timeout of its own, and that
names a request as the client's own timeouts do. The client takes it for one of them, and withdraws the
request that it names, whoever waits for it.
-/

namespace Switchboard

namespace Query

/-- A query that the client offers. -/
inductive Offered : {α : Type} → Query α → Prop where
  | raw (command : Command) : Offered (raw command)
  | exists (name : String) : Offered («exists» name)
  | create (name : String) : Offered (create name)
  | deleteCollection (collection : String) : Offered (deleteCollection collection)
  | list (collection : String) (condition : Option Condition) : Offered (list collection condition)
  | get (collection document : String) : Offered (get collection document)
  | getAs {α : Type} (decoder : Json.Decoder α) (collection document : String) :
      Offered (getAs decoder collection document)
  | set (collection document : String) (v : Json) : Offered (set collection document v)
  | setAs {α : Type} {encoder : Json.Encoder α} {collection document : String} {a : α} {q : Query Unit}
      (written : setAs encoder collection document a = .ok q) : Offered q
  | delete (collection document : String) : Offered (delete collection document)

/-- A value that can be written is stored as any other is, and one that cannot be is a fault of its own. -/
theorem setAs_cases {α : Type} (encoder : Json.Encoder α) (collection document : String) (a : α) :
    (∃ body, encoder a = .ok body ∧
        setAs encoder collection document a = .ok (done (.set collection document body))) ∨
      ∃ e, encoder a = .error e ∧ setAs encoder collection document a = .error (.serialization e) := by
  cases written : encoder a with
  | ok body => exact Or.inl ⟨body, rfl, by simp [setAs, Command.storeAs, written, Except.map]⟩
  | error e => exact Or.inr ⟨e, rfl, by simp [setAs, Command.storeAs, written, Except.map]⟩

/-- A JSON value can always be written. -/
example (collection document : String) (v : Json) :
    setAs .any collection document v = .ok (set collection document v) := rfl

/-- Data that is not what was asked for is a fault of its own, and no timeout. -/
theorem Offered.accept_ne_timeout {α : Type} {q : Query α} (offered : q.Offered) (data : Json)
    (id : RequestId) (waited : UInt64) : q.accept data ≠ .error (.timeout id waited) := by
  cases offered with
  | raw | create | deleteCollection | list | get | set | delete => nofun
  | @setAs _ encoder collection document a q written =>
      obtain ⟨body, -, same⟩ | ⟨e, -, same⟩ := setAs_cases encoder collection document a <;>
        rw [same] at written
      · obtain rfl := Except.ok.inj written
        nofun
      · contradiction
  | «exists» => cases data <;> nofun
  | getAs decoder =>
      simp only [Query.getAs]
      cases decoder data <;> nofun

theorem Offered.bind_eq_timeout {α : Type} {q : Query α} (offered : q.Offered) (outcome : Outcome)
    (id : RequestId) (waited : UInt64) :
    outcome.bind q.accept = .error (.timeout id waited) ↔ outcome = .error (.timeout id waited) := by
  cases outcome with
  | ok data => simpa [Except.bind] using offered.accept_ne_timeout data id waited
  | error failure => simp [Except.bind]

end Query

namespace Exchange

variable {x y : Exchange} {ticket : Ticket} {id : RequestId} {box : Mailbox}

/-- What is left when a client has got an outcome: a request that it reports as timed out is
withdrawn. -/
def withdrawNamed (x : Exchange) : Outcome → Exchange
  | .error (.timeout id _) => (x.cancel id).2
  | _ => x

/-- The exchange with another source of identifiers and one mailbox more, which no one holds. -/
def withSpare (x : Exchange) (ids : IdSource) (id : RequestId) : Exchange :=
  { x with ids, mailroom := x.mailroom.open id .discarded }

theorem timeout_or_not (outcome : Outcome) :
    (∃ id waited, outcome = .error (.timeout id waited)) ∨
      ∀ id waited, outcome ≠ .error (.timeout id waited) := by
  by_cases reported : ∃ id waited, outcome = .error (.timeout id waited)
  · exact Or.inl reported
  · exact Or.inr fun id waited same => reported ⟨id, waited, same⟩

theorem withdrawNamed_timeout (x : Exchange) (id : RequestId) (waited : UInt64) :
    x.withdrawNamed (.error (.timeout id waited)) = x.settle id Mailbox.giveUp :=
  congrArg Prod.snd (x.cancel_eq id)

theorem withdrawNamed_of_ne {outcome : Outcome}
    (other : ∀ id waited, outcome ≠ .error (.timeout id waited)) : x.withdrawNamed outcome = x := by
  match outcome with
  | .ok data => rfl
  | .error failure =>
      cases failure with
      | timeout id waited => exact absurd rfl (other id waited)
      | io | serialization | protocol | remote | disconnected | abandoned | network | config => rfl

@[simp] theorem withdrawNamed_ids (x : Exchange) (outcome : Outcome) :
    (x.withdrawNamed outcome).ids = x.ids := by
  rcases timeout_or_not outcome with ⟨other, waited, rfl⟩ | quiet
  · rw [withdrawNamed_timeout, settle_ids]
  · rw [withdrawNamed_of_ne quiet]

theorem Coherent.withdrawNamed (coherent : Coherent x) (outcome : Outcome) :
    Coherent (x.withdrawNamed outcome) := by
  rcases timeout_or_not outcome with ⟨other, waited, rfl⟩ | quiet
  · rw [withdrawNamed_timeout]
    exact coherent.settle other Mailbox.settles_giveUp
  · rwa [withdrawNamed_of_ne quiet]

theorem not_mem_withdrawNamed (absent : id ∉ x.pending.ids) (outcome : Outcome) :
    id ∉ (x.withdrawNamed outcome).pending.ids := by
  rcases timeout_or_not outcome with ⟨other, waited, rfl⟩ | quiet
  · rw [withdrawNamed_timeout, settle_pending, PendingTable.ids_erase]
    exact fun member => absent (List.mem_of_mem_filter member)
  · rwa [withdrawNamed_of_ne quiet]

theorem Beside.withdrawNamed (beside : Beside id ticket x y) (first : Coherent x)
    (second : Coherent y) (outcome : Outcome) :
    Beside id ticket (x.withdrawNamed outcome) (y.withdrawNamed outcome) := by
  rcases timeout_or_not outcome with ⟨other, waited, rfl⟩ | quiet
  · rw [withdrawNamed_timeout, withdrawNamed_timeout]
    exact beside.settle first second other _
  · rwa [withdrawNamed_of_ne quiet, withdrawNamed_of_ne quiet]

section Finished

/-- The request of an identifier is over for good: it is not pending, and no later request gets its
identifier. -/
structure Finished (x : Exchange) (id : RequestId) : Prop extends Ordered x where
  absent : id ∉ x.pending.ids
  past : x.isClosed ∨ id.value ≤ x.ids.last

namespace Finished

theorem undergo (finished : Finished x id) (h : Happening) : Finished (x.undergo h) id where
  toOrdered := finished.toOrdered.undergo h
  absent := fun present => finished.absent ((x.ids_undergo_sublist h).subset present)
  past := by
    rw [undergo_ids]
    refine finished.past.imp_left fun closed => ?_
    rw [isClosed, undergo_closedFor, Option.isSome_or]
    exact Bool.or_eq_true_iff.mpr (Or.inl closed)

theorem enter (finished : Finished x id) {s : Step} (issuable : x.Issuable s) : Finished (x.enter s) id := by
  have ordered := finished.toOrdered.enter issuable
  rcases x.enter_cases s with
    ⟨now, verb, arguments, handover, rfl, ⟨isOpen, same⟩ | ⟨reason, -, same⟩⟩ | ⟨e, -, same⟩ |
    ⟨ticket, -, same | same⟩ <;> rw [same] at ordered ⊢
  · -- A new request has an identifier past all that were handed out, so it is not this one.
    have room := issuable isOpen
    have old : id.value ≤ x.ids.last := finished.past.resolve_left (by simp [isClosed, isOpen])
    have new : id.value.toNat < (x.ids.peek now).value.toNat :=
      Nat.lt_of_le_of_lt (UInt64.le_iff_toNat_le.mp old) (IdSource.last_lt_peek room now)
    refine ⟨ordered, ?_, Or.inr (UInt64.le_iff_toNat_le.mpr (Nat.le_of_lt new))⟩
    intro present
    obtain ⟨p, member, rfl⟩ := PendingTable.mem_ids.mp present
    rcases (PendingTable.mem_insert (finished.toOrdered.peek_not_mem room now)).mp member with rfl | before
    · exact absurd new (Nat.lt_irrefl _)
    · exact finished.absent (PendingTable.mem_ids.mpr ⟨p, before, rfl⟩)
  all_goals exact ⟨ordered, finished.absent, finished.past⟩

theorem after (finished : Finished x id) {steps : List Step} (along : x.Along Issuable steps) :
    Finished (x.after steps) id :=
  after_induction (P := fun y => Finished y id) (fun _ _ kept issuable => kept.enter issuable)
    (fun _ h _ kept => kept.undergo h) finished along

/-- A frame with the identifier matches nothing and changes nothing. -/
theorem receive (finished : Finished x id) {text : String} {reply : Reply}
    (decoded : ReplyFrame.decode text = .ok (id.token, reply)) :
    x.receive text = (.unmatched, x) := by
  rw [x.receive_of_answer? id (ReplyFrame.answer?_eq_some_iff.mpr decoded), if_neg finished.absent,
    settle_of_not_mem x id _ finished.absent]

end Finished

end Finished

section Besides

theorem Beside.discard_eq (beside : Beside id ticket x y) (done : id ∉ y.pending.ids) :
    y.discard ticket = x.withSpare y.ids id := by
  obtain ⟨box, room⟩ := beside.mailroom
  have located : y.mailroom.boxes[ticket]? = some (id, box) := by
    rw [room, ← beside.last]
    exact Mailroom.getElem?_open_nextTicket _ _ _
  have same := beside.eq_of_not_mem done located
  rw [same, withSpare, discard, ← beside.last]
  simp only [Mailroom.update_open_nextTicket]

/-- A request that was sent stands beside what the actions inside its send make of the others. -/
theorem Coherent.beside_sent (coherent : Coherent x) (isOpen : x.closedFor = none)
    (room : x.ids.HasNext) (now : UInt64) (verb : String) (arguments : List String)
    (handover : Handover) :
    Beside (x.ids.peek now) x.mailroom.nextTicket (x.performAll handover.meanwhile).2
      (x.dispatch now verb arguments handover).2 := by
  have entered := coherent.issue isOpen room now verb
  have meanwhile := (coherent.beside_issue room now verb).undergoAll coherent entered
    (handover.meanwhile.map .event)
  rw [dispatch_snd_of_open isOpen, performAll_snd, Handover.happenings, undergoAll_append]
  cases handover.failure with
  | none => exact meanwhile
  | some failure => exact (meanwhile.refusal (entered.undergoAll _) failure).1

end Besides

end Exchange

/-- Only the refusal of its frame brings a request a timeout. -/
theorem Happening.outcome?_eq_timeout {id other : RequestId} {waited : UInt64} {rejects : Bool}
    {h : Happening} {reason : Option String} {outcome : Outcome} (ends : h.ends id rejects)
    (brought : h.outcome? id reason = some outcome) :
    outcome = .error (.timeout other waited) ↔ h = .refusal id (.timeout other waited) := by
  match h with
  | .refusal own failure =>
      obtain rfl : own = id := by simpa [Happening.ends] using ends
      obtain rfl := Option.some.inj brought
      simp
  | .event (.cancel own) =>
      obtain rfl := Option.some.inj brought
      simp
  | .event (.close _) =>
      obtain ⟨first, -, rfl⟩ := Option.map_eq_some_iff.mp brought
      simp
  | .event (.frame text) =>
      obtain ⟨reply, answers⟩ := Happening.ends_frame.mp ends
      simp only [Happening.outcome?, ReplyFrame.answer?_eq_some_iff.mp answers] at brought
      obtain rfl := Option.some.inj brought
      cases reply <;> simp [Reply.outcome]

namespace Client

open Exchange

variable {x y : Exchange} {ticket : Ticket} {id : RequestId} {box : Mailbox} {limit : UInt64}

section Waiting

/-- What a client with a limit gets from a mailbox: what it holds, and if nothing comes, the
timeout. -/
def told (id : RequestId) (limit : UInt64) (box : Mailbox) : Outcome :=
  (outcomeOf id box.peek).getD (.error (.timeout id limit))

/-- Once the client has looked and then withdrawn the request that it was told of, nothing is left in
the mailbox: either it was emptied, or the request was its own. -/
theorem spent_of_told (coherent : Coherent x)
    (located : x.mailroom.boxes[ticket]? = some (id, box)) (held : box ≠ .discarded)
    {other : RequestId} {waited : UInt64} (late : told id limit box = .error (.timeout other waited)) :
    ((x.touch ticket Mailbox.emptied).settle other Mailbox.giveUp).mailroom.boxes[ticket]? =
      some (id, .spent) := by
  have looked : (x.touch ticket Mailbox.emptied).mailroom.boxes[ticket]? =
      some (id, box.emptied) := by
    rw [touch, Mailroom.getElem?_update_self, located, Option.map_some]
  rw [← undergo_cancel]
  cases box with
  | waiting =>
      -- The timeout is the client's own, so it names the request of this very mailbox.
      obtain ⟨rfl, -⟩ : id = other ∧ limit = waited := by
        simpa [told, Mailbox.peek, outcomeOf] using late
      have given := (coherent.look ticket).undergo_waiting looked (.event (.cancel id))
      rwa [Happening.leaves, if_pos rfl] at given
  | holding | spent => exact (coherent.look ticket).undergo_settled (by simp [Mailbox.emptied]) looked _
  | discarded => exact absurd rfl held

/-- A wait with a limit returns what the mailbox tells, withdraws the request that this names as timed
out, and gives the ticket up. -/
theorem wait_eq (coherent : Coherent x) (located : x.mailroom.boxes[ticket]? = some (id, box))
    (held : box ≠ .discarded) (limit : UInt64) :
    ({ limit := some limit } : Client).wait x ticket =
      (some (told id limit box), (x.withdrawNamed (told id limit box)).discard ticket) := by
  have waited : x.waitFor ticket limit =
      (some (told id limit box), x.touch ticket Mailbox.emptied) :=
    Prod.ext (waitFor_fst located limit) ((x.waitFor_snd ticket limit).trans (x.poll_snd ticket))
  rcases timeout_or_not (told id limit box) with ⟨other, ms, late⟩ | quiet
  · -- The second look finds nothing but that the request was withdrawn, and the timeout stands.
    have nothing : (((x.touch ticket Mailbox.emptied).settle other Mailbox.giveUp).poll ticket).1 =
        some (.error (.abandoned id)) := poll_fst (spent_of_told coherent located held late)
    rw [late] at waited ⊢
    simp only [Client.wait, waited, withdraw, cancel_eq, Scene.lookAgain_eq, nothing, poll_discard,
      touch_settle_discard, withdrawNamed_timeout]
  · rw [withdrawNamed_of_ne quiet, ← x.touch_discard Mailbox.emptied]
    cases outcome : told id limit box with
    | ok data => simp only [Client.wait, waited, outcome]
    | error failure =>
        cases failure with
        | timeout other ms => exact absurd outcome (quiet other ms)
        | io | serialization | protocol | remote | disconnected | abandoned | network | config =>
            simp only [Client.wait, waited, outcome]

/-- What a wait with a limit returns and leaves behind. -/
structure Waited (x : Exchange) (ticket : Ticket) (id : RequestId) (limit : UInt64)
    (outcome : Option Outcome) (y : Exchange) : Prop where
  /-- A pending request times out, and just its entry is removed. -/
  timedOut : id ∈ x.pending.ids → outcome = some (.error (.timeout id limit)) ∧
    y.pending = x.pending.erase id ∧ y = (x.cancel id).2.discard ticket
  /-- Otherwise the wait returns what a look into the mailbox finds. -/
  looked : id ∉ x.pending.ids → (x.poll ticket).1.isSome ∧ outcome = (x.poll ticket).1
  /-- Unless that is a timeout that the transport reported, nothing changes but that the ticket is given
  up. -/
  unchanged : id ∉ x.pending.ids →
    (∀ other waited, (x.poll ticket).1 ≠ some (.error (.timeout other waited))) →
      y = x.discard ticket
  /-- If it is, the request that it names is withdrawn. -/
  named : id ∉ x.pending.ids → ∀ other waited,
    (x.poll ticket).1 = some (.error (.timeout other waited)) → y = (x.cancel other).2.discard ticket

theorem waited (coherent : Coherent x) (owned : x.mailroom.owner? ticket = some id)
    (held : x.isHeld ticket) (limit : UInt64) :
    Waited x ticket id limit (({ limit := some limit } : Client).wait x ticket).1
      (({ limit := some limit } : Client).wait x ticket).2 := by
  have located := Mailroom.located_of_owner? owned
  have kept := (isHeld_iff located).mp held
  rw [wait_eq coherent located kept limit]
  by_cases pending : id ∈ x.pending.ids
  · have waits := (coherent.waiting_iff_pending located kept).mpr pending
    rw [waits, told, Mailbox.peek, outcomeOf, Option.getD_none]
    refine ⟨fun _ => ⟨rfl, ?_, rfl⟩, absurd pending, absurd pending, absurd pending⟩
    rw [withdrawNamed_timeout]
    exact x.settle_pending id _
  · obtain ⟨outcome, polled⟩ : ∃ outcome, (x.poll ticket).1 = some outcome :=
      Option.ne_none_iff_exists'.mp (mt (coherent.poll_eq_none_iff owned held).mp pending)
    have found : told id limit (x.mailroom.box ticket) = outcome := by
      rw [told, ← poll_fst located, polled, Option.getD_some]
    rw [found]
    refine ⟨fun present => absurd present pending, ?_, ?_, ?_⟩
    · intro _
      rw [polled]
      exact ⟨rfl, rfl⟩
    · intro _ quiet
      rw [polled] at quiet
      rw [withdrawNamed_of_ne fun other waited same => quiet other waited (congrArg some same)]
    · intro _ other waited same
      obtain rfl := Option.some.inj (polled.symm.trans same)
      rfl

end Waiting

section Calling

variable {α : Type} {q : Query α} {without : Exchange} {now : UInt64} {handover : Handover}

/-- The actions inside the send of a call. Nothing is sent once the connection is gone. -/
def actionsInside (x : Exchange) (handover : Handover) : List Event :=
  if x.isClosed then [] else handover.meanwhile

/-- The first thing that ends the request of a call while its frame is handed over. -/
def endingInside (x : Exchange) (now : UInt64) (handover : Handover) : Option Happening :=
  if x.isClosed then none
  else (handover.happenings (x.ids.peek now)).find? (·.ends (x.ids.peek now) x.rejectsOnClose)

/-- The source of identifiers after a call. A call after the end of the connection uses none up. -/
def sourceAfter (x : Exchange) (now : UInt64) : IdSource :=
  if x.isClosed then x.ids else (x.ids.next now).2

/-- What a call with a limit returns and leaves behind, where `without` is what the actions inside its
send leave by themselves. -/
structure Called (x without : Exchange) (now limit : UInt64) (handover : Handover) (q : Query α)
    (result : Option (Except Failure α)) (y : Exchange) : Prop where
  /-- The request is not pending. -/
  notPending : x.ids.peek now ∉ y.pending.ids
  /-- No frame matches it any more. -/
  late : ∀ steps text reply, y.Along Issuable steps →
    ReplyFrame.decode text = .ok ((x.ids.peek now).token, reply) →
      (y.after steps).receive text = (.unmatched, y.after steps)
  /-- No trace of the call is left but an identifier and a mailbox that no one holds. -/
  traceless :
    (∀ other waited, endingInside x now handover ≠
      some (.refusal (x.ids.peek now) (.timeout other waited))) →
    y = without.withSpare (sourceAfter x now) (x.ids.peek now)
  /-- A timeout that the transport reports withdraws the request that it names. -/
  overreach : ∀ other waited,
    endingInside x now handover = some (.refusal (x.ids.peek now) (.timeout other waited)) →
    y = (without.cancel other).2.withSpare (sourceAfter x now) (x.ids.peek now)
  /-- After the end of the connection a call fails with its reason. -/
  turnedAway : ∀ reason, x.closedFor = some reason → result = some (.error (.disconnected reason))
  /-- A call whose request was ended inside its send returns what that brought. -/
  answered : ∀ h, endingInside x now handover = some h → ∃ outcome,
    h.outcome? (x.ids.peek now) without.closedFor = some outcome ∧
      result = some (outcome.bind q.accept)
  /-- A call times out just if the connection was there and nothing ended its request. No other call
  returns a timeout, but for the one that the transport reported. -/
  timeout_iff : ∀ other waited, result = some (.error (.timeout other waited)) ↔
    x.closedFor = none ∧ endingInside x now handover = none ∧ other = x.ids.peek now ∧
        waited = limit ∨
      endingInside x now handover = some (.refusal (x.ids.peek now) (.timeout other waited))

theorem told_of_shows {outcome : Outcome} (shows_ : box.Shows id outcome) (limit : UInt64) :
    told id limit box = outcome := by
  rcases shows_ with rfl | ⟨rfl, rfl⟩ <;> rfl

/-- A call returns what the mailbox of its request tells. -/
theorem ask_eq {command : Command} {sent : Dispatched × Exchange}
    (dispatched : x.dispatch now command.verb.token command.arguments handover = sent)
    (coherent : Coherent sent.2) (located : sent.2.mailroom.boxes[sent.1.ticket]? = some (id, box))
    (held : box ≠ .discarded) (accept : Json → Except Failure α) (limit : UInt64) :
    let returned := ({ limit := some limit } : Client).ask x now ⟨command, accept⟩ handover
    returned.1.result = some ((told id limit box).bind accept) ∧
      returned.2 = (sent.2.withdrawNamed (told id limit box)).discard sent.1.ticket := by
  have waited := wait_eq coherent located held limit
  simp only [ask, dispatchCommand, dispatched, waited, Option.map_some, and_self]

theorem called_of_closed (coherent : Coherent x) {reason : String}
    (closed : x.closedFor = some reason) (room : x.ids.HasNext) (now limit : UInt64) (q : Query α)
    (handover : Handover) :
    let returned := ({ limit := some limit } : Client).ask x now q handover
    Called x (x.performAll (actionsInside x handover)).2 now limit handover q returned.1.result
      returned.2 := by
  intro returned
  have isClosed : x.isClosed := by simp [Exchange.isClosed, closed]
  have unended : endingInside x now handover = none := if_pos isClosed
  have inside : (x.performAll (actionsInside x handover)).2 = x := by
    rw [actionsInside, if_pos isClosed]
    rfl
  obtain ⟨result, left⟩ := ask_eq (dispatch_of_closed closed now _ _ handover)
    (coherent.turnAway closed room now) (x.mailroom.getElem?_open_nextTicket _ _) (by simp) q.accept
    limit
  have source : sourceAfter x now = x.ids := if_pos isClosed
  have spare : returned.2 = x.withSpare (sourceAfter x now) (x.ids.peek now) := by
    refine left.trans ?_
    rw [source]
    simp only [told, Mailbox.peek, outcomeOf, Option.getD_some, withdrawNamed, turnAway,
      Exchange.discard, Mailroom.update_open_nextTicket, withSpare]
  have finished : returned.2.Finished (x.ids.peek now) := by
    rw [spare, source]
    exact ⟨⟨coherent.ascending, coherent.issued⟩, coherent.peek_not_mem room now, Or.inl isClosed⟩
  rw [inside]
  constructor
  · exact finished.absent
  · exact fun _ _ _ along decoded => (finished.after along).receive decoded
  · exact fun _ => spare
  · simp [unended]
  · intro first same
    obtain rfl := Option.some.inj (closed.symm.trans same)
    exact result
  · simp [unended]
  · intro other waited
    have apart : returned.1.result = some (.error (.disconnected reason)) := result
    simp [apart, closed, unended]

/-- What a client is told of a request: what the first ending brought, or a timeout if there is none. -/
def Tells (id : RequestId) (limit : UInt64) (reason : Option String) (outcome : Outcome) :
    Option Happening → Prop
  | none => outcome = .error (.timeout id limit)
  | some h => h.outcome? id reason = some outcome

theorem told_of_standing (coherent : Coherent x) {since : List Happening}
    (standing : x.Standing ticket id since False) {ending : Option Happening}
    (first : since.find? (·.ends id x.rejectsOnClose) = ending) (limit : UInt64) :
    ∃ box, x.mailroom.boxes[ticket]? = some (id, box) ∧ box ≠ .discarded ∧
      (id ∈ x.pending.ids → ending = none) ∧
      Tells id limit x.closedFor (told id limit box) ending := by
  rw [Standing, first] at standing
  cases ending with
  | none => exact ⟨.waiting, standing.2, by simp, fun _ => rfl, rfl⟩
  | some h =>
      obtain ⟨outcome, box, brought, located, -, shows_⟩ := standing
      have shown := shows_ not_false
      have held : box ≠ .discarded := by rcases shown with rfl | ⟨rfl, -⟩ <;> simp
      have absent : id ∉ x.pending.ids :=
        mt (coherent.waiting_iff_pending located held).mpr shown.ne_waiting
      rw [← told_of_shows shown limit] at brought
      exact ⟨box, located, held, fun pending => absurd pending absent, brought⟩

/-- A call on the open exchange is told of its request. Only an identifier and a mailbox show then that
it was there, and the withdrawal of the request that it was told has timed out. -/
theorem ask_of_open (coherent : Coherent x) (isOpen : x.closedFor = none) (room : x.ids.HasNext)
    (now limit : UInt64) (q : Query α) (handover : Handover) :
    let returned := ({ limit := some limit } : Client).ask x now q handover
    let others := (x.performAll handover.meanwhile).2
    ∃ outcome, returned.1.result = some (outcome.bind q.accept) ∧
      returned.2.Finished (x.ids.peek now) ∧
      returned.2 = (others.withdrawNamed outcome).withSpare (sourceAfter x now) (x.ids.peek now) ∧
      Tells (x.ids.peek now) limit others.closedFor outcome (endingInside x now handover) := by
  intro returned others
  have isClosed : ¬ x.isClosed := by simp [Exchange.isClosed, isOpen]
  let verb := q.command.verb.token
  let sent := x.dispatch now verb q.command.arguments handover
  obtain ⟨-, placed⟩ := dispatch_fst_of_open isOpen now verb q.command.arguments handover
  have moved : sent.2 = _ := dispatch_snd_of_open isOpen now verb q.command.arguments handover
  have entered := coherent.issue isOpen room now verb
  have there : Coherent sent.2 := moved ▸ entered.undergoAll _
  have alone : Coherent others := by
    simp only [others, performAll_snd]
    exact coherent.undergoAll _
  have beside : Beside _ _ others sent.2 :=
    coherent.beside_sent isOpen room now verb q.command.arguments handover
  have ending : (handover.happenings (x.ids.peek now)).find?
      (·.ends (x.ids.peek now) sent.2.rejectsOnClose) = endingInside x now handover := by
    rw [endingInside, if_neg isClosed, moved, undergoAll_rejectsOnClose]
    rfl
  obtain ⟨box, located, held, pending, tells⟩ := told_of_standing there
    (standing_dispatch coherent isOpen room now verb q.command.arguments handover) ending limit
  rw [← placed] at located
  rw [beside.closedFor] at tells
  obtain ⟨result, left⟩ := ask_eq rfl there located held q.accept limit
  let outcome := told (x.ids.peek now) limit box
  have absent : x.ids.peek now ∉ (sent.2.withdrawNamed outcome).pending.ids := by
    by_cases waits : x.ids.peek now ∈ sent.2.pending.ids
    · rw [pending waits] at tells
      rw [show outcome = _ from tells, withdrawNamed_timeout, settle_pending, PendingTable.ids_erase]
      simp
    · exact not_mem_withdrawNamed waits outcome
  have spare := (beside.withdrawNamed alone there outcome).discard_eq absent
  have source : (sent.2.withdrawNamed outcome).ids = sourceAfter x now := by
    rw [withdrawNamed_ids, moved, undergoAll_ids, sourceAfter, if_neg isClosed]
    rfl
  rw [← placed, source] at spare
  have ordered := (there.withdrawNamed outcome).toOrdered
  refine ⟨outcome, result, ?_, left.trans spare, tells⟩
  rw [left]
  refine ⟨⟨ordered.ascending, ordered.issued⟩, absent, Or.inr ?_⟩
  rw [discard_eq, touch, source, sourceAfter, if_neg isClosed]
  exact UInt64.le_refl _

theorem called_of_open (coherent : Coherent x) (offered : q.Offered) (isOpen : x.closedFor = none)
    (room : x.ids.HasNext) (now limit : UInt64) (handover : Handover) :
    let returned := ({ limit := some limit } : Client).ask x now q handover
    Called x (x.performAll (actionsInside x handover)).2 now limit handover q returned.1.result
      returned.2 := by
  intro returned
  obtain ⟨outcome, result, finished, left, tells⟩ :=
    ask_of_open coherent isOpen room now limit q handover
  have isClosed : ¬ x.isClosed := by simp [Exchange.isClosed, isOpen]
  rw [actionsInside, if_neg isClosed]
  have ends h (first : endingInside x now handover = some h) :
      h.ends (x.ids.peek now) x.rejectsOnClose := by
    rw [endingInside, if_neg isClosed] at first
    exact List.find?_some first
  have own : x.ids.peek now ∉ (x.performAll handover.meanwhile).2.pending.ids :=
    (coherent.beside_sent isOpen room now "" [] handover).not_mem
  constructor
  · exact finished.absent
  · exact fun _ _ _ along decoded => (finished.after along).receive decoded
  · intro quiet
    suffices unchanged : (x.performAll handover.meanwhile).2.withdrawNamed outcome =
        (x.performAll handover.meanwhile).2 by rwa [unchanged] at left
    cases first : endingInside x now handover with
    | none =>
        rw [first] at tells
        rw [tells, withdrawNamed_timeout, settle_of_not_mem _ _ _ own]
    | some h =>
        rw [first] at tells quiet
        refine withdrawNamed_of_ne fun other waited late => quiet other waited ?_
        rw [(Happening.outcome?_eq_timeout (ends h first) tells).mp late]
  · intro other waited reported
    rw [reported] at tells
    obtain rfl := Option.some.inj tells
    exact left
  · intro reason closed
    simp [isOpen] at closed
  · intro h first
    rw [first] at tells
    exact ⟨outcome, tells, result⟩
  · intro other waited
    rw [result, Option.some.injEq, offered.bind_eq_timeout]
    cases first : endingInside x now handover with
    | none =>
        rw [first] at tells
        simp [show outcome = _ from tells, isOpen, eq_comm]
    | some h =>
        rw [first] at tells
        simp [Happening.outcome?_eq_timeout (ends h first) tells]

/-- A call leaves no trace. In every state that a run reaches, and whatever happens inside its send, a
call of a client with a limit is over when it returns, and the others are what the actions inside its
send alone make of them. It times out just if nothing ended its request. A call with a value that cannot
be written fails before there is a request. A wait on any ticket that is still held times out just if the
request is pending, which takes out its entry and nothing else. To calls and waits there is one exception,
a timeout that the transport reports: the client returns it, and withdraws the request that it names. -/
theorem call_leaves_no_trace (reachable : Reachable x) (limit : UInt64) :
    (∀ {α : Type} {q : Query α}, q.Offered → x.ids.HasNext → ∀ now handover,
        let returned := ({ limit := some limit } : Client).ask x now q handover
        Called x (x.performAll (actionsInside x handover)).2 now limit handover q returned.1.result
          returned.2) ∧
      (∀ {α : Type} (encoder : Json.Encoder α) collection document (a : α) now handover,
        let returned := ({ limit := some limit } : Client).call x now
          (Query.setAs encoder collection document a) handover
        match encoder a with
        | .ok body => x.ids.HasNext →
            Called x (x.performAll (actionsInside x handover)).2 now limit handover
              (Query.done (.set collection document body)) returned.1.result returned.2
        | .error e => returned = (.unsent (.serialization e), x)) ∧
      ∀ ticket id, x.mailroom.owner? ticket = some id → x.isHeld ticket →
        let returned := ({ limit := some limit } : Client).wait x ticket
        Waited x ticket id limit returned.1 returned.2 := by
  have coherent := reachable.coherent
  have calls {α : Type} {q : Query α} (offered : q.Offered) (room : x.ids.HasNext) (now : UInt64)
      (handover : Handover) :
      let returned := ({ limit := some limit } : Client).ask x now q handover
      Called x (x.performAll (actionsInside x handover)).2 now limit handover q returned.1.result
        returned.2 := by
    cases closed : x.closedFor with
    | none => exact called_of_open coherent offered closed room now limit handover
    | some reason => exact called_of_closed coherent closed room now limit q handover
  refine ⟨calls, ?_, ?_⟩
  · intro α encoder collection document a now handover returned
    obtain ⟨body, written, made⟩ | ⟨e, written, made⟩ :=
      Query.setAs_cases encoder collection document a <;> simp only [written, returned, made, call]
    exact fun room => calls (.setAs made) room now handover
  · intro ticket id owned held
    exact waited coherent owned held limit

/-- Two requests are pending, and the first is answered while a third is sent. -/
def answeredMeanwhile : Handover :=
  { meanwhile := [.frame "ID 1 \x7b\"status\":\"success\",\"data\":true\x7d"] }

/-- An encoder of numbers that only writes those below ten. -/
def writesDigit : Json.Encoder Nat := fun n =>
  if n < 10 then .ok (String.ofList [Decimal.digitChar n]) else .error .mismatched

theorem call_leaves_no_trace_answeredMeanwhile :
    let x := (fresh .counter true).after [.dispatch 0 "GET" ["a"] {}, .dispatch 0 "GET" ["b"] {}]
    let client : Client := { limit := some 5 }
    let called := client.ask x 0 (Query.get "c" "d") answeredMeanwhile
    Reachable x ∧ (Query.get "c" "d").Offered ∧ x.ids.HasNext ∧
      x.mailroom.owner? 1 = some ⟨2⟩ ∧ x.isHeld 1 ∧
      called.1.result = some (.error (.timeout ⟨3⟩ 5)) ∧ called.2.pending.ids = [⟨2⟩] ∧
      (client.call x 0 (Query.setAs writesDigit "c" "d" 12) answeredMeanwhile).1.result =
        some (.error (.serialization .mismatched)) ∧
      (client.call x 0 (Query.setAs writesDigit "c" "d" 7) answeredMeanwhile).1.result =
        some (.error (.timeout ⟨3⟩ 5)) ∧
      (client.wait x 1).1 = some (.error (.timeout ⟨2⟩ 5)) ∧
      (client.wait x 1).2.pending.ids = [⟨1⟩] := by
  intro x client called
  have reachable : Reachable x := reachable_after .counter true (by decide)
  have offered : (Query.get "c" "d").Offered := .get "c" "d"
  have room : x.ids.HasNext := by
    unfold IdSource.HasNext
    decide
  obtain ⟨calls, stores, waits⟩ := call_leaves_no_trace reachable 5
  have unended : endingInside x 0 answeredMeanwhile = none := by cbv
  have call := calls offered room 0 answeredMeanwhile
  have trace := call.traceless (by simp [unended])
  have without : (x.performAll (actionsInside x answeredMeanwhile)).2.pending.ids = [⟨2⟩] := by cbv
  obtain ⟨late, left, -⟩ := (waits 1 ⟨2⟩ rfl rfl).timedOut (by decide)
  have unwritten := stores writesDigit "c" "d" 12 0 answeredMeanwhile
  have stored := stores writesDigit "c" "d" 7 0 answeredMeanwhile room
  refine ⟨reachable, offered, room, rfl, rfl, ?_, ?_, congrArg (·.1.result) unwritten,
    (stored.timeout_iff ⟨3⟩ 5).mpr (Or.inl ⟨rfl, unended, rfl, rfl⟩), late, ?_⟩
  · exact (call.timeout_iff ⟨3⟩ 5).mpr (Or.inl ⟨rfl, unended, rfl, rfl⟩)
  · rw [show called.2 = _ from trace]
    exact without
  · rw [left]
    decide

/-- A transport that refuses the frame of a second request with a timeout of the first takes the first
one away from its caller. -/
theorem reported_timeout_withdraws_another :
    let x := (fresh .counter true).after [.dispatch 0 "GET" ["a"] {}]
    let handover : Handover := { failure := some (.timeout ⟨1⟩ 9) }
    let called := ({ limit := some 5 } : Client).ask x 0 (Query.get "c" "d") handover
    Reachable x ∧ x.ids.HasNext ∧ endingInside x 0 handover ≠ none ∧
      (x.performAll (actionsInside x handover)).2.pending.ids = [⟨1⟩] ∧
      called.2.pending.ids = [] ∧ called.2.Finds 0 (.error (.abandoned ⟨1⟩)) ∧
      called.1.result = some (.error (.timeout ⟨1⟩ 9)) := by
  intro x handover called
  have reachable : Reachable x := reachable_after .counter true (by decide)
  have room : x.ids.HasNext := by
    unfold IdSource.HasNext
    decide
  have spent : called.2.mailroom.boxes[0]? = some (⟨1⟩, .spent) := rfl
  exact ⟨reachable, room, nofun, rfl, rfl, finds_of_outcomeOf spent rfl, rfl⟩

end Calling

end Client

end Switchboard
