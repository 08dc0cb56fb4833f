import Switchboard.CommandLine.Run
import Switchboard.Proofs.CommandLine.Reading
import Switchboard.Proofs.Connection.Ending

/-! # The verdict of a run

Where the server can be reached and stops sending at last, a run reports success just if the first
reply to its request does. A task that cannot be carried out is turned down before a connection is
made, and a command with a line break before any of it goes out.
-/

namespace Switchboard

/-- A client that finds an outcome reports it, unless it is itself that the time is up. -/
theorem Client.wait_of_finds (client : Client) {x : Exchange} {ticket : Ticket} {outcome : Outcome}
    (finds : x.Finds ticket outcome) (timely : ∀ id waited, outcome ≠ .error (.timeout id waited)) :
    (client.wait x ticket).1 = some outcome := by
  obtain ⟨-, waits, waitsFor⟩ := finds
  cases bound : client.limit with
  | none => simpa only [Client.wait, bound] using waits
  | some limit =>
      have found := waitsFor limit
      simp only [Client.wait, bound]
      generalize x.waitFor ticket limit = looked at found
      obtain ⟨seen, y⟩ := looked
      cases found
      split
      · rename_i id waited _ same
        cases same
        exact absurd rfl (timely id waited)
      · rename_i same
        cases same
        rfl
      · rename_i same
        cases same

theorem Comparison.ofToken?_eq_none_iff {token : String} :
    ofToken? token = none ↔
      token.toList.map Char.toUpper ∉ [['E', 'Q'], ['G', 'T'], ['L', 'T']] := by
  unfold ofToken?
  simp only [List.mem_cons, List.not_mem_nil, or_false, not_or]
  split
  · simp_all
  · split
    · simp_all
    · split <;> simp_all

namespace CommandLine

open Connection (firstReply fresh Sound serverClosed)
open Lines (OneLine lineOf)

section Refusals

/-- The body of a document is no JSON, or a filter compares in none of the three ways. -/
def Task.Unreadable : Task → Prop
  | .set _ _ body => ∃ e, Json.read body = .error e
  | .list _ (some (_ :: token :: _)) =>
    token.toList.map Char.toUpper ∉ [['E', 'Q'], ['G', 'T'], ['L', 'T']]
  | _ => False

/-- More than one filter is given. -/
def Task.Overfiltered : Task → Prop
  | .list _ (some values) => 3 < values.length
  | _ => False

def Task.Refused (task : Task) : Prop := task.Unreadable ∨ task.Overfiltered

variable {task : Task}

theorem Task.command_of_refused (refused : task.Refused) :
    ∃ complaint, task.command = .error complaint := by
  rcases refused with unreadable | overfiltered
  · cases task with
    | set collection document body =>
        obtain ⟨e, read⟩ := unreadable
        exact ⟨.invalidBody e, by simp [command, read]⟩
    | list collection filter =>
        match filter, unreadable with
        | some [key, token, value], unreadable =>
            have none := Comparison.ofToken?_eq_none_iff.mpr unreadable
            exact ⟨.unknownComparison token, by
              simp [command, condition, Condition.ofParts?, none, Except.map]⟩
        | some [_, _], _ => exact ⟨.filterSize, rfl⟩
        | some (_ :: _ :: _ :: _ :: _), _ => exact ⟨.filterSize, rfl⟩
    | «exists» | create | get | delete => contradiction
  · cases task with
    | list collection filter =>
        match filter, overfiltered with
        | some (_ :: _ :: _ :: _ :: _), _ => exact ⟨.filterSize, rfl⟩
    | «exists» | create | get | set | delete => contradiction

theorem Task.command_of_not_refused
    (threes : ∀ collection values, task = .list collection (some values) →
      ∃ times, values.length = (times + 1) * 3)
    (accepted : ¬ task.Refused) : ∃ c, task.command = .ok c := by
  rw [Refused, not_or] at accepted
  obtain ⟨readable, single⟩ := accepted
  cases task with
  | «exists» | create | get => exact ⟨_, rfl⟩
  | delete collection document => cases document <;> exact ⟨_, rfl⟩
  | set collection document body =>
      cases read : Json.read body with
      | error e => exact absurd ⟨e, read⟩ readable
      | ok v => exact ⟨_, by simp only [command, read]; rfl⟩
  | list collection filter =>
      cases filter with
      | none => exact ⟨_, rfl⟩
      | some values =>
          obtain ⟨times, size⟩ := threes collection values rfl
          have three : values.length = 3 := by
            have most : ¬ 3 < values.length := single
            omega
          obtain ⟨key, token, value, rfl⟩ := List.length_eq_three.mp three
          have known : Comparison.ofToken? token ≠ none := fun unknown =>
            readable (Comparison.ofToken?_eq_none_iff.mp unknown)
          obtain ⟨comparison, found⟩ := Option.ne_none_iff_exists'.mp known
          refine ⟨.list collection (some ⟨key, comparison, value⟩), ?_⟩
          simp [command, condition, Condition.ofParts?, found, Except.map]

end Refusals

section Conversation

/-- What a connection sees of a peer. -/
def Peer.steps (peer : Peer) : List Connection.Step :=
  if peer.hangsUp then [.serve peer.answer, .hangUp] else [.serve peer.answer]

theorem Peer.serve_eq_after (peer : Peer) (c : Connection) : peer.serve c = c.after peer.steps := by
  unfold serve steps
  cases peer.hangsUp <;> rfl

theorem Peer.unread (peer : Peer) (ticket : Ticket) : ∀ s ∈ peer.steps, s.ticket? ≠ some ticket := by
  unfold steps
  cases peer.hangsUp <;> simp [Connection.Step.ticket?]

theorem Peer.along (peer : Peer) (c : Connection) : c.Along peer.steps := by
  unfold steps
  cases peer.hangsUp
  · exact ⟨trivial, trivial⟩
  · exact ⟨trivial, trivial, trivial⟩

theorem Peer.steps_of_hangsUp {peer : Peer} (ends : peer.hangsUp) :
    peer.steps = [.serve peer.answer, .hangUp] := if_pos ends

/-- What a request comes to if the peer stops sending after the first reply to it, or without one. -/
def settled : Option Reply → Outcome
  | some reply => reply.outcome
  | none => .error (.disconnected serverClosed)

theorem settled_ne_timeout (reply : Option Reply) (id : RequestId) (waited : UInt64) :
    settled reply ≠ .error (.timeout id waited) := by
  cases reply with
  | none => simp [settled]
  | some reply => cases reply <;> simp [settled, Reply.outcome]

/-- Success is reported for the success of the reply, and its data is all that is put out. -/
theorem ofOutcome_settled (verb : Verb) (reply : Option Reply) :
    let ending := Ending.ofOutcome verb (settled reply)
    (ending.exitCode = 0 ↔ ∃ data, reply = some (.success data)) ∧
      (∀ data, reply = some (.success data) → ending.output = data.pretty ++ "\n") ∧
      ((∀ data, reply ≠ some (.success data)) → ending.exitCode = 1 ∧ ending.output = "") := by
  cases reply with
  | none => simp [settled, Ending.ofOutcome]
  | some reply => cases reply <;> simp [settled, Reply.outcome, Ending.ofOutcome]

namespace Plan

variable (plan : Plan) (now : UInt64)

/-- The frame of the request. -/
def frame : String := plan.command.frame (plan.launch now).1.id

theorem room : (fresh plan.config).exchange.ids.HasNext := by
  change 0 + 1 < UInt64.size
  decide

theorem dispatch_eq_launch :
    (fresh plan.config).dispatch now plan.command.verb.token plan.command.arguments =
      plan.launch now := rfl

theorem launch_of_oneLine (fits : OneLine (plan.frame now)) :
    (plan.launch now).1.frame = some (plan.frame now) ∧
      (plan.launch now).2.written = lineOf (plan.frame now) := by
  unfold frame at fits ⊢
  rw [← dispatch_eq_launch, Connection.dispatch_id] at fits ⊢
  rw [Connection.dispatch_of_oneLine rfl fits]
  exact ⟨rfl, List.nil_append _⟩

theorem launch_of_not_oneLine (broken : ¬ OneLine (plan.frame now)) :
    (plan.launch now).2.written = [] ∧
      (plan.launch now).2.exchange.mailroom.boxes[(plan.launch now).1.ticket]? =
        some ((plan.launch now).1.id, .holding (.error (.protocol .lineBreak))) := by
  unfold frame at broken
  rw [← dispatch_eq_launch, Connection.dispatch_id] at broken
  rw [← dispatch_eq_launch,
    Connection.dispatch_of_not_oneLine (Sound.fresh plan.config).coherent rfl plan.room broken]
  exact ⟨rfl, rfl⟩

theorem heard_served (bytes : List UInt8) :
    (plan.launch now).2.heard [.serve bytes, .hangUp] = Lines.frames bytes := by
  let before : List Connection.Step :=
    [.dispatch now plan.command.verb.token plan.command.arguments, .serve bytes]
  obtain ⟨ended, rest, lines, heard⟩ : ∃ ended rest,
      Lines.AreLines (Connection.bytesServed before) ended rest ∧
        (fresh plan.config).heard (before ++ [.hangUp]) = (ended ++ [rest]).filterMap Lines.frame? :=
    Connection.heard_until_end plan.config rfl rfl
  have all : Connection.bytesServed before = bytes := List.append_nil bytes
  rw [all] at lines
  rw [lines.frames_eq]
  exact heard

theorem finds_of_oneLine (rejects : plan.config.rejectsOnClose = true)
    (fits : OneLine (plan.frame now)) {peer : Peer} (ends : peer.hangsUp) :
    ((plan.launch now).2.after peer.steps).exchange.Finds (plan.launch now).1.ticket
      (settled (firstReply (plan.launch now).1.id (Lines.frames peer.answer))) := by
  have located := Connection.after_dispatch (Sound.fresh plan.config) rejects rfl plan.room
    (plan.dispatch_eq_launch now) fits (peer.along _) (peer.unread _)
  rw [peer.steps_of_hangsUp ends, plan.heard_served now peer.answer] at located
  rw [peer.steps_of_hangsUp ends]
  apply Exchange.finds_of_outcomeOf located
  cases firstReply (plan.launch now).1.id (Lines.frames peer.answer) <;> rfl

theorem finds_of_not_oneLine (broken : ¬ OneLine (plan.frame now)) (peer : Peer) :
    ((plan.launch now).2.after peer.steps).exchange.Finds (plan.launch now).1.ticket
      (.error (.protocol .lineBreak)) := by
  have sound : Sound (plan.launch now).2 :=
    (Sound.fresh plan.config).step (s := .dispatch _ _ _) plan.room
  have located := sound.after_settled (peer.along _) (peer.unread _) (by simp)
    (plan.launch_of_not_oneLine now broken).2
  exact Exchange.finds_of_outcomeOf located rfl

theorem conclude_of_finds {c : Connection} {ticket : Ticket} {outcome : Outcome}
    (finds : c.exchange.Finds ticket outcome)
    (timely : ∀ id waited, outcome ≠ .error (.timeout id waited)) :
    plan.conclude c ticket = some (.ofOutcome plan.command.verb outcome) := by
  rw [conclude, plan.config.client.wait_of_finds finds timely]
  rfl

end Plan

end Conversation

/-- Who gets the line of a request stops sending after the answer. -/
def HangsUp (peer : Dispatched → Peer) : Prop :=
  ∀ request frame, request.frame = some frame → OneLine frame → (peer request).hangsUp

/-- What a run has to look like from outside, if just the tasks of a kind are turned down. -/
structure Verdict (turnedDown : Task → Prop) (invocation : Invocation) (now : UInt64)
    (peer : Dispatched → Peer) (t : Transcript) : Prop where
  /-- A task that is turned down makes no connection. -/
  refused : turnedDown invocation.task →
    t.connected = false ∧ t.sent = [] ∧ ∃ ending, t.ending = some ending ∧ ending.exitCode = 2
  /-- The command of any other task goes out on one line or not at all. Success is reported just if the
  first reply to it, among the frames that the peer sends, is a success. -/
  reported : ¬ turnedDown invocation.task → ∃ command, invocation.task.command = .ok command ∧
    let request := (Plan.launch ⟨invocation.config, command⟩ now).1
    let frame := "ID " ++ request.id.token ++ " " ++ command.text
    let reply := firstReply request.id (Lines.frames (peer request).answer)
    ∃ ending, t.ending = some ending ∧
      (¬ OneLine frame → t.sent = [] ∧ ending.exitCode = 1 ∧ ending.output = "") ∧
      (OneLine frame → t.sent = lineOf frame ∧
        (ending.exitCode = 0 ↔ ∃ data, reply = some (.success data)) ∧
        (∀ data, reply = some (.success data) → ending.output = data.pretty ++ "\n") ∧
        ((∀ data, reply ≠ some (.success data)) → ending.exitCode = 1 ∧ ending.output = ""))

section Running

variable {words : List String} {invocation : Invocation}
  {reach : Config → Except Failure (Dispatched → Peer)}

theorem run_of_refused (read : Invocation.read words = .ok invocation)
    (refused : invocation.task.Refused) (now : UInt64) :
    ∃ complaint : Complaint, run words now reach =
      { connected := false, sent := [], ending := some (.ofComplaint complaint) } := by
  obtain ⟨complaint, failed⟩ := Task.command_of_refused refused
  have stopped : Plan.ofWords words = .error (.ofComplaint complaint) := by
    simp only [Plan.ofWords, read, failed]
  exact ⟨complaint, by rw [run, stopped]⟩

theorem run_of_command (read : Invocation.read words = .ok invocation) {command : Command}
    (made : invocation.task.command = .ok command) {peer : Dispatched → Peer}
    (reached : reach invocation.config = .ok peer) (now : UInt64) :
    let plan : Plan := ⟨invocation.config, command⟩
    let launched := plan.launch now
    run words now reach =
      { connected := true
        sent := launched.2.written
        ending := plan.conclude (launched.2.after (peer launched.1).steps) launched.1.ticket } := by
  intro plan launched
  have planned : Plan.ofWords words = .ok plan := by simp only [Plan.ofWords, read, made, plan]
  have found : reach plan.config = .ok peer := reached
  rw [run, planned]
  simp only [found]
  rw [Peer.serve_eq_after]

/-- Every run that reaches a peer who stops sending once it has answered. -/
theorem run_reports_the_first_reply (read : Invocation.read words = .ok invocation)
    {peer : Dispatched → Peer} (reached : reach invocation.config = .ok peer)
    (ends : HangsUp peer) (now : UInt64) :
    Verdict Task.Refused invocation now peer (run words now reach) := by
  constructor
  case refused =>
    intro refused
    obtain ⟨complaint, ran⟩ := run_of_refused read refused now
    rw [ran]
    exact ⟨rfl, rfl, _, rfl, rfl⟩
  case reported =>
    intro accepted
    obtain ⟨command, made⟩ := Task.command_of_not_refused
      (fun collection values lists => Invocation.read_filter read lists) accepted
    refine ⟨command, made, ?_⟩
    intro request frame reply
    let plan : Plan := ⟨invocation.config, command⟩
    rw [run_of_command read made reached now]
    by_cases fits : OneLine frame
    · obtain ⟨framed, written⟩ := plan.launch_of_oneLine now fits
      have policy : plan.config.rejectsOnClose = true := Invocation.read_rejectsOnClose read
      have finds := plan.finds_of_oneLine now policy fits (ends request frame framed fits)
      have ended := plan.conclude_of_finds finds (settled_ne_timeout _)
      refine ⟨_, ended, ?_, ?_⟩
      · intro broken
        contradiction
      · intro _
        exact ⟨written, ofOutcome_settled _ reply⟩
    · have finds := plan.finds_of_not_oneLine now fits (peer request)
      have ended := plan.conclude_of_finds finds (by simp)
      refine ⟨_, ended, ?_, ?_⟩
      · intro _
        exact ⟨(plan.launch_of_not_oneLine now fits).1, rfl, rfl⟩
      · intro fit
        contradiction

def deletion : List String := ["-t", "250", "delete", "c", "d"]

/-- A peer who talks to someone else first, and hangs up before the line of the reply has ended. -/
def lastWord (request : Dispatched) : Peer where
  answer := ("noise\nID 2 [\"failure\",null,\"gone\"]\r\nID " ++ request.id.token ++
    " [\"success\",true,null]").toUTF8.toList
  hangsUp := true

theorem run_reports_the_first_reply_lastWord :
    Invocation.read deletion = .ok ⟨{ requestTimeout := 250 }, .delete "c" (some "d")⟩ ∧
      HangsUp lastWord ∧
      (run deletion 0 fun _ => .ok lastWord).sent = lineOf "ID 1 DELETE d FROM c" ∧
      ∃ ending, (run deletion 0 fun _ => .ok lastWord).ending = some ending ∧
        ending.exitCode = 0 ∧ ending.output = "true\n" := by
  have read : Invocation.read deletion =
      .ok ⟨{ requestTimeout := 250 }, .delete "c" (some "d")⟩ := by cbv
  have ends : HangsUp lastWord := fun _ _ _ _ => rfl
  have verdict : Verdict _ _ _ _ (run deletion 0 fun _ => .ok lastWord) :=
    run_reports_the_first_reply read rfl ends 0
  have accepted : ¬ Task.Refused (.delete "c" (some "d")) := by
    simp [Task.Refused, Task.Unreadable, Task.Overfiltered]
  refine ⟨read, ends, ?_⟩
  obtain ⟨command, made, ending, ended, -, reports⟩ := verdict.reported accepted
  cases made
  let request := (Plan.launch ⟨{ requestTimeout := 250 }, .deleteDocument "c" "d"⟩ 0).1
  have line : "ID " ++ request.id.token ++ " " ++ (Command.deleteDocument "c" "d").text =
      "ID 1 DELETE d FROM c" := by decide +kernel
  have frames : Lines.frames (lastWord request).answer =
      ["noise", "ID 2 [\"failure\",null,\"gone\"]", "ID 1 [\"success\",true,null]"] := by
    decide +kernel
  have reply : firstReply request.id (Lines.frames (lastWord request).answer) =
      some (.success (.bool true)) := by
    have first : request.id = ⟨1⟩ := by decide +kernel
    rw [first, frames]
    cbv
  obtain ⟨sent, success, output, -⟩ := reports (by rw [line]; decide)
  rw [line] at sent
  exact ⟨sent, ending, ended, success.mpr ⟨_, reply⟩, (output _ reply).trans (by cbv)⟩

end Running

section Repetition

/-- The words for a list with the same filter given twice. -/
def filteredTwice : List String :=
  ["list", "c", "--where", "a", "EQ", "b", "--where", "a", "EQ", "b"]

/-- An unreadable body and an unknown comparison are not all that is turned down: a filter may be given
more than once, and is refused then although each of its comparisons is known. -/
theorem repeated_filter_is_turned_down :
    Invocation.read filteredTwice = .ok ⟨{}, .list "c" (some ["a", "EQ", "b", "a", "EQ", "b"])⟩ ∧
      ¬ Task.Unreadable (.list "c" (some ["a", "EQ", "b", "a", "EQ", "b"])) ∧
      (∀ now reach, run filteredTwice now reach =
        { connected := false
          sent := []
          ending := some
            { exitCode := 2, complaint := some "--where takes exactly KEY OP VALUE" } }) ∧
      ¬ ∀ words invocation reach peer now, Invocation.read words = .ok invocation →
        reach invocation.config = .ok peer → HangsUp peer →
        Verdict Task.Unreadable invocation now peer (run words now reach) := by
  have read : Invocation.read filteredTwice =
      .ok ⟨{}, .list "c" (some ["a", "EQ", "b", "a", "EQ", "b"])⟩ := by cbv
  have readable : ¬ Task.Unreadable (.list "c" (some ["a", "EQ", "b", "a", "EQ", "b"])) := by
    change ¬ _ ∉ _
    decide
  refine ⟨read, readable, ?_, ?_⟩
  · intro now reach
    simp only [run, Plan.ofWords, read]
    rfl
  · intro all
    let silent : Dispatched → Peer := fun _ => ⟨[], true⟩
    have verdict := all filteredTwice _ (fun _ => .ok silent) silent 0 read rfl fun _ _ _ _ => rfl
    obtain ⟨command, made, -⟩ := verdict.reported readable
    contradiction

end Repetition

end CommandLine

end Switchboard
