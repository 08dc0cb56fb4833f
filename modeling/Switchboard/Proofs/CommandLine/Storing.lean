import Switchboard.Proofs.CommandLine.Verdict
import Switchboard.Proofs.Json.Controls

/-! # A document goes out on one line

The printed body of a document has no line break, so only the names around it could break the frame that
stores it. Under names that stay on one line the frame is always sent, and whoever reads lines at the other
end gets it as one. On the command line a body may be laid out over many lines, for it is read before it is
sent, and only its value counts.
-/

namespace Switchboard

open Connection (fresh)
open Lines (AreLines OneLine frame? lineOf)

namespace Lines

theorem oneLine_append {s t : String} : OneLine (s ++ t) ↔ OneLine s ∧ OneLine t := by
  simp only [OneLine, String.toList_append, List.mem_append, not_or]
  exact and_and_and_comm

theorem oneLine_of_noControls {s : String} (free : Json.NoControls s.toList) : OneLine s :=
  ⟨fun member => absurd (free _ member) (by decide), fun member => absurd (free _ member) (by decide)⟩

/-- After frames that were written one a line, one more is one line more. -/
theorem areLines_append_lineOf {sent : List String} {frame : String}
    (fits : ∀ frame ∈ sent, OneLine frame) (fit : OneLine frame) :
    AreLines (sent.flatMap lineOf) (sent.map lineOf) [] ∧
      AreLines (sent.flatMap lineOf ++ lineOf frame) (sent.map lineOf ++ [lineOf frame]) [] := by
  have all : ∀ f ∈ sent ++ [frame], OneLine f :=
    List.forall_mem_append.mpr ⟨fits, List.forall_mem_singleton.mpr fit⟩
  have more := areLines_flatMap_lineOf all
  rw [List.flatMap_append, List.map_append, List.flatMap_singleton, List.map_singleton] at more
  exact ⟨areLines_flatMap_lineOf fits, more⟩

end Lines

/-- What a connection has written is lines, and a frame that stays on one line adds one to them. -/
theorem Connection.exists_areLines_written (config : Config) {steps : List Connection.Step}
    (whole : ∀ s ∈ steps, s.fault? = none) {frame : String} (fit : OneLine frame) :
    ∃ ended, AreLines ((fresh config).after steps).written ended [] ∧
      AreLines (((fresh config).after steps).written ++ lineOf frame) (ended ++ [lineOf frame]) [] := by
  have fits : ∀ frame ∈ (fresh config).sent steps, OneLine frame := fun _ member =>
    of_decide_eq_true (List.mem_filter.mp member).2
  have written : ((fresh config).after steps).written = ((fresh config).sent steps).flatMap lineOf :=
    (Connection.after_written _ whole rfl).1
  rw [written]
  exact ⟨_, Lines.areLines_append_lineOf fits fit⟩

namespace Command

variable {collection document : String}

/-- Neither the identifier nor the body can break the frame. -/
theorem oneLine_frame_store (id : RequestId) (v : Json) :
    OneLine ((store collection document v).frame id) ↔ OneLine collection ∧ OneLine document := by
  have token : OneLine id.token := by
    apply Lines.oneLine_of_noControls
    rw [RequestId.token_toList]
    exact Json.noControls_digits _
  have body : OneLine v.compact := Lines.oneLine_of_noControls v.noControls_compact
  have words : OneLine marker ∧ OneLine " " ∧ OneLine "SET" ∧ OneLine "FROM" ∧ OneLine "TO" := by decide
  obtain ⟨first, blank, verb, source, target⟩ := words
  have spelled : (store collection document v).frame id =
      marker ++ " " ++ id.token ++ " " ++ ("SET" ++ " " ++ document ++ " " ++ "FROM" ++ " " ++
        collection ++ " " ++ "TO" ++ " " ++ v.compact) := rfl
  rw [spelled]
  simp only [Lines.oneLine_append, first, blank, verb, source, target, token, body, true_and, and_true]
  exact and_comm

end Command

namespace CommandLine

/-- How the request that stores a document goes out. -/
structure GoesOut (collection document : String) (v : Json) : Prop where
  /-- The transport takes the frame as one line, whatever its identifier. -/
  accepted : ∀ id, let frame := (Command.store collection document v).frame id
    Lines.encode frame = .ok (lineOf frame)
  /-- On a connection that has not ended, whatever it has gone through, the request is entered and its
  frame is written. To the lines that have reached the peer comes one more, and what it says is the
  frame. This takes writes that succeed. -/
  received : ∀ config steps now, (∀ s ∈ steps, s.fault? = none) →
    let c := (fresh config).after steps
    let command := Command.store collection document v
    let id := c.exchange.ids.peek now
    let frame := command.frame id
    c.exchange.closedFor = none →
      c.dispatch now command.verb.token command.arguments =
        (⟨id, c.exchange.mailroom.nextTicket, some frame, []⟩,
          { c with
            exchange := (c.exchange.issue now command.verb.token).2
            written := c.written ++ lineOf frame }) ∧
      ∃ ended, AreLines c.written ended [] ∧
        AreLines (c.written ++ lineOf frame) (ended ++ [lineOf frame]) [] ∧
        frame? (lineOf frame) = some frame
  /-- On the command line the document may be laid out in any way. If the server can be reached, all that is
  sent is its frame, as one line. -/
  entered : ∀ text, Json.read text = .ok v → ∀ words config reach peer now,
    Invocation.read words = .ok ⟨config, .set collection document text⟩ → reach config = .ok peer →
    let frame := (Command.store collection document v).frame ((fresh config).exchange.ids.peek now)
    (run words now reach).connected ∧ (run words now reach).sent = lineOf frame ∧
      AreLines (lineOf frame) [lineOf frame] []
  /-- Texts of the same document make the same command. -/
  alike : ∀ text other, Json.read text = .ok v → Json.read other = .ok v →
    (Task.set collection document text).command = (Task.set collection document other).command

variable {collection document : String} {v : Json}

theorem Task.command_set {text : String} (reads : Json.read text = .ok v) :
    (Task.set collection document text).command = .ok (.store collection document v) := by
  simp only [Task.command, reads]

/-- Of the texts for a body just those that can be read are accepted. -/
theorem Task.command_set_eq_ok_iff {text : String} {command : Command} :
    (Task.set collection document text).command = .ok command ↔
      ∃ v, Json.read text = .ok v ∧ command = .store collection document v := by
  cases reads : Json.read text with
  | error e => simp [Task.command, reads]
  | ok v => simp [Task.command, reads, eq_comm]

/-- The body of a document has no control character, whatever the document. So the frame that stores it goes
out under all names that stay on one line, and from every text that the command line accepts. -/
theorem stored_document_is_one_line (collection document : String) :
    (∀ v, ∃ body, Command.store collection document v = .set collection document body ∧
      Json.NoControls body.toList) ∧
    (∀ text command, (Task.set collection document text).command = .ok command ↔
      ∃ v, Json.read text = .ok v ∧ command = .store collection document v) ∧
    (OneLine collection → OneLine document → ∀ v, GoesOut collection document v) := by
  refine ⟨fun v => ⟨v.compact, rfl, v.noControls_compact⟩, fun _ _ => Task.command_set_eq_ok_iff, ?_⟩
  intro placed named v
  have fits : ∀ id, OneLine ((Command.store collection document v).frame id) :=
    fun id => (Command.oneLine_frame_store id v).mpr ⟨placed, named⟩
  constructor
  case accepted => exact fun id => Lines.encode_of_oneLine (fits id)
  case received =>
    intro config steps now whole c command id frame isOpen
    have clear : c.unsent = [] := (Connection.after_written _ whole rfl).2
    have spelled : frame? (lineOf frame) = some frame := Lines.frame?_eq_some_iff.mpr
      (Lines.isFrame_lineOf (fits id) (Connection.requestFrame_ne_empty _ _ _))
    obtain ⟨ended, before, after⟩ := Connection.exists_areLines_written config whole (fits id)
    refine ⟨?_, ended, before, after, spelled⟩
    have sent := Connection.dispatch_of_oneLine isOpen (fits id)
    rw [clear, List.nil_append] at sent
    rw [clear]
    exact sent
  case entered =>
    intro text reads words config reach peer now read reached frame
    let plan : Plan := ⟨config, .store collection document v⟩
    have line : plan.frame now = frame := by
      rw [Plan.frame, ← plan.dispatch_eq_launch now, Connection.dispatch_id]
    have written := (plan.launch_of_oneLine now (line ▸ fits _)).2
    rw [run_of_command read (Task.command_set reads) reached now]
    refine ⟨rfl, written.trans (congrArg lineOf line), ?_⟩
    exact (Lines.areLines_append_lineOf (List.forall_mem_nil _) (fits _)).2
  case alike =>
    intro text other reads readsToo
    rw [Task.command_set reads, Task.command_set readsToo]

/-- A document with a line break in a key. -/
def brokenKey : Json := .object [("a\n", .array [.number (.exact ⟨1, by decide, by decide⟩)])]

/-- The document laid out over four lines. -/
def manyLines : String := "\x7b\n\t\"a\\n\":\r\n[1\n]\x7d"

theorem stored_document_is_one_line_manyLines :
    OneLine "c" ∧ OneLine "d" ∧
      (run ["set", "c", "d", manyLines] 0 fun _ => .ok lastWord).sent =
        lineOf "ID 1 SET d FROM c TO \x7b\"a\\n\":[1]\x7d" := by
  have placed : OneLine "c" := by decide
  have named : OneLine "d" := by decide
  have goesOut := (stored_document_is_one_line "c" "d").2.2 placed named brokenKey
  have reads : Json.read manyLines = .ok brokenKey := by cbv
  have read : Invocation.read ["set", "c", "d", manyLines] = .ok ⟨{}, .set "c" "d" manyLines⟩ := by cbv
  have line : (Command.store "c" "d" brokenKey).frame ((fresh {}).exchange.ids.peek 0) =
      "ID 1 SET d FROM c TO \x7b\"a\\n\":[1]\x7d" := by decide +kernel
  obtain ⟨-, sent, -⟩ := goesOut.entered _ reads _ {} (fun _ => .ok lastWord) lastWord 0 read rfl
  exact ⟨placed, named, sent.trans (congrArg lineOf line)⟩

end CommandLine

end Switchboard
