import Switchboard.Connection
import Switchboard.Proofs.Lines

/-! # What comes in from a stream

However the bytes of a stream arrive, the exchange gets the frames of the lines that have ended. The
end of the stream ends the last line too, and then closes the exchange.
-/

namespace Switchboard.Connection

variable {c : Connection}

/-- To route frames is to receive them one after the other. -/
theorem receiveAll_eq_foldl (x : Exchange) (frames : List String) :
    receiveAll x frames = frames.foldl (fun y frame => (y.receive frame).2) x := rfl

theorem receiveAll_append (x : Exchange) (frames more : List String) :
    receiveAll x (frames ++ more) = receiveAll (receiveAll x frames) more :=
  List.foldl_append

theorem receive_listening (listening : c.listening) (bytes : List UInt8) :
    c.receive bytes =
      { c with
        exchange := receiveAll c.exchange (c.buffer.feed bytes).1,
        buffer := (c.buffer.feed bytes).2 } := by
  simp [receive, listening]

/-- Where a chunk ends makes no difference. -/
theorem receive_append (listening : c.listening) (bytes more : List UInt8) :
    c.receive (bytes ++ more) = (c.receive bytes).receive more := by
  have still : (c.receive bytes).listening := by rwa [receive_listening listening]
  rw [receive_listening still, receive_listening listening, receive_listening listening,
    Lines.Buffer.feed_append, receiveAll_append]

theorem foldl_receive (listening : c.listening) (chunks : List (List UInt8)) :
    chunks.foldl receive c = c.receive chunks.flatten := by
  induction chunks generalizing c with
  | nil => rw [List.foldl_nil, List.flatten_nil, receive_listening listening]; rfl
  | cons chunk chunks ih =>
      have still : (c.receive chunk).listening := by rwa [receive_listening listening]
      rw [List.foldl_cons, ih still, List.flatten_cons, receive_append listening]

/-- The connection of an exchange to which chunks of bytes have come. -/
def served (x : Exchange) (written : List UInt8) (chunks : List (List UInt8)) : Connection :=
  chunks.foldl receive { exchange := x, written }

theorem served_eq (x : Exchange) (written : List UInt8) {chunks : List (List UInt8)}
    {ended : List (List UInt8)} {rest : List UInt8}
    (lines : Lines.AreLines chunks.flatten ended rest) :
    served x written chunks =
      { exchange := receiveAll x (ended.filterMap Lines.frame?),
        buffer := ⟨rest.reverse⟩, written } := by
  rw [served, foldl_receive rfl, receive_listening rfl, Lines.Buffer.feed_lines lines]

/-- The exchange has received the frame of every line that has ended, in order, and no other. When the
stream ends it has received the frames of the whole stream, and closes. -/
theorem inbound_stream_law (x : Exchange) (written : List UInt8) (chunks : List (List UInt8)) :
    (∃ ended rest, Lines.AreLines chunks.flatten ended rest ∧
      Lines.frames chunks.flatten = (ended ++ [rest]).filterMap Lines.frame? ∧
      (served x written chunks).exchange =
        (ended.filterMap Lines.frame?).foldl (fun y frame => (Exchange.receive y frame).2) x) ∧
    (served x written chunks).endOfStream.exchange =
      (((Lines.frames chunks.flatten).foldl (fun y frame => (Exchange.receive y frame).2) x).close
        serverClosed).2 ∧
    ∀ line frame, Lines.frame? line = some frame ↔ Lines.IsFrame line frame := by
  simp only [← receiveAll_eq_foldl]
  obtain ⟨ended, rest, lines⟩ := Lines.exists_areLines chunks.flatten
  refine ⟨⟨ended, rest, lines, lines.frames_eq, ?_⟩, ?_, fun line frame => Lines.frame?_eq_some_iff⟩
  · rw [served_eq x written lines]
  · have last : (ended ++ [rest]).filterMap Lines.frame? =
        ended.filterMap Lines.frame? ++ (Lines.frame? rest).toList := by
      cases found : Lines.frame? rest <;> simp [found]
    rw [served_eq x written lines, lines.frames_eq, last, receiveAll_append]
    simp [endOfStream, Lines.Buffer.flush]

/-- A reply in two chunks, a line that is no text, a blank one, and a reply whose line does not end. -/
def unevenChunks : List (List UInt8) :=
  ["ID 1 [\"succ".toUTF8.toList, "ess\",true]\r\n".toUTF8.toList ++ [0xff, 0x41, Lines.newline],
    [13, Lines.newline], "ID 2 [\"failure\",null,\"gone\"]".toUTF8.toList]

theorem inbound_stream_law_unevenChunks :
    let x := (((Exchange.fresh .counter true).issue 0 "GET").2.issue 0 "GET").2
    let answered := x.receive "ID 1 [\"success\",true]"
    let refused := answered.2.receive "ID 2 [\"failure\",null,\"gone\"]"
    answered.1 = .resolved ⟨1⟩ ∧ refused.1 = .rejected ⟨2⟩ ∧
      (served x [] unevenChunks).exchange = answered.2 ∧
      (served x [] unevenChunks).endOfStream.exchange = (refused.2.close serverClosed).2 := by
  intro x answered refused
  obtain ⟨⟨ended, rest, lines, -, before⟩, after, -⟩ := inbound_stream_law x [] unevenChunks
  have frames : Lines.frames unevenChunks.flatten =
      ["ID 1 [\"success\",true]", "ID 2 [\"failure\",null,\"gone\"]"] := by
    decide +kernel
  have early : ended.filterMap Lines.frame? = ["ID 1 [\"success\",true]"] := by
    have fed : _ = ended.filterMap Lines.frame? := congrArg Prod.fst (Lines.Buffer.feed_lines lines)
    rw [← fed]
    decide +kernel
  rw [early] at before
  rw [frames] at after
  exact ⟨by decide +kernel, by decide +kernel, before, after⟩

end Switchboard.Connection
