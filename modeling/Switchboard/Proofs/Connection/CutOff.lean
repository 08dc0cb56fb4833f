import Switchboard.Proofs.Connection.Ending
import Switchboard.Proofs.Frame

/-! # A reply that is cut off

Nothing that is read off the beginning of a reply is a reply of its own: an envelope is over only at the
bracket that closes it, and after that there is room for nothing but blanks. So when a stream ends in the
middle of a line, the part of the line that came in brings the reply of the whole line or none.
-/

namespace Switchboard

section Reading

theorem EnvelopeReader.eq_closed_of_finish {s : EnvelopeReader} {status : String} {e : Envelope}
    (finished : s.finish = .ok (status, e)) : s = .closed status e := by
  cases s with
  | closed => simpa [finish] using finished
  | foreign r => cases read : r.finish .keep <;> simp [finish, read, Except.bind] at finished
  | reading layout e slot r =>
      cases read : r.finish (careFor slot) with
      | error problem => simp [finish, read, Except.bind] at finished
      | ok v => cases filled : e.fill slot v <;> simp [finish, read, filled, Except.bind] at finished
  | start | firstKey | nextKey | key | colon | firstElement | value | after => simp [finish] at finished

/-- After the end of an envelope nothing changes what it says. -/
theorem EnvelopeReader.foldlM_closed {status : String} {e : Envelope} {cs : List Char}
    {s : EnvelopeReader} (reads : cs.foldlM step (.closed status e) = .ok s) : s = .closed status e := by
  induction cs with
  | nil => simpa [pure, Except.pure] using reads.symm
  | cons c cs ih =>
      rw [List.foldlM_cons, step] at reads
      split at reads
      · exact ih reads
      · contradiction

/-- If what stands in front is an envelope, the whole is no other one. -/
theorem Envelope.read_of_prefix {front whole : String} (prefixed : front.toList <+: whole.toList)
    {first second : String × Envelope} (readFront : read front = .ok first)
    (readWhole : read whole = .ok second) : first = second := by
  obtain ⟨rest, spelled⟩ := prefixed
  rw [read, ← spelled, List.foldlM_append] at readWhole
  rw [read] at readFront
  cases reached : front.toList.foldlM EnvelopeReader.step .start with
  | error problem => simp [reached, Except.bind] at readFront
  | ok s =>
      rw [reached] at readFront readWhole
      -- The front ends in a reader that has closed the envelope, and no rest opens it again.
      obtain rfl := EnvelopeReader.eq_closed_of_finish readFront
      change Except.bind (rest.foldlM EnvelopeReader.step (.closed first.1 first.2)) _ = _ at readWhole
      cases ended : rest.foldlM EnvelopeReader.step (.closed first.1 first.2) with
      | error problem => simp [ended, Except.bind] at readWhole
      | ok t =>
          rw [ended, EnvelopeReader.foldlM_closed ended] at readWhole
          exact Except.ok.inj readWhole

theorem Reply.read_of_prefix {front whole : String} (prefixed : front.toList <+: whole.toList)
    {reply : Reply} (readWhole : read whole = .ok reply) :
    (∃ problem, read front = .error problem) ∨ read front = .ok reply := by
  unfold read at readWhole ⊢
  cases first : Envelope.read front with
  | error problem => exact Or.inl ⟨_, rfl⟩
  | ok envelope =>
      cases second : Envelope.read whole with
      | error problem => simp [second] at readWhole
      | ok other =>
          obtain rfl := Envelope.read_of_prefix prefixed first second
          rw [second] at readWhole
          exact Or.inr readWhole

/-- The beginning of a reply frame is no reply frame, or the same one: what cuts the frame stands in the
beginning already, if there is a payload in it at all. -/
theorem ReplyFrame.decode_of_prefix {front whole : String} (prefixed : front.toList <+: whole.toList)
    {token : String} {reply : Reply} (decoded : decode whole = .ok (token, reply)) :
    (∃ problem, decode front = .error problem) ∨ decode front = .ok (token, reply) := by
  cases decodedFront : decode front with
  | error problem => exact Or.inl ⟨problem, rfl⟩
  | ok found =>
      right
      obtain ⟨payload, spelled, named, unbroken, readWhole⟩ := decode_eq_ok_iff.mp decoded
      obtain ⟨part, spelledFront, -, unbrokenFront, readFront⟩ := decode_eq_ok_iff.mp decodedFront
      obtain ⟨rest, same⟩ := prefixed
      rw [spelled, spelledFront, toList_spelled, toList_spelled, List.append_assoc] at same
      obtain ⟨tokens, payloads⟩ : found.1.toList = token.toList ∧
          part.toList ++ rest = payload.toList :=
        eq_of_append_separator unbrokenFront unbroken (by simpa using same)
      have longer : part.toList <+: payload.toList := ⟨rest, payloads⟩
      rcases Reply.read_of_prefix longer readWhole with ⟨problem, refused⟩ | read
      · rw [readFront] at refused
        contradiction
      · rw [readFront] at read
        rw [← String.toList_injective tokens, ← Except.ok.inj read]

end Reading

/-- The part of a line that came in gives no frame, or the beginning of the frame of the line. It may
reach into the line breaks at the end of the line, but the frame that it gives does not. -/
theorem Lines.frame?_of_prefix {line part : List UInt8} {frame : String} (is : IsFrame line frame)
    (prefixed : part <+: line) {front : String} (given : frame? part = some front) :
    front.toList <+: frame.toList := by
  obtain ⟨⟨last, lasts, firm⟩, breaks, -, spelledPart⟩ := frame?_eq_some_iff.mp given
  obtain ⟨others, only, spelled⟩ := is.spelled
  have within : (front ++ breaks).toList <+: (frame ++ others).toList := by
    obtain ⟨rest, same⟩ := prefixed
    apply List.isPrefix_of_utf8Encode_append_eq_utf8Encode ⟨rest.toArray⟩
    rw [String.utf8Encode_toList, String.utf8Encode_toList]
    apply ByteArray.ext
    apply Array.ext'
    rw [spelledPart, spelled, toList_eq_data, toList_eq_data] at same
    simpa using same
  rw [String.toList_append, String.toList_append] at within
  have reaches : front.toList <+: frame.toList ++ others.toList :=
    (List.prefix_append _ _).trans within
  rcases List.prefix_or_prefix_of_prefix reaches (List.prefix_append _ _) with inside | ⟨more, longer⟩
  · exact inside
  · -- Otherwise the front would end in a line break of the line, and no frame does.
    cases more with
    | nil => rw [← longer, List.append_nil]
    | cons c more =>
        rw [← longer, List.prefix_append_right_inj] at reaches
        rw [← longer, List.getLast?_append_cons] at lasts
        exact absurd (only last (reaches.subset (List.mem_of_getLast? lasts))) firm

theorem Exchange.receive_of_error (x : Exchange) {text : String} {problem : Failure}
    (refused : ReplyFrame.decode text = .error problem) : (x.receive text).2 = x := by
  rw [receive, refused]

/-- Only what a frame says counts. -/
theorem Exchange.receive_of_decode_eq (x : Exchange) {first second : String}
    (same : ReplyFrame.decode first = ReplyFrame.decode second) : x.receive first = x.receive second := by
  rw [receive, receive, same]

namespace Connection

variable {c : Connection} {ticket : Ticket} {id : RequestId}

/-- When the stream ends in the middle of a line, the exchange is left as if the line had not come, or as
if it had come whole. -/
theorem endOfStream_of_prefix (listening : c.listening) {line : List UInt8} {frame : String}
    (held : c.buffer.held.reverse <+: line) (is : Lines.IsFrame line frame) {token : String}
    {reply : Reply} (decoded : ReplyFrame.decode frame = .ok (token, reply)) :
    c.endOfStream.exchange = (c.exchange.close serverClosed).2 ∨
      c.endOfStream.exchange = ((c.exchange.receive frame).2.close serverClosed).2 := by
  rw [endOfStream, if_pos listening, Lines.Buffer.flush]
  cases given : Lines.frame? c.buffer.held.reverse with
  | none => exact Or.inl rfl
  | some front =>
      simp only [Option.toList_some, receiveAll, List.foldl_cons, List.foldl_nil]
      rcases ReplyFrame.decode_of_prefix (Lines.frame?_of_prefix is held given) decoded with
        ⟨problem, refused⟩ | same
      · left
        rw [c.exchange.receive_of_error refused]
      · right
        rw [c.exchange.receive_of_decode_eq (same.trans decoded.symm)]

/-- What the end of the connection brings a request that waits: the reason, or nothing if what is pending
is kept. -/
def LeftAlone (x : Exchange) (ticket : Ticket) (id : RequestId) (reason : String) : Prop :=
  if x.rejectsOnClose then x.Finds ticket (.error (.disconnected reason)) else x.FindsNothing ticket id

theorem leftAlone_close {x : Exchange} (coherent : Exchange.Coherent x) (isOpen : x.closedFor = none)
    (located : x.mailroom.boxes[ticket]? = some (id, .waiting)) (reason : String) :
    LeftAlone (x.close reason).2 ticket id reason := by
  have left := coherent.undergo_waiting located (.event (.close reason))
  rw [Exchange.undergo_close, Happening.leaves, isOpen] at left
  rw [LeftAlone, Exchange.close_rejectsOnClose]
  split
  case isTrue rejects =>
    rw [if_pos rejects] at left
    exact Exchange.finds_of_outcomeOf left rfl
  case isFalse keeps =>
    rw [if_neg keeps] at left
    exact Exchange.findsNothing_of_waiting left

theorem finds_receive_close {x : Exchange} (coherent : Exchange.Coherent x) {frame : String}
    {reply : Reply} (answers : ReplyFrame.answer? frame = some (id, reply))
    (located : x.mailroom.boxes[ticket]? = some (id, .waiting)) (reason : String) :
    ((x.receive frame).2.close reason).2.Finds ticket reply.outcome := by
  have brought := coherent.undergo_waiting located (.event (.frame frame))
  simp only [Happening.leaves, answers, if_true] at brought
  have kept := coherent.undergo (.event (.frame frame))
  exact Exchange.finds_of_outcomeOf (close_settled kept (by simp) brought reason) rfl

/-- A reply that is cut off is not taken for another one. Whatever stands at the beginning of a frame is
no reply, or says what the whole frame says. So when the peer stops sending in the middle of a line with a
reply, wherever it is, the exchange closes as if the line had not come or as if it had come whole, and
the request is left to the end of the connection or finds the reply of the whole line. -/
theorem cut_off_reply_is_no_other (frame token : String) (reply : Reply)
    (decoded : ReplyFrame.decode frame = .ok (token, reply)) :
    (∀ front : String, front.toList <+: frame.toList →
      (∃ problem, ReplyFrame.decode front = .error problem) ∨
        ReplyFrame.decode front = .ok (token, reply)) ∧
    ∀ (config : Config) (steps : List Step) (ended : List (List UInt8)) (rest line : List UInt8),
      (fresh config).Along steps → firstEnd steps = none →
      Lines.AreLines (bytesServed steps) ended rest → rest <+: line → Lines.IsFrame line frame →
      let x := ((fresh config).after steps).exchange
      let y := ((fresh config).after (steps ++ [.hangUp])).exchange
      (y = (x.close serverClosed).2 ∨ y = ((x.receive frame).2.close serverClosed).2) ∧
        ∀ ticket id, id.token = token → id ∈ x.pending.ids → x.mailroom.owner? ticket = some id →
          x.isHeld ticket → LeftAlone y ticket id serverClosed ∨ y.Finds ticket reply.outcome := by
  refine ⟨fun front prefixed => ReplyFrame.decode_of_prefix prefixed decoded, ?_⟩
  intro config steps ended rest line numbered lasts lines prefixed is x y
  obtain ⟨-, buffer, listening⟩ := heard_eq_feed (c := fresh config) rfl lasts
  have fed : Lines.Buffer.feed (fresh config).buffer (bytesServed steps) =
      (ended.filterMap Lines.frame?, ⟨rest.reverse⟩) := Lines.Buffer.feed_lines lines
  have held : ((fresh config).after steps).buffer.held.reverse <+: line := by
    rwa [buffer, fed, List.reverse_reverse]
  have last : y = ((fresh config).after steps).endOfStream.exchange := by
    simp only [y, after_append]
    rfl
  have sound := (Sound.fresh config).after numbered
  have isOpen : x.closedFor = none := ((Sound.fresh config).after_closedFor numbered).trans lasts
  have ways := endOfStream_of_prefix listening held is decoded
  rw [← last] at ways
  refine ⟨ways, ?_⟩
  rintro ticket id rfl pending owned unread
  have located : x.mailroom.boxes[ticket]? = some (id, .waiting) := by
    have there := Mailroom.located_of_owner? owned
    have waits := sound.coherent.waiting_iff_pending there ((Exchange.isHeld_iff there).mp unread)
    rwa [waits.mpr pending] at there
  rcases ways with same | same
  · left
    rw [same]
    exact leftAlone_close sound.coherent isOpen located serverClosed
  · right
    rw [same]
    exact finds_receive_close sound.coherent (ReplyFrame.answer?_eq_some_iff.mpr decoded) located
      serverClosed

/-- The peer stops sending in the middle of a number that is whole as far as it has come, or with nothing
missing but the newline. -/
theorem cut_off_reply_is_no_other_inNumber :
    let frame := "ID 1 [\"failure\",-125,\"ü\"]"
    let inNumber := "ID 1 [\"failure\",-12".toUTF8.toList
    let unended := frame.toUTF8.toList
    let steps (rest : List UInt8) : List Step := [.dispatch 0 "GET" ["a"], .serve rest]
    ReplyFrame.decode frame = .ok ("1", .failure "ü") ∧ Lines.IsFrame (Lines.lineOf frame) frame ∧
      ((fresh {}).Along (steps inNumber) ∧ firstEnd (steps inNumber) = none ∧
        Lines.AreLines (bytesServed (steps inNumber)) [] inNumber ∧ inNumber <+: Lines.lineOf frame ∧
        ((fresh {}).after (steps inNumber ++ [.hangUp])).exchange.Finds 0
          (.error (.disconnected serverClosed))) ∧
      (fresh {}).Along (steps unended) ∧ firstEnd (steps unended) = none ∧
        Lines.AreLines (bytesServed (steps unended)) [] unended ∧ unended <+: Lines.lineOf frame ∧
        ((fresh {}).after (steps unended ++ [.hangUp])).exchange.Finds 0 (.error (.remote "ü")) := by
  intro frame inNumber unended steps
  have decoded : ReplyFrame.decode frame = .ok ("1", .failure "ü") := by cbv
  have is : Lines.IsFrame (Lines.lineOf frame) frame :=
    Lines.isFrame_lineOf (by decide +kernel) (by decide)
  have law := (cut_off_reply_is_no_other frame "1" (.failure "ü") decoded).2
  have words (rest : List UInt8) (failure : Failure)
      (found : ((fresh {}).after (steps rest ++ [.hangUp])).exchange.Finds 0 (.error failure)) :
      ((((fresh {}).after (steps rest ++ [.hangUp])).exchange.poll 0).1.map fun outcome =>
        (outcome.map fun _ => ()).mapError Failure.remoteMessage?) =
          some (.error failure.remoteMessage?) := by
    rw [found.1]
    rfl
  have rejects (rest : List UInt8) :
      ((fresh {}).after (steps rest ++ [.hangUp])).exchange.rejectsOnClose :=
    after_rejectsOnClose (fresh {}) _
  have numbered (rest : List UInt8) : (fresh {}).Along (steps rest) :=
    ⟨by decide +kernel, trivial, trivial⟩
  have lines {rest : List UInt8} (lasts : Lines.newline ∉ rest) :
      Lines.AreLines (bytesServed (steps rest)) [] rest := by
    have served : bytesServed (steps rest) = rest := List.append_nil rest
    rw [served]
    exact .rest lasts
  refine ⟨decoded, is, ?inNumber, ?unended⟩
  case inNumber =>
    have lasts : Lines.AreLines (bytesServed (steps inNumber)) [] inNumber := lines (by decide +kernel)
    have prefixed : inNumber <+: Lines.lineOf frame := by decide +kernel
    refine ⟨numbered _, rfl, lasts, prefixed, ?_⟩
    have fares := law {} _ [] inNumber (Lines.lineOf frame) (numbered _) rfl lasts prefixed is
    rcases fares.2 0 ⟨1⟩ (by cbv) (by decide +kernel) (by decide +kernel) (by decide +kernel) with
      alone | found
    · rwa [LeftAlone, if_pos (rejects _)] at alone
    · exact absurd (words _ _ found) (by decide +kernel)
  case unended =>
    have lasts : Lines.AreLines (bytesServed (steps unended)) [] unended := lines (by decide +kernel)
    have prefixed : unended <+: Lines.lineOf frame := by decide +kernel
    refine ⟨numbered _, rfl, lasts, prefixed, ?_⟩
    have fares := law {} _ [] unended (Lines.lineOf frame) (numbered _) rfl lasts prefixed is
    rcases fares.2 0 ⟨1⟩ (by cbv) (by decide +kernel) (by decide +kernel) (by decide +kernel) with
      alone | found
    · rw [LeftAlone, if_pos (rejects _)] at alone
      exact absurd (words _ _ alone) (by decide +kernel)
    · exact found

end Connection

end Switchboard
