import Switchboard.Failure

/-!
# Lines

On a byte stream every frame is a line of UTF-8 text. A line ends with a newline, and the last one
may end with the stream. Lines that are not UTF-8 are dropped, and so are empty ones.
-/

namespace Switchboard.Lines

/-- The byte that ends a line. -/
def newline : UInt8 := 10

/-- The characters that may not stand in a frame. -/
def isBreak (c : Char) : Bool := c == '\n' || c == '\r'

/-- The line of a frame. A frame with a line break in it would come out as several. -/
def encode (frame : String) : Except Failure (List UInt8) :=
  if frame.toList.any isBreak then .error (.protocol .lineBreak)
  else .ok (frame.toUTF8.toList ++ [newline])

/-- The text of bytes, if they are UTF-8. -/
def text? (bytes : List UInt8) : Option String := String.fromUTF8? (ByteArray.mk bytes.toArray)

/-- A text without the line breaks at its end. -/
def trimBreaks (s : String) : String :=
  String.ofList (s.toList.reverse.dropWhile isBreak).reverse

/-- The frame of a line, if the line is text and not empty. -/
def frame? (line : List UInt8) : Option String :=
  match text? line with
  | none => none
  | some s =>
    let frame := trimBreaks s
    if frame = "" then none else some frame

/-- Cuts bytes after each newline. -/
def cut : List UInt8 → List (List UInt8)
  | [] => []
  | b :: bs =>
    if b = newline then [b] :: cut bs
    else
      match cut bs with
      | [] => [[b]]
      | line :: lines => (b :: line) :: lines

/-- All frames of a stream that has ended. -/
def frames (bytes : List UInt8) : List String := (cut bytes).filterMap frame?

/-- The bytes of the line that has not ended yet, newest first. -/
structure Buffer where
  held : List UInt8 := []
  deriving DecidableEq, Repr

namespace Buffer

/-- Takes one byte. At the end of a line its frame comes out, if it has one. -/
def push (b : Buffer) (byte : UInt8) : Option String × Buffer :=
  if byte = newline then (frame? (byte :: b.held).reverse, {})
  else (none, ⟨byte :: b.held⟩)

/-- Takes a chunk of bytes; the frames of the lines that end in it come out. -/
def feed (b : Buffer) : List UInt8 → List String × Buffer
  | [] => ([], b)
  | byte :: rest =>
    let (frame, b) := b.push byte
    let (frames, b) := b.feed rest
    (frame.toList ++ frames, b)

/-- How a stream is cut into chunks makes no difference. -/
theorem feed_append (b : Buffer) (bytes more : List UInt8) :
    b.feed (bytes ++ more) =
      ((b.feed bytes).1 ++ ((b.feed bytes).2.feed more).1, ((b.feed bytes).2.feed more).2) := by
  induction bytes generalizing b with
  | nil => rfl
  | cons byte rest ih => simp [feed, ih, List.append_assoc]

/-- The stream has ended: what is held is the last line. -/
def flush (b : Buffer) : List String := (frame? b.held.reverse).toList

end Buffer

end Switchboard.Lines
