import Switchboard.Failure

/-!
# Frame channels

A transport inside one process: frames queue up until the receiving end takes them.
-/

namespace Switchboard

/-- The frames that were sent and not taken yet, and whether the receiving end still exists. -/
structure FrameChannel where
  queue : List String := []
  isOpen : Bool := true
  deriving DecidableEq, Repr

namespace FrameChannel

/-- Hands a frame over; without a receiving end it is refused. -/
def send (channel : FrameChannel) (frame : String) : Except Failure FrameChannel :=
  if channel.isOpen then .ok { channel with queue := channel.queue ++ [frame] }
  else .error (.network "frame channel closed")

/-- Takes all frames out, in the order in which they were sent. -/
def takeAll (channel : FrameChannel) : List String × FrameChannel :=
  (channel.queue, { channel with queue := [] })

/-- The receiving end goes away, with the frames it has not taken. -/
def dropReceiver (_ : FrameChannel) : FrameChannel := { queue := [], isOpen := false }

end FrameChannel

end Switchboard
