import LongshipX.Lib.Channel
import LongshipX.Net.Codec

/-!
# The bounded outbound queue

`OutboundSender` of `backpressure.rs`: the sending half of the queue that the writer task empties, with a flag
that marks the connection as gone for good.
-/

namespace LongshipX.Net

/-- `NetError::is_disconnect`. -/
def NetError.isDisconnect : NetError → Bool
  | .io .unexpectedEof => true
  | .io .connectionReset => true
  | .io .connectionAborted => true
  | .io .brokenPipe => true
  | .closed => true
  | .tls _ => true
  | _ => false

/-- `OutboundSender`; all its clones share the queue and the flag. -/
structure OutboundSender (α : Type) where
  tx : Channel α
  disconnected : Bool
  deriving DecidableEq, Repr

namespace OutboundSender

variable {α : Type}

def new (capacity : Nat) : OutboundSender α := ⟨.new capacity, false⟩

def isClosed (sender : OutboundSender α) : Bool := !sender.tx.receiver || sender.disconnected

def disconnect (sender : OutboundSender α) : OutboundSender α := { sender with disconnected := true }

/-- `try_send_frame`. -/
def trySendFrame (sender : OutboundSender α) (frame : α) : Except NetError Unit × OutboundSender α :=
  if sender.isClosed then (.error .closed, sender)
  else match sender.tx.trySend frame with
    | (.ok (), tx) => (.ok (), { sender with tx := tx })
    | (.error .full, tx) => (.error .queueFull, { sender with tx := tx }.disconnect)
    | (.error .closed, tx) => (.error .closed, { sender with tx := tx }.disconnect)

/-- What `try_send_frame` can do: refuse, fill up and mark the connection as gone, or enqueue. -/
theorem trySendFrame_cases (sender : OutboundSender α) (frame : α) :
    (sender.isClosed = true ∧ sender.trySendFrame frame = (.error .closed, sender)) ∨
    (sender.isClosed = false ∧ sender.trySendFrame frame = (.error .queueFull, sender.disconnect)) ∨
    (sender.isClosed = false ∧ sender.trySendFrame frame = (.ok (), { sender with
      tx := { sender.tx with queue := sender.tx.queue ++ [frame], enqueued := sender.tx.enqueued ++ [frame] } })) := by
  unfold trySendFrame
  cases hclosed : sender.isClosed with
  | true => exact Or.inl ⟨rfl, rfl⟩
  | false =>
      have hreceiver : sender.tx.receiver = true := by simp_all [isClosed]
      unfold Channel.trySend
      rw [if_neg (by simp), if_neg (by simp [hreceiver])]
      split_ifs with hfull
      · exact Or.inr (Or.inl ⟨rfl, rfl⟩)
      · exact Or.inr (Or.inr ⟨rfl, rfl⟩)

/-! ## Another form of the frames -/

variable {β : Type} {f : α → β}

def map (f : α → β) (sender : OutboundSender α) : OutboundSender β := ⟨sender.tx.map f, sender.disconnected⟩

theorem trySendFrame_map (sender : OutboundSender α) (frame : α) :
    (sender.map f).trySendFrame (f frame) = ((sender.trySendFrame frame).1, (sender.trySendFrame frame).2.map f) := by
  unfold trySendFrame
  rw [show (sender.map f).isClosed = sender.isClosed from rfl, show (sender.map f).tx = sender.tx.map f from rfl,
    Channel.trySend_map]
  split_ifs
  · rfl
  · rcases sender.tx.trySend frame with ⟨_ | _, tx⟩
    · next err => cases err <;> rfl
    · rfl

end OutboundSender

end LongshipX.Net
