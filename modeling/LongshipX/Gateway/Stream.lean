import LongshipX.Gateway.Gate
import LongshipX.Net.Delivery
import LongshipX.Protocol.GameCodec
import LongshipX.Room.Overflow

/-!
# A connection, from the rooms to the socket

What `handle_admitted_connection` puts together: the sink that the rooms send their events to, the read loop and the
translator, the outbound queue that both fill, and the writer that empties it onto the socket. Each part is the one of
its own module; here they share their channels.

* `frameOf` : `GameCodec::encode`;
* `State`, `State.net` : all parts; the outbound side as the writer sees it, in frames;
* `State.step`, `system` : a step of one part, with what it does to its channels.
-/

namespace LongshipX.Stream
open Protocol ReadLoop Broadcast
open Net (Frame OutboundSender Connection ConnectionConfig ConnectionLabel Work WriterPhase)

/-- `GameCodec::encode`; `encode_eq` says that it has no error path. -/
def frameOf (g : Generated) : OutboundMessage → Frame
  | .bindResult result => ⟨opS2cBindResult, g.bindResult.encodeToVec result⟩
  | .heartbeatAck ack => ⟨opS2cHeartbeatAck, g.heartbeatAck.encodeToVec ack⟩
  | .profile response => ⟨opS2cProfile, g.profileResponse.encodeToVec response⟩
  | .roomEvent notification => ⟨opS2cRoomEvent, g.roomEventNotification.encodeToVec notification⟩
  | .error notification => ⟨opS2cError, g.errorNotification.encodeToVec notification⟩
  | .shutdown notice => ⟨opS2cServerShutdown, g.serverShutdownNotice.encodeToVec notice⟩

theorem encode_eq (g : Generated) (message : OutboundMessage) : (gameCodec g).encode message = .ok (frameOf g message) := by
  cases message <;> rfl

/-- A connection with all its parts. `senders` says whether a clone of its `OutboundSender` is left. -/
structure State (β : Type) where
  room : Overflow.State
  conn : Conn β
  senders : Bool
  work : Work
  writer : WriterPhase
  socket : List UInt8

inductive Label where
  /-- A room clones the sink, drops its clone or sends an event. -/
  | room (label : Overflow.Label)
  /-- The translator takes an event from the sink's queue. -/
  | event
  /-- Another step of the read loop or the translator; time passes. -/
  | task (label : ReadLoop.Label)
  /-- `ConnectionRegistry::broadcast`, which is called with shutdown notices only. -/
  | broadcast (notice : ServerShutdownNotice)
  /-- The tasks are over, and the last `OutboundSender` is dropped. -/
  | release
  | writer (label : ConnectionLabel)

variable {β : Type}

/-- What the writer works on; `history` is what the clones of the sender have done. -/
def State.net (g : Generated) (history : List Net.SenderEvent) (s : State β) : Connection where
  outbound := s.conn.outbound.map (frameOf g)
  clones := [s.senders]
  history := history
  work := s.work
  writer := s.writer
  socket := s.socket

/-- A room's part of the sink. -/
def ofRoom : Overflow.Label → Bool
  | .clone _ | .dropClone _ | .trySend _ _ => true
  | .recv | .dropReceiver => false

/-- A step of the writer, or of the peer and the drain deadline. -/
def ofWriter : ConnectionLabel → Bool
  | .clone _ | .trySendFrame _ _ | .disconnect _ | .dropSender _ => false
  | .recv | .write _ | .flush | .ioError | .finish | .signal | .deadline | .abort => true

/-- What the rest of the connection has to say to a step of a task. -/
def State.ready (s : State β) : ReadLoop.Label → Bool
  | .roomTxFailed => s.room.sink.failed
  | .eventsClosed => s.room.clones.all (fun live => !live) && s.room.sink.tx.queue.isEmpty
  | .event _ | .written | .writerEnds | .broadcast _ | .disconnect => false
  | _ => true

/-- When the translator is over, the receiver of the sink is dropped. -/
def State.settle (s : State β) : State β :=
  if s.conn.translator = .finished then
    { s with room := { s.room with sink := { s.room.sink with tx := s.room.sink.tx.dropReceiver } } }
  else s

/-- The queue as the writer has left it. -/
def follow (conn : Conn β) (c : Connection) : Conn β :=
  { conn with outbound := { conn.outbound with tx := { conn.outbound.tx with
      queue := conn.outbound.tx.queue.drop (conn.outbound.tx.queue.length - c.outbound.tx.queue.length)
      receiver := c.outbound.tx.receiver } } }

def State.step (g : Generated) (setup : Setup β) (config : ConnectionConfig) (s : State β) : Label → Option (State β)
  | .room label => if ofRoom label then (s.room.step label).map fun room => { s with room := room } else none
  | .event =>
    match s.senders, s.room.sink.tx.recv with
    | true, some (event, tx) =>
      (s.conn.step setup (.event event)).map fun conn =>
        { s with
          room := { s.room with sink := { s.room.sink with tx := tx }, obtained := s.room.obtained ++ [event] }
          conn := conn }.settle
    | _, _ => none
  | .task label =>
    if s.senders && s.ready label then (s.conn.step setup label).map fun conn => { s with conn := conn }.settle else none
  | .broadcast notice =>
    if s.senders then (s.conn.step setup (.broadcast (.shutdown notice))).map fun conn => { s with conn := conn } else none
  | .release =>
    if s.conn.reader = .returned ∧ s.conn.translator = .finished ∧ s.senders = true then some { s with senders := false }
    else none
  | .writer label =>
    if ofWriter label then
      ((s.net g []).step config label).map fun c =>
        { s with conn := follow s.conn c, work := c.work, writer := c.writer, socket := c.socket }
    else none

/-- A new connection. -/
def init (config : ConnectionConfig) (roomEventCapacity : Nat) (now deadline : Instant) (utcNow : Int) (bucket : Option β) :
    State β where
  room := (Overflow.system roomEventCapacity).init
  conn := .accept now deadline utcNow bucket config.sendQueueCapacity
  senders := true
  work := .receiving
  writer := .selecting
  socket := []

def system (g : Generated) (setup : Setup β) (config : ConnectionConfig) (start : State β) :
    TransitionSystem (State β) Label where
  init := start
  step := State.step g setup config

end LongshipX.Stream
