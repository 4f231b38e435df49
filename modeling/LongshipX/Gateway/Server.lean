import LongshipX.Gateway.Requests
import LongshipX.Gateway.Stream
import LongshipX.Room.Audience
import LongshipX.Room.Service

/-!
# The server

The room service with all its rooms, and all connections, each from its sink to its socket. A connection reaches the rooms
through the calls that its handlers await; a room reaches the connections by one `try_send` after the other, on the sinks
that the joins brought. Everything else that the parts do, they do by themselves, in any order.

* `State`, `Label` : the parts and their steps;
* `State.announce` : a broadcast begins;
* `State.step`, `system` : the server.
-/

namespace LongshipX.Server
open Protocol Broadcast
open ReadLoop (Setup Instant)
open Service (CallId Op RoomServiceConfig)
open Net (ConnectionConfig)

/-- A connection is named by its position, and so is its sink. `pending` holds the sends of a room's broadcast that are
still to be performed; `log` is a history: what the room has broadcast. -/
structure State (β : Type) where
  service : Service.State
  conns : List (Stream.State β)
  calling : SinkId → Option CallId
  pending : RoomId → List (SinkId × RoomEvent)
  log : RoomId → List RoomEvent

inductive Label (β : Type) where
  /-- `handle_admitted_connection` sets a connection up. -/
  | accept (now deadline : Instant) (utcNow : Int) (bucket : Option β)
  /-- A step of one connection by itself; clones of its sink come and go with the calls and rooms that hold them. -/
  | conn (k : SinkId) (label : Stream.Label)
  /-- The handler that a read loop awaits calls the room service. -/
  | call (k : SinkId)
  /-- The call is over, and the handler goes on. -/
  | answer (k : SinkId)
  /-- A step of the room service; a call may be dropped, and the clean-up of a connection and the shutdown call it too. -/
  | service (label : Service.Label)
  /-- A room performs the next send of its broadcast, on the clone that its map holds. -/
  | send (room : RoomId) (clone : Nat)

variable {β : Type}

/-- What a call that is over returned. -/
def outcome : Service.Pc → Option (Except AppError (Option RoomId))
  | .returned room => some (.ok room)
  | .failed err => some (.error err)
  | _ => none

/-- The calls of `cleanup_room` and of `graceful_teardown`. -/
def fromOutside : Op → Bool
  | .leaveAll _ _ => true
  | .closeAll _ => true
  | .joinOrCreate _ _ _ _ | .leave _ _ _ | .chat _ _ _ => false

/-- The steps that a connection takes by itself. -/
def byItself : Stream.Label → Bool
  | .room (.trySend _ _) => false
  | .task (.rooms _) => false
  | _ => true

/-- A room goes on when the sends of its broadcast are performed. -/
def State.ready (s : State β) : Service.Label → Bool
  | .start op => fromOutside op
  | .process room | .perform room | .hangup room | .terminate room => (s.pending room).isEmpty
  | .openRoom _ _ | .next _ | .liveHandles _ _ | .drain _ _ | .cancel _ => true

/-- The effect that a step of the service performs. -/
def performed (s : Service.State) : Service.Label → Option (RoomId × Effect CallId)
  | .perform room => (s.rooms room).bind fun task => task.outbox.head?.map fun effect => (room, effect)
  | _ => none

/-- A broadcast begins. -/
def State.announce (s : State β) : Option (RoomId × Effect CallId) → State β
  | some (room, .broadcast targets event) =>
    { s with
      pending := Function.update s.pending room (targets.map fun sink => (sink, event))
      log := Function.update s.log room (s.log room ++ [event]) }
  | _ => s

/-- A connection has its own sink. -/
def setupOf (setup : Setup β) (k : SinkId) : Setup β := { setup with roomTx := k }

/-- One connection takes a step. -/
def State.connStep (g : Generated) (setup : Setup β) (config : ConnectionConfig) (s : State β) (k : SinkId)
    (label : Stream.Label) : Option (State β) :=
  match s.conns[k]? with
  | some c => (c.step g (setupOf setup k) config label).map fun c => { s with conns := s.conns.set k c }
  | none => none

def State.step (g : Generated) (setup : Setup β) (config : ConnectionConfig) (rooms : RoomServiceConfig)
    (roomEventCapacity : Nat) (s : State β) : Label β → Option (State β)
  | .accept now deadline utcNow bucket =>
    some { s with conns := s.conns ++ [Stream.init config roomEventCapacity now deadline utcNow bucket] }
  | .conn k label => if byItself label then s.connStep g setup config k label else none
  | .call k =>
    match s.conns[k]?.bind fun c => c.conn.awaited, s.calling k with
    | some op, none =>
      (s.service.step rooms (.start op)).map fun service =>
        { s with service := service, calling := Function.update s.calling k (some s.service.calls.length) }
    | _, _ => none
  | .answer k =>
    match (s.calling k).bind fun j => s.service.calls[j]?.bind fun call => outcome call.pc with
    | some answer =>
      (s.connStep g setup config k (.task (.rooms answer))).map fun s =>
        { s with calling := Function.update s.calling k none }
    | none => none
  | .service label =>
    if s.ready label then
      (s.service.step rooms label).map fun service => { s.announce (performed s.service label) with service := service }
    else none
  | .send room clone =>
    match s.pending room with
    | [] => none
    | (k, event) :: rest =>
      (s.connStep g setup config k (.room (.trySend clone event))).map fun s =>
        { s with pending := Function.update s.pending room rest }

/-- A server without connections and rooms. -/
def init (β : Type) (rooms : RoomServiceConfig) : State β where
  service := (Service.system rooms).init
  conns := []
  calling _ := none
  pending _ := []
  log _ := []

def system (g : Generated) (setup : Setup β) (config : ConnectionConfig) (rooms : RoomServiceConfig)
    (roomEventCapacity : Nat) : TransitionSystem (State β) (Label β) where
  init := init β rooms
  step := State.step g setup config rooms roomEventCapacity

end LongshipX.Server
