import LongshipX.Gateway.Handlers
import LongshipX.Lib.Transition

/-!
# The gateway, one operation at a time

`handle_join_room`, `handle_leave_room`, `cleanup_room` and `close_all` as atomic steps: each runs alone, and the
actors have handled what it sent them before it goes on. Several connections may be bound to one player.

* `Rooms` : the room service between two operations; `join`, `createAndJoin`, `leave`, `leaveAll`, `closeAll`;
* `State`, `State.step`, `system` : the connections over it.
-/

namespace LongshipX.Sequential
open Protocol Gateway
open Service (RoomServiceConfig)

/-! ## `RoomService` -/

/-- Every room ever opened, with its actor, and the registry of handles. -/
structure Rooms where
  actors : RoomId → Option RoomActor
  registry : List RoomId

namespace Rooms

def isClosed (s : Rooms) (room : RoomId) : Bool :=
  match s.actors room with
  | some actor => actor.closed
  | none => false

def forget (s : Rooms) (room : RoomId) : Rooms :=
  { s with registry := s.registry.filter (fun r => decide (r ≠ room)) }

/-- `handle_for`: whether there is a live handle. -/
def handleFor (s : Rooms) (room : RoomId) : Bool × Rooms :=
  if room ∈ s.registry then
    if s.isClosed room then (false, s.forget room) else (true, s)
  else (false, s)

/-- A command is sent and handled; `none` if the actor is gone. -/
def send (s : Rooms) (room : RoomId) (command : RoomCommand Unit) : Option (Rooms × List (Effect Unit)) :=
  match s.actors room with
  | some actor =>
    if actor.closed then none
    else
      let (actor, effects, _) := actor.handle command
      some ({ s with actors := Function.update s.actors room (some actor) }, effects)
  | none => none

/-- What a `Join` was answered. -/
def joinReply : List (Effect Unit) → Option (Except AppError Unit)
  | [] => none
  | .replyJoin _ outcome :: _ => some outcome
  | _ :: effects => joinReply effects

/-- What a `Leave` was answered. -/
def leaveReply : List (Effect Unit) → Option (Except AppError Bool)
  | [] => none
  | .replyLeave _ outcome :: _ => some outcome
  | _ :: effects => leaveReply effects

def join (s : Rooms) (room : RoomId) (player : PlayerId) (nickname : String) (sink : SinkId) :
    Rooms × Except AppError Unit :=
  match s.handleFor room with
  | (false, s) => (s, .error (.notFound "房间不存在"))
  | (true, s) =>
    match s.send room (.join player nickname sink ()) with
    | none => (s, .error (.notFound "房间不存在"))
    | some (s, effects) =>
      match joinReply effects with
      | some outcome => (s, outcome)
      | none => (s, .error (.internal "房间已关闭,加入结果未知"))

/-- No handle is left; the actor finds its channel closed and finishes. -/
def hangUp (s : Rooms) (room : RoomId) : Rooms :=
  { s with actors := Function.update s.actors room ((s.actors room).map fun actor =>
      (actor.finish (ρ := Unit) "房间通道已关闭").1) }

/-- `create_and_join`, with the id that the new room draws. -/
def createAndJoin (config : RoomServiceConfig) (s : Rooms) (room : RoomId) (player : PlayerId) (nickname : String)
    (sink : SinkId) : Rooms × Except AppError RoomId :=
  let s : Rooms :=
    { actors := Function.update s.actors room (some (RoomActor.spawn (Room.open room config.maxPlayers))),
      registry := s.registry.insert room }
  match s.join room player nickname sink with
  | (s, .ok _) => (s, .ok room)
  | (s, .error err) => ((s.forget room).hangUp room, .error err)

def joinOrCreate (config : RoomServiceConfig) (s : Rooms) (target : Option RoomId) (fresh : RoomId) (player : PlayerId)
    (nickname : String) (sink : SinkId) : Rooms × Except AppError RoomId :=
  match target with
  | some room =>
    match s.join room player nickname sink with
    | (s, .ok _) => (s, .ok room)
    | (s, .error err) => (s, .error err)
  | none => s.createAndJoin config fresh player nickname sink

def leave (s : Rooms) (room : RoomId) (player : PlayerId) (reason : String) : Rooms × Except AppError Unit :=
  match s.handleFor room with
  | (false, s) => (s, .ok ())
  | (true, s) =>
    match s.send room (.leave player reason ()) with
    | none =>
      if s.isClosed room then (s.forget room, .ok ()) else (s, .error (.notFound "房间不存在"))
    | some (s, effects) =>
      match leaveReply effects with
      | some (.ok _) => (if s.isClosed room then s.forget room else s, .ok ())
      | some (.error err) => (s, .error err)
      | none => if s.isClosed room then (s.forget room, .ok ()) else (s, .error (.internal "离房操作未完成"))

/-- The loop of `leave_all`. -/
def leaveEach (s : Rooms) (player : PlayerId) (reason : String) : List RoomId → Rooms × Except AppError Unit
  | [] => (s, .ok ())
  | room :: order =>
    match s.leave room player reason with
    | (s, .ok _) => leaveEach s player reason order
    | (s, .error err) => (s, .error err)

/-- `live_handles` drops the closed rooms from the registry. -/
def retainLive (s : Rooms) : Rooms := { s with registry := s.registry.filter (fun r => !s.isClosed r) }

/-- `leave_all`, over the live handles in the order in which the map yields them. -/
def leaveAll (s : Rooms) (player : PlayerId) (reason : String) (order : List RoomId) : Rooms × Except AppError Unit :=
  s.retainLive.leaveEach player reason order

/-- The loop of `close_all`; a failed send is only logged. -/
def closeEach (s : Rooms) (reason : String) : List RoomId → Rooms
  | [] => s
  | room :: order =>
    match s.send room (.close reason) with
    | some (s, _) => closeEach s reason order
    | none => closeEach s reason order

/-- `close_all`, over the drained handles. -/
def closeAll (s : Rooms) (reason : String) (order : List RoomId) : Rooms :=
  ({ s with registry := [] } : Rooms).closeEach reason order

end Rooms

/-! ## The connections -/

/-- A connection; `roomTx` is its own room event channel, `live` says that its cleanup has not run. -/
structure Conn where
  auth : AuthState
  roomTx : SinkId
  live : Bool

/-- The gateway between two operations. -/
structure State where
  rooms : Rooms
  conns : List Conn

/-- A connection, by its position among all connections ever accepted; its channel bears the same name. -/
abbrev ConnId := Nat

inductive Label where
  | accept
  /-- `handle_bind` calls `set_authed`. -/
  | bind (id : ConnId) (player : AuthedPlayer) (token : String)
  /-- `handle_join_room`; `fresh` is the id that a new room would draw. -/
  | joinRoom (id : ConnId) (message : InboundMessage) (fresh : RoomId)
  /-- `handle_leave_room`; `order` is the order in which the map yields its handles. -/
  | leaveRoom (id : ConnId) (message : InboundMessage) (order : List RoomId)
  /-- The cleanup of a connection that ends. -/
  | cleanup (id : ConnId) (order : List RoomId)
  | closeAll (reason : String) (order : List RoomId)

namespace State

variable (uuids : Uuids) (config : RoomServiceConfig)

def update (g : State) (id : ConnId) (conn : Conn) (rooms : Rooms) : State := ⟨rooms, g.conns.set id conn⟩

/-- `handle_join_room` on a live connection. -/
def joinRoom (g : State) (id : ConnId) (conn : Conn) (message : InboundMessage) (fresh : RoomId) : State × Answer :=
  match beginJoinRoom uuids conn.roomTx conn.auth message with
  | .inr (.joinOrCreate target player nickname sink) =>
    let (rooms, outcome) := g.rooms.joinOrCreate config target fresh player nickname sink
    let (auth, answer) := resumeJoinRoom conn.auth outcome
    (g.update id { conn with auth := auth } rooms, answer)
  | .inr _ => (g, .ok none)
  | .inl answer => (g, answer)

/-- `handle_leave_room` on a live connection. -/
def leaveRoom (g : State) (id : ConnId) (conn : Conn) (message : InboundMessage) (order : List RoomId) : State × Answer :=
  match beginLeaveRoom uuids conn.auth message with
  | .inr (.leave room player reason) =>
    let (rooms, outcome) := g.rooms.leave room player reason
    let (auth, answer) := resumeLeaveRoom conn.auth (some room) outcome
    (g.update id { conn with auth := auth } rooms, answer)
  | .inr (.leaveAll player reason) =>
    let (rooms, outcome) := g.rooms.leaveAll player reason order
    let (auth, answer) := resumeLeaveRoom conn.auth none outcome
    (g.update id { conn with auth := auth } rooms, answer)
  | .inr _ => (g, .ok none)
  | .inl answer => (g, answer)

/-- `cleanup_room` on a connection that ends; an error of `leave_all` is only logged. -/
def cleanup (g : State) (id : ConnId) (conn : Conn) (order : List RoomId) : State :=
  let rooms := match conn.auth.player with
    | some player => (g.rooms.leaveAll player.playerId "connection closed" order).1
    | none => g.rooms
  g.update id { conn with live := false } rooms

/-- The live connection of this name. -/
def liveConn (g : State) (id : ConnId) : Option Conn := (g.conns[id]?).filter (fun conn => conn.live)

/-- One operation. New rooms draw ids that no room had before; the handles come in any order. -/
def step (g : State) : Label → Option State
  | .accept => some { g with conns := g.conns ++ [⟨.empty, g.conns.length, true⟩] }
  | .bind id player token =>
    match g.liveConn id with
    | some conn =>
      if conn.auth.isAuthenticated then none
      else some (g.update id { conn with auth := conn.auth.setAuthed player token } g.rooms)
    | none => none
  | .joinRoom id message fresh =>
    match g.liveConn id with
    | some conn => if (g.rooms.actors fresh).isNone then some (g.joinRoom uuids config id conn message fresh).1 else none
    | none => none
  | .leaveRoom id message order =>
    match g.liveConn id with
    | some conn =>
      if order.Perm g.rooms.retainLive.registry then some (g.leaveRoom uuids id conn message order).1 else none
    | none => none
  | .cleanup id order =>
    match g.liveConn id with
    | some conn => if order.Perm g.rooms.retainLive.registry then some (g.cleanup id conn order) else none
    | none => none
  | .closeAll reason order =>
    if order.Perm g.rooms.registry then some { g with rooms := g.rooms.closeAll reason order } else none

end State

/-- A gateway without rooms and connections. -/
def system (uuids : Uuids) (config : RoomServiceConfig) : TransitionSystem State Label where
  init := ⟨⟨fun _ => none, []⟩, []⟩
  step := State.step uuids config

end LongshipX.Sequential
