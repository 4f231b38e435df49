import LongshipX.Gateway.Handlers
import LongshipX.Lib.AssocMap

/-!
# The life of a connection

Any number of connections over one room service. A connection is the task of `handle_admitted_connection` and,
once its `ConnectionGuard` was dropped before `cleanup` had finished, the task that the guard's `Drop` spawns.
Both are cut at their await points and at every access to what they share: the room service, of which each call
is run step by step beside all others, and the `ConnectionRegistry`. `abort` stops the task at any of its await
points, or wherever it panics: the future it awaits is dropped first, the guard after it.

* `Phase` : where the tasks of a connection stand; `Conn.step` : their steps;
* `World.step`, `system` : the connections, the room service and the registry together.
-/

namespace LongshipX.Gateway
open Protocol
open Service (CallId Op)

/-- A connection, by its position among all connections ever accepted. -/
abbrev ConnId := Nat

/-! ## `ConnectionRegistry` -/

/-- The registry: a connection's outbound sender, by name, until `begin_drain` takes it. -/
abbrev ConnectionRegistry := AList (fun _ : ConnId => Option ConnId)

def ConnectionRegistry.register (registry : ConnectionRegistry) (id : ConnId) : ConnectionRegistry :=
  registry.insert id (some id)

def ConnectionRegistry.remove (registry : ConnectionRegistry) (id : ConnId) : ConnectionRegistry := registry.erase id

def ConnectionRegistry.beginDrain (registry : ConnectionRegistry) (id : ConnId) : ConnectionRegistry :=
  registry.replace id none

/-! ## One connection -/

/-- Where the tasks of a connection stand. -/
inductive Phase where
  /-- The read loop waits for a frame or works on one without calling the room service. -/
  | reading
  /-- A handler awaits this call. -/
  | dispatching (call : CallId)
  /-- The `select!` is over. -/
  | leaving
  /-- `guard.cleanup()` awaits its `leave_all`. -/
  | cleaning (call : CallId)
  /-- `guard.cleanup()` is done. -/
  | tidy
  /-- `begin_drain` is done; the translator and the writer are awaited. -/
  | draining
  /-- What the task awaited is dropped; the guard is next. -/
  | dropping
  /-- The guard has spawned its own task. -/
  | spawned
  /-- That task awaits its `leave_all`. -/
  | sweeping (call : CallId)
  /-- Its `cleanup_room` is done. -/
  | swept
  | ended
  deriving DecidableEq, Repr

/-- The call that the connection awaits. -/
def Phase.call : Phase → Option CallId
  | .dispatching k => some k
  | .cleaning k => some k
  | .sweeping k => some k
  | _ => none

/-- A connection: its authentication state, its room event channel, the `cleaned` flag of its guard. `calls` and
`timedOut` are histories: the calls it made, and whether a cleanup ran into its timeout. -/
structure Conn where
  auth : AuthState
  roomTx : SinkId
  cleaned : Bool
  phase : Phase
  calls : List CallId
  timedOut : Bool

/-- A connection that has just been registered. -/
def Conn.accept (roomTx : SinkId) : Conn := ⟨.empty, roomTx, false, .reading, [], false⟩

/-- What a step of a connection does to what it shares with the others. -/
inductive Deed where
  | idle
  | start (op : Op)
  | drop (call : CallId)
  | beginDrain
  | remove
  deriving DecidableEq, Repr

inductive ConnLabel where
  /-- `handle_bind` calls `set_authed`. -/
  | bind (player : AuthedPlayer) (token : String)
  /-- The read loop dispatches a message. -/
  | dispatch (message : InboundMessage)
  /-- The call a handler awaited has returned; the handler goes on to its end. -/
  | resume
  /-- The read loop returns. -/
  | readLoopReturns
  /-- The translator finishes first; the read loop is dropped. -/
  | translatorFinishes
  /-- `cleanup_room` starts. -/
  | cleanupRoom
  /-- Its `leave_all` has returned. -/
  | cleanupReturns
  /-- Its timeout expires. -/
  | cleanupTimeout
  | beginDrain
  /-- The writer has sent what was queued, and ends. -/
  | writerEnds
  /-- `write_drain_timeout` expires, and the writer is aborted. -/
  | drainTimeout
  /-- The task is aborted or panics. -/
  | abort
  /-- `Drop for ConnectionGuard`. -/
  | dropGuard
  /-- The spawned task takes the connection out of the registry. -/
  | remove
  deriving DecidableEq, Repr

/-- The call of the room service that a dispatched message leads to, if any. -/
def roomCall (uuids : Uuids) (roomTx : SinkId) (auth : AuthState) (message : InboundMessage) : Option Op :=
  match route message with
  | .ok .joinRoom => (beginJoinRoom uuids roomTx auth message).getRight?
  | .ok .leaveRoom => (beginLeaveRoom uuids auth message).getRight?
  | .ok .roomChat => (beginRoomChat auth message).getRight?
  | _ => none

/-- The authentication state after the handler of a call that is over. -/
def resumeCall (auth : AuthState) (c : Service.Call) : AuthState :=
  match c.op, c.pc with
  | .joinOrCreate _ _ _ _, .returned (some room) => (resumeJoinRoom auth (.ok room)).1
  | .joinOrCreate _ _ _ _, .failed err => (resumeJoinRoom auth (.error err)).1
  | .leave room _ _, .returned _ => (resumeLeaveRoom auth (some room) (.ok ())).1
  | .leave room _ _, .failed err => (resumeLeaveRoom auth (some room) (.error err)).1
  | .leaveAll _ _, .returned _ => (resumeLeaveRoom auth none (.ok ())).1
  | .leaveAll _ _, .failed err => (resumeLeaveRoom auth none (.error err)).1
  | .chat _ _ _, .returned _ => (resumeRoomChat auth (.ok ())).1
  | .chat _ _ _, .failed err => (resumeRoomChat auth (.error err)).1
  | _, _ => auth

/-- A call that has returned. -/
def overAt (s : Service.State) (k : CallId) : Option Service.Call :=
  (s.calls[k]?).filter (fun c => c.pc.over)

/-- `cleanup_room`: a `leave_all` for the player, if there is one. -/
def cleanupOp (auth : AuthState) : Option Op :=
  auth.player.map fun player => .leaveAll player.playerId "connection closed"

/-- One step of a connection. -/
def Conn.step (uuids : Uuids) (s : Service.State) (conn : Conn) : ConnLabel → Option (Deed × Conn)
  | .bind player token =>
    if conn.phase = .reading ∧ conn.auth.isAuthenticated = false then
      some (.idle, { conn with auth := conn.auth.setAuthed player token })
    else none
  | .dispatch message =>
    if conn.phase = .reading then
      match roomCall uuids conn.roomTx conn.auth message with
      | some op =>
        some (.start op, { conn with phase := .dispatching s.calls.length, calls := s.calls.length :: conn.calls })
      | none => some (.idle, conn)
    else none
  | .resume =>
    match conn.phase with
    | .dispatching k => (overAt s k).map fun c => (.idle, { conn with auth := resumeCall conn.auth c, phase := .reading })
    | _ => none
  | .readLoopReturns => if conn.phase = .reading then some (.idle, { conn with phase := .leaving }) else none
  | .translatorFinishes =>
    match conn.phase with
    | .reading => some (.idle, { conn with phase := .leaving })
    | .dispatching k => some (.drop k, { conn with phase := .leaving })
    | _ => none
  | .cleanupRoom =>
    match conn.phase with
    | .leaving =>
      match cleanupOp conn.auth with
      | some op =>
        some (.start op, { conn with phase := .cleaning s.calls.length, calls := s.calls.length :: conn.calls })
      | none => some (.idle, { conn with phase := .tidy, cleaned := true })
    | .spawned =>
      match cleanupOp conn.auth with
      | some op =>
        some (.start op, { conn with phase := .sweeping s.calls.length, calls := s.calls.length :: conn.calls })
      | none => some (.idle, { conn with phase := .swept })
    | _ => none
  | .cleanupReturns =>
    match conn.phase with
    | .cleaning k => (overAt s k).map fun _ => (.idle, { conn with phase := .tidy, cleaned := true })
    | .sweeping k => (overAt s k).map fun _ => (.idle, { conn with phase := .swept })
    | _ => none
  | .cleanupTimeout =>
    match conn.phase with
    | .cleaning k => some (.drop k, { conn with phase := .tidy, cleaned := true, timedOut := true })
    | .sweeping k => some (.drop k, { conn with phase := .swept, timedOut := true })
    | _ => none
  | .beginDrain => if conn.phase = .tidy then some (.beginDrain, { conn with phase := .draining }) else none
  | .writerEnds => if conn.phase = .draining then some (.idle, { conn with phase := .dropping }) else none
  | .drainTimeout => if conn.phase = .draining then some (.idle, { conn with phase := .dropping }) else none
  | .abort =>
    match conn.phase with
    | .reading => some (.idle, { conn with phase := .dropping })
    | .dispatching k => some (.drop k, { conn with phase := .dropping })
    | .leaving => some (.idle, { conn with phase := .dropping })
    | .cleaning k => some (.drop k, { conn with phase := .dropping })
    | .tidy => some (.idle, { conn with phase := .dropping })
    | .draining => some (.idle, { conn with phase := .dropping })
    | _ => none
  | .dropGuard =>
    if conn.phase = .dropping then
      if !conn.cleaned && conn.auth.isAuthenticated then some (.idle, { conn with phase := .spawned })
      else some (.remove, { conn with phase := .ended })
    else none
  | .remove => if conn.phase = .swept then some (.remove, { conn with phase := .ended }) else none

/-! ## All of them -/

/-- The gateway. `removed` is a history of the calls of `ConnectionRegistry::remove`. -/
structure World where
  rooms : Service.State
  conns : List Conn
  connections : ConnectionRegistry
  removed : List ConnId

inductive Label where
  /-- A connection is accepted and registered. -/
  | accept (roomTx : SinkId)
  /-- A step of a connection. -/
  | conn (id : ConnId) (label : ConnLabel)
  /-- A step of a room call that somebody awaits, or of an actor. -/
  | service (label : Service.Label)
  /-- The server shuts down. -/
  | closeAll (reason : String)

/-- Calls are started and dropped by connections only; everything else in the room service goes on by itself. -/
def internal : Service.Label → Bool
  | .start _ => false
  | .cancel _ => false
  | _ => true

/-- A room call that starts, or whose future is dropped; to drop one that is over changes nothing. -/
def World.act (config : Service.RoomServiceConfig) (w : World) (label : Service.Label) : World :=
  { w with rooms := (w.rooms.step config label).getD w.rooms }

def World.perform (config : Service.RoomServiceConfig) (w : World) (id : ConnId) : Deed → World
  | .idle => w
  | .start op => w.act config (.start op)
  | .drop k => w.act config (.cancel k)
  | .beginDrain => { w with connections := w.connections.beginDrain id }
  | .remove => { w with connections := w.connections.remove id, removed := w.removed ++ [id] }

def World.step (uuids : Uuids) (config : Service.RoomServiceConfig) (w : World) : Label → Option World
  | .accept roomTx =>
    some { w with conns := w.conns ++ [.accept roomTx], connections := w.connections.register w.conns.length }
  | .conn id label =>
    match w.conns[id]? with
    | some conn =>
      (conn.step uuids w.rooms label).map fun x =>
        { w.perform config id x.1 with conns := w.conns.set id x.2 }
    | none => none
  | .service label =>
    if internal label then (w.rooms.step config label).map fun s => { w with rooms := s } else none
  | .closeAll reason => some (w.act config (.start (.closeAll reason)))

/-- A gateway without connections. -/
def system (uuids : Uuids) (config : Service.RoomServiceConfig) : TransitionSystem World Label where
  init := ⟨(Service.system config).init, [], ∅, []⟩
  step := World.step uuids config

end LongshipX.Gateway
