import LongshipX.Lib.Transition
import LongshipX.Room.Actor

/-!
# `RoomService`, step by step

Any number of calls of `join_or_create`, `leave`, `leave_all`, `chat` and `close_all` run at the same time
as the actors of the rooms. A call is cut at its await points and at every access to what it shares with the
others: the registry, a room's command queue, the closed flag, a reply. One label is one such step, so a
list of labels is one interleaving; `cancel` drops a call at any of its await points.

* `Pc` : where a call stands; `advance` : what it does next, as `service.rs` has it;
* `RoomTask` : an actor with its queue, what it still has to send, and its receiver;
* `State.step`, `system` : the calls and the actors together.
-/

namespace LongshipX.Service
open RoomActor

/-- `RoomServiceConfig`. -/
structure RoomServiceConfig where
  commandCapacity : Nat
  maxPlayers : Nat
  deriving DecidableEq, Repr

/-- A call, by its position among all calls ever made. It also names the reply channel the call waits on. -/
abbrev CallId := Nat

/-- `DomainEvent`, as far as rooms publish it. -/
inductive DomainEvent where
  | playerJoinedRoom (room : RoomId) (player : PlayerId)
  | playerLeftRoom (room : RoomId) (player : PlayerId) (reason : String)
  deriving DecidableEq, Repr

/-- The public operations with their arguments. -/
inductive Op where
  | joinOrCreate (room : Option RoomId) (player : PlayerId) (nickname : String) (sink : SinkId)
  | leave (room : RoomId) (player : PlayerId) (reason : String)
  | leaveAll (player : PlayerId) (reason : String)
  | chat (room : RoomId) (player : PlayerId) (text : String)
  | closeAll (reason : String)
  deriving DecidableEq, Repr

/-- What a oneshot receiver gets: the answer, or the news that the sender was dropped. -/
inductive Reply (α : Type) where
  | answer (outcome : Except AppError α)
  | lost

/-- Where a call stands. `todo` holds the rooms that `leave_all` or `close_all` still has before it. -/
inductive Pc where
  | create
  | insert (room : RoomId)
  | joinLookup (room : RoomId)
  | joinSend (room : RoomId)
  | joinWait (room : RoomId) (reply : Option (Reply Unit))
  | joinPublish (room : RoomId)
  | undo (room : RoomId) (err : AppError)
  | liveHandles
  | leaveLookup (room : RoomId) (todo : List RoomId)
  | leaveSend (room : RoomId) (todo : List RoomId)
  | leaveWait (room : RoomId) (reply : Option (Reply Bool)) (todo : List RoomId)
  | leaveForget (room : RoomId) (left : Bool) (todo : List RoomId)
  | leavePublish (room : RoomId) (todo : List RoomId)
  | chatLookup (room : RoomId)
  | chatSend (room : RoomId)
  | drain
  | closeSend (room : RoomId) (todo : List RoomId)
  | returned (room : Option RoomId)
  | failed (err : AppError)
  | cancelled

/-- A call; `sent` is a history of the rooms it has sent a command to that is to be answered. -/
structure Call where
  op : Op
  pc : Pc
  sent : List RoomId

/-- A command an actor has handled, with the actor before and after it. -/
structure Handling where
  command : RoomCommand CallId
  before : RoomActor
  after : RoomActor

/-- The task of a room actor: the actor, its queue, the effects of the last command that are still to be
performed, whether the loop of `run` is left, and whether the receiver is still there. `creator`, `inserted`,
`firstJoin` and `handled` are histories: the call that opened the room, whether it was put in the registry, the
call whose `Join` was queued first, and what the actor has handled. No step reads them. -/
structure RoomTask where
  actor : RoomActor
  queue : List (RoomCommand CallId)
  outbox : List (Effect CallId)
  stopping : Bool
  receiver : Bool
  creator : CallId
  inserted : Bool
  firstJoin : Option CallId
  handled : List Handling

/-- The service: every room ever opened, the registry of handles, every call ever made, and the events it
gave to the publisher. -/
structure State where
  rooms : RoomId → Option RoomTask
  registry : List RoomId
  calls : List Call
  events : List DomainEvent

/-- What a call does to the state it shares with the others. -/
inductive Act where
  | skip
  | register (room : RoomId)
  | forget (room : RoomId)
  | retain
  | drain
  | enqueue (room : RoomId) (command : RoomCommand CallId)
  | publish (event : DomainEvent)

/-! ## The calls -/

/-- Where a call starts. -/
def Op.start : Op → Pc
  | .joinOrCreate (some room) _ _ _ => .joinLookup room
  | .joinOrCreate none _ _ _ => .create
  | .leave room _ _ => .leaveLookup room []
  | .leaveAll _ _ => .liveHandles
  | .chat room _ _ => .chatLookup room
  | .closeAll _ => .drain

/-- Whether the call is a `create_and_join`. -/
def Op.creates : Op → Bool
  | .joinOrCreate none _ _ _ => true
  | _ => false

/-- A closed flag as `is_closed` reads it. -/
def State.isClosed (s : State) (room : RoomId) : Bool :=
  match s.rooms room with
  | some task => task.actor.closed
  | none => false

/-- `handle_for`: whether there is a live handle, and what the lookup does to the registry. -/
def State.handleFor (s : State) (room : RoomId) : Bool × Act :=
  if room ∈ s.registry then
    if s.isClosed room then (false, .forget room) else (true, .skip)
  else (false, .skip)

/-- What a send meets at the queue of a room. -/
inductive Gate where
  | open
  | full
  | closed
  deriving DecidableEq, Repr

def State.gate (config : RoomServiceConfig) (s : State) (room : RoomId) : Gate :=
  match s.rooms room with
  | none => .closed
  | some task =>
    if task.receiver = false then .closed
    else if task.queue.length < config.commandCapacity then .open
    else .full

/-- An error of `join`: `create_and_join` takes the room out of the registry before it returns it. -/
def joinFailed (creates : Bool) (room : RoomId) (err : AppError) : Pc :=
  if creates then .undo room err else .failed err

/-- The next room of `leave_all`; `leave` has none. -/
def leaveNext : List RoomId → Pc
  | [] => .returned none
  | room :: todo => .leaveLookup room todo

def closeNext : List RoomId → Pc
  | [] => .returned none
  | room :: todo => .closeSend room todo

/-- `create_and_join` and `join`. -/
def advanceJoin (config : RoomServiceConfig) (s : State) (k : CallId) (creates : Bool) (player : PlayerId)
    (nickname : String) (sink : SinkId) : Pc → Option (Act × Pc)
  | .insert room => some (.register room, .joinLookup room)
  | .joinLookup room =>
    match s.handleFor room with
    | (true, act) => some (act, .joinSend room)
    | (false, act) => some (act, joinFailed creates room (.notFound "房间不存在"))
  | .joinSend room =>
    match s.gate config room with
    | .open => some (.enqueue room (.join player nickname sink k), .joinWait room none)
    | .full => none
    | .closed => some (.skip, joinFailed creates room (.notFound "房间不存在"))
  | .joinWait room (some (.answer (.ok _))) => some (.skip, .joinPublish room)
  | .joinWait room (some (.answer (.error err))) => some (.skip, joinFailed creates room err)
  | .joinWait room (some .lost) => some (.skip, joinFailed creates room (.internal "房间已关闭,加入结果未知"))
  | .joinPublish room => some (.publish (.playerJoinedRoom room player), .returned (some room))
  | .undo room err => some (.forget room, .failed err)
  | _ => none

/-- `leave`, and the loop of `leave_all` around it. -/
def advanceLeave (config : RoomServiceConfig) (s : State) (k : CallId) (player : PlayerId) (reason : String) :
    Pc → Option (Act × Pc)
  | .leaveLookup room todo =>
    match s.handleFor room with
    | (true, act) => some (act, .leaveSend room todo)
    | (false, act) => some (act, leaveNext todo)
  | .leaveSend room todo =>
    match s.gate config room with
    | .open => some (.enqueue room (.leave player reason k), .leaveWait room none todo)
    | .full => none
    | .closed =>
      if s.isClosed room then some (.skip, .leaveForget room false todo)
      else some (.skip, .failed (.notFound "房间不存在"))
  | .leaveWait room (some (.answer (.ok left))) todo =>
    if s.isClosed room then some (.skip, .leaveForget room left todo)
    else if left then some (.skip, .leavePublish room todo)
    else some (.skip, leaveNext todo)
  | .leaveWait _ (some (.answer (.error err))) _ => some (.skip, .failed err)
  | .leaveWait room (some .lost) todo =>
    if s.isClosed room then some (.skip, .leaveForget room false todo)
    else some (.skip, .failed (.internal "离房操作未完成"))
  | .leaveForget room left todo =>
    some (.forget room, if left then .leavePublish room todo else leaveNext todo)
  | .leavePublish room todo => some (.publish (.playerLeftRoom room player reason), leaveNext todo)
  | _ => none

/-- `chat`: validation, lookup, and a send that does not wait. -/
def advanceChat (config : RoomServiceConfig) (s : State) (player : PlayerId) (text : String) : Pc → Option (Act × Pc)
  | .chatLookup room =>
    let trimmed := Text.trim text
    if trimmed.isEmpty then some (.skip, .failed (.validation "聊天内容不能为空"))
    else if trimmed.length > maxChatChars then
      some (.skip, .failed (.validation s!"聊天内容不能超过 {maxChatChars} 字"))
    else
      match s.handleFor room with
      | (true, act) => some (act, .chatSend room)
      | (false, act) => some (act, .failed (.notFound "房间不存在"))
  | .chatSend room =>
    match s.gate config room with
    | .open => some (.enqueue room (.chat player (Text.trim text)), .returned none)
    | .full => some (.skip, .failed .busy)
    | .closed => some (.skip, .failed (.notFound "房间不存在"))
  | _ => none

/-- `close_all`, after its handles are drained; a failed send is only logged. -/
def advanceClose (config : RoomServiceConfig) (s : State) (reason : String) : Pc → Option (Act × Pc)
  | .closeSend room todo =>
    match s.gate config room with
    | .open => some (.enqueue room (.close reason), closeNext todo)
    | .full => none
    | .closed => some (.skip, closeNext todo)
  | _ => none

/-- What call `k` does next, if it can. -/
def advance (config : RoomServiceConfig) (s : State) (k : CallId) (c : Call) : Option (Act × Pc) :=
  match c.op with
  | .joinOrCreate room player nickname sink => advanceJoin config s k room.isNone player nickname sink c.pc
  | .leave _ player reason => advanceLeave config s k player reason c.pc
  | .leaveAll player reason => advanceLeave config s k player reason c.pc
  | .chat _ player text => advanceChat config s player text c.pc
  | .closeAll reason => advanceClose config s reason c.pc

/-- The rooms whose command sender a call keeps alive. -/
def Call.handles (c : Call) : List RoomId :=
  match c.pc with
  | .insert room => [room]
  | .joinLookup room => if c.op.creates then [room] else []
  | .joinSend room => [room]
  | .joinWait room _ => [room]
  | .joinPublish room => [room]
  | .undo room _ => [room]
  | .leaveLookup room todo => match c.op with
    | .leaveAll _ _ => room :: todo
    | _ => []
  | .leaveSend room todo => room :: todo
  | .leaveWait room _ todo => room :: todo
  | .leaveForget room _ todo => room :: todo
  | .leavePublish room todo => room :: todo
  | .chatSend room => [room]
  | .closeSend room todo => room :: todo
  | _ => []

/-- Whether the call is over. -/
def Pc.over : Pc → Bool
  | .returned _ => true
  | .failed _ => true
  | .cancelled => true
  | _ => false

/-! ## The shared state -/

/-- The call that waits for the answer to a command. -/
def replyOf : RoomCommand CallId → Option CallId
  | .join _ _ _ reply => some reply
  | .leave _ _ reply => some reply
  | .chat _ _ => none
  | .close _ => none

/-- The call whose `Join` a command is. -/
def joinOf : RoomCommand CallId → Option CallId
  | .join _ _ _ reply => some reply
  | _ => none

def RoomTask.spawn (config : RoomServiceConfig) (room : RoomId) (creator : CallId) : RoomTask where
  actor := RoomActor.spawn (Room.open room config.maxPlayers)
  queue := []
  outbox := []
  stopping := false
  receiver := true
  creator := creator
  inserted := false
  firstJoin := none
  handled := []

def RoomTask.push (task : RoomTask) (command : RoomCommand CallId) : RoomTask :=
  { task with queue := task.queue ++ [command], firstJoin := task.firstJoin.or (joinOf command) }

/-- Change one room. -/
def State.update (s : State) (room : RoomId) (f : RoomTask → RoomTask) : State :=
  { s with rooms := Function.update s.rooms room ((s.rooms room).map f) }

def State.apply (s : State) : Act → State
  | .skip => s
  | .register room =>
    { s.update room (fun task => { task with inserted := true }) with registry := s.registry.insert room }
  | .forget room => { s with registry := s.registry.filter (fun r => decide (r ≠ room)) }
  | .retain => { s with registry := s.registry.filter (fun r => !s.isClosed r) }
  | .drain => { s with registry := [] }
  | .enqueue room command => s.update room (fun task => task.push command)
  | .publish event => { s with events := s.events ++ [event] }

/-- The room an act sends a command to that is to be answered. -/
def Act.asks : Act → Option RoomId
  | .enqueue room command => if (replyOf command).isSome then some room else none
  | _ => none

/-- Call `k` has taken a step: its act, its new position. -/
def State.move (s : State) (k : CallId) (act : Act) (pc : Pc) : State :=
  let s' := s.apply act
  { s' with calls := s'.calls.modify k fun c => { c with pc := pc, sent := c.sent ++ act.asks.toList } }

/-- The oneshot of a call that waits on this room gets a reply; a call that is gone gets nothing. -/
def Call.answerJoin (room : RoomId) (reply : Reply Unit) (c : Call) : Call :=
  match c.pc with
  | .joinWait r none => if r = room then { c with pc := .joinWait r (some reply) } else c
  | _ => c

def Call.answerLeave (room : RoomId) (reply : Reply Bool) (c : Call) : Call :=
  match c.pc with
  | .leaveWait r none todo => if r = room then { c with pc := .leaveWait r (some reply) todo } else c
  | _ => c

/-- The oneshot senders in a dropped queue are dropped with it. -/
def Call.lose (room : RoomId) (c : Call) : Call := (c.answerJoin room .lost).answerLeave room .lost

/-- Perform one effect of a command. A broadcast goes to the members' sinks and touches nothing here. -/
def State.perform (s : State) (room : RoomId) : Effect CallId → State
  | .replyJoin reply outcome => { s with calls := s.calls.modify reply (Call.answerJoin room (.answer outcome)) }
  | .replyLeave reply outcome => { s with calls := s.calls.modify reply (Call.answerLeave room (.answer outcome)) }
  | .broadcast _ _ => s

/-- A room was opened by call `k`. -/
def State.opened (config : RoomServiceConfig) (s : State) (k : CallId) (room : RoomId) : State :=
  { s with rooms := Function.update s.rooms room (some (RoomTask.spawn config room k)),
           calls := s.calls.modify k fun c => { c with pc := .insert room } }

/-! ## The steps -/

inductive Label where
  /-- A client calls an operation. -/
  | start (op : Op)
  /-- `create_and_join` opens the room that drew this id and spawns its actor. -/
  | openRoom (call : CallId) (room : RoomId)
  /-- A call takes its next step. -/
  | next (call : CallId)
  /-- `leave_all` collects the live handles, in the order in which the map yields them. -/
  | liveHandles (call : CallId) (order : List RoomId)
  /-- `close_all` drains the registry. -/
  | drain (call : CallId) (order : List RoomId)
  /-- The future of a call is dropped. -/
  | cancel (call : CallId)
  /-- An actor takes a command from its queue and handles it. -/
  | process (room : RoomId)
  /-- It performs the next effect of that command. -/
  | perform (room : RoomId)
  /-- It finds its queue empty and every sender gone. -/
  | hangup (room : RoomId)
  /-- It has left its loop and drops the receiver with what is queued. -/
  | terminate (room : RoomId)
  deriving DecidableEq, Repr

/-- The actor handles a command. -/
def RoomTask.process (task : RoomTask) (command : RoomCommand CallId) (rest : List (RoomCommand CallId)) : RoomTask :=
  let (actor, effects, stop) := task.actor.handle command
  { task with actor := actor, queue := rest, outbox := effects, stopping := stop,
              handled := task.handled ++ [⟨command, task.actor, actor⟩] }

def RoomTask.idle (task : RoomTask) : Bool := task.receiver && !task.stopping && task.outbox.isEmpty

def State.step (config : RoomServiceConfig) (s : State) : Label → Option State
  | .start op => some { s with calls := s.calls ++ [⟨op, op.start, []⟩] }
  | .openRoom k room =>
    match s.calls[k]? with
    | some ⟨_, .create, _⟩ =>
      if (s.rooms room).isNone then some (s.opened config k room) else none
    | _ => none
  | .next k =>
    match s.calls[k]? with
    | some c => (advance config s k c).map fun x => s.move k x.1 x.2
    | none => none
  | .liveHandles k order =>
    match s.calls[k]? with
    | some ⟨_, .liveHandles, _⟩ =>
      if order.Perm (s.apply .retain).registry then some (s.move k .retain (leaveNext order)) else none
    | _ => none
  | .drain k order =>
    match s.calls[k]? with
    | some ⟨_, .drain, _⟩ => if order.Perm s.registry then some (s.move k .drain (closeNext order)) else none
    | _ => none
  | .cancel k =>
    match s.calls[k]? with
    | some c => if c.pc.over then none else some (s.move k .skip .cancelled)
    | none => none
  | .process room =>
    match s.rooms room with
    | some task =>
      match task.idle, task.queue with
      | true, command :: rest => some (s.update room fun task => task.process command rest)
      | _, _ => none
    | none => none
  | .perform room =>
    match s.rooms room with
    | some task =>
      match task.outbox with
      | effect :: rest => some ((s.update room fun task => { task with outbox := rest }).perform room effect)
      | [] => none
    | none => none
  | .hangup room =>
    match s.rooms room with
    | some task =>
      if task.idle && task.queue.isEmpty && !decide (room ∈ s.registry) &&
          s.calls.all (fun c => !decide (room ∈ c.handles)) then
        some (s.update room fun task =>
          let (actor, effects) := task.actor.finish "房间通道已关闭"
          { task with actor := actor, outbox := effects, stopping := true })
      else none
    | none => none
  | .terminate room =>
    match s.rooms room with
    | some task =>
      if task.receiver && task.stopping && task.outbox.isEmpty then
        let s' := s.update room fun task => { task with receiver := false, queue := [] }
        some { s' with calls := s'.calls.mapIdx fun k c =>
          if k ∈ task.queue.filterMap replyOf then c.lose room else c }
      else none
    | none => none

/-- A service without rooms. -/
def system (config : RoomServiceConfig) : TransitionSystem State Label where
  init := ⟨fun _ => none, [], [], []⟩
  step := State.step config

end LongshipX.Service
