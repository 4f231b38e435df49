import LongshipX.Gateway.Handlers
import LongshipX.Lib.Transition
import LongshipX.Net.Backpressure

/-!
# The read loop and the room event translator of one connection

`run_read_loop`, `admit_frame` and `room_event_translator` of `handler.rs`, with `validate_session` of
`context.rs` and the handlers that the other gateway modules leave out. The two tasks share the authentication
state and the outbound queue; each is cut where it awaits something. What the token store, the player repository
and the room service answer, and when, is up to the labels: an answer that never comes is a stall.

The `select!` of the loop is biased; here any branch that is ready may be taken, which includes the one the bias
picks. `GameCodec::encode` has no error path, so what is queued is the message itself.

* `Conn.admitFrame`, `Conn.dispatch`, `Conn.handleBind` : up to their first await point;
* `Conn.stepReader`, `Conn.stepTranslator` : the steps of the two tasks; `system`;
* `Event` : what the log of a connection records.
-/

namespace LongshipX.ReadLoop
open Protocol Gateway
open Net (Frame NetError OutboundSender)
open Service (Op)

/-- `tokio::time::Instant`. -/
abbrev Instant := Nat

/-- The two tasks of a connection. -/
inductive Task where
  | reader
  | translator
  deriving DecidableEq, Repr

/-- What `SessionTokenStore::resolve` answers. -/
abbrev Resolved := Except AppError (Option PlayerId)

/-- What the log records. -/
inductive Event where
  /-- The read loop hands a frame to `admit_frame`. -/
  | admitted (time : Instant)
  /-- A task calls `resolve`. -/
  | resolve (task : Task) (token : String)
  /-- That call returns. -/
  | resolved (task : Task) (answer : Resolved)
  /-- The router calls a handler. -/
  | dispatched (handler : Handler)
  /-- `set_authed` is called. -/
  | authed (player : AuthedPlayer) (token : String)
  /-- The translator takes an event from its channel. -/
  | dequeued (event : RoomEvent)
  /-- The translator puts it on the outbound queue. -/
  | forwarded (event : RoomEvent)
  deriving DecidableEq

/-- `PlayerProfile`; times are milliseconds. -/
structure PlayerProfile where
  playerId : PlayerId
  nickname : String
  level : UInt32
  exp : UInt64
  lastLoginAt : Option Int
  deriving DecidableEq, Repr

/-- What a suspended `admit_frame` awaits. -/
inductive Await where
  /-- `validate_session` awaits `resolve`, until `expires`. -/
  | session (message : InboundMessage) (player : PlayerId) (token : String) (expires : Instant)
  /-- `handle_bind` awaits `resolve`. -/
  | bindToken (token : String)
  /-- `handle_bind` awaits `find_by_id`. -/
  | bindPlayer (token : String) (player : PlayerId)
  /-- A handler awaits the room service. -/
  | rooms (op : Op)
  /-- `handle_get_profile` awaits `GetPlayerProfile::execute`. -/
  | profile (player : PlayerId)
  deriving DecidableEq

inductive Reader where
  /-- At the top of the loop. -/
  | top
  /-- In the `select!`. -/
  | selecting (deadline : Instant)
  /-- In `admit_frame`; under `timeout_at` if there is a limit. -/
  | admitting (limit : Option Instant) (await : Await)
  /-- The loop has returned, or its future was dropped. -/
  | returned
  deriving DecidableEq

inductive Translator where
  | receiving
  /-- `validate_session` awaits `resolve`, until `expires`. -/
  | validating (event : RoomEvent) (player : PlayerId) (token : String) (expires : Instant)
  | finished
  deriving DecidableEq

/-- What the tasks work with: the generated decoders and the configuration. The rate limiter is any function of
its own state `β` and the time. -/
structure Setup (β : Type) where
  prost : Prost
  uuids : Uuids
  tryAcquire : β → Instant → Bool × β
  heartbeatTimeout : Nat
  roomTx : SinkId

/-- A connection. `log` is a history; no step reads it. -/
structure Conn (β : Type) where
  auth : AuthState
  now : Instant
  utcNow : Int
  admissionDeadline : Instant
  permit : Bool
  bucket : Option β
  outbound : OutboundSender OutboundMessage
  reader : Reader
  translator : Translator
  log : List Event

inductive Label where
  /-- Time passes; the wall clock may be set. -/
  | tick (elapsed : Nat) (utcNow : Int)
  /-- The loop computes its deadline and enters the `select!`. -/
  | loop
  | disconnected
  | roomTxFailed
  | shutdown
  | frame (frame : Frame)
  | peerClosed
  /-- `read_frame` fails; `text` is what the error prints. -/
  | readError (err : NetError) (text : String)
  | sleepUntil
  /-- The `resolve` that the reader awaits returns. -/
  | resolved (answer : Resolved)
  | resolveTimeout
  /-- `find_by_id` returns; of the player only the nickname is read. -/
  | found (answer : Except RepoError (Option String))
  /-- The room service returns. -/
  | rooms (answer : Except AppError (Option RoomId))
  | profile (answer : Except AppError PlayerProfile)
  /-- `timeout_at` expires. -/
  | admissionTimeout
  /-- The read loop is dropped: the translator has finished or the task is aborted. -/
  | dropReader
  | event (event : RoomEvent)
  | eventsClosed
  | eventResolved (answer : Resolved)
  | eventTimeout
  | dropTranslator
  /-- The writer takes a message from the queue. -/
  | written
  | writerEnds
  /-- Another clone of the sender enqueues a message. -/
  | broadcast (message : OutboundMessage)
  | disconnect

variable {β : Type}

/-! ## The shared state -/

/-- `Conn` as `handle_admitted_connection` sets it up, with the deadline of its `Admission`. -/
def Conn.accept (now deadline : Instant) (utcNow : Int) (bucket : Option β) (capacity : Nat) : Conn β :=
  ⟨.empty, now, utcNow, deadline, true, bucket, .new capacity, .top, .receiving, []⟩

def Conn.note (c : Conn β) (event : Event) : Conn β := { c with log := c.log ++ [event] }

/-- `ConnContext::try_send`, and whether it is `Ok`. -/
def Conn.trySend (c : Conn β) (message : OutboundMessage) : Bool × Conn β :=
  ((c.outbound.trySendFrame message).1.isOk, { c with outbound := (c.outbound.trySendFrame message).2 })

/-- The player and token that `validate_session` reads. -/
def storedSession (auth : AuthState) : Option (PlayerId × String) :=
  match auth.player, auth.sessionToken with
  | some player, some token => some (player.playerId, token)
  | _, _ => none

/-- Whether `validate_session` accepts the answer. -/
def accepts (player : PlayerId) : Resolved → Bool
  | .ok (some id) => decide (id = player)
  | _ => false

/-! ## `admit_frame` -/

/-- How far `admit_frame` gets without waiting. -/
inductive Progress where
  | done (proceed : Bool)
  | awaits (await : Await)
  deriving DecidableEq

/-- An answer that turns the frame down. -/
def Conn.reject (c : Conn β) (code : UInt32) (message : String) : Conn β × Progress :=
  ((c.trySend (errorNotification code message)).2, .done false)

/-- The end of `admit_frame`, with what the router returned. -/
def Conn.answer (c : Conn β) : Answer → Conn β × Progress
  | .ok (some reply) => ((c.trySend reply).2, .done (c.trySend reply).1)
  | .ok none => (c, .done true)
  | .error err =>
    let reply := appErrorNotification (.internal err.toText)
    ((c.trySend reply).2, .done (c.trySend reply).1)

/-- `handle_bind` up to `resolve`. -/
def Conn.handleBind (c : Conn β) : InboundMessage → Conn β × Progress
  | .bind request =>
    if c.auth.isAuthenticated then c.answer (.ok (some (errorNotification errAlreadyBound "连接已完成绑定")))
    else
      let token := Text.trim request.token
      if token.isEmpty then c.answer (.ok (some (bindRejected "缺少 token")))
      else (c.note (.resolve .reader token), .awaits (.bindToken token))
  | _ => c.answer (.error (.handler "BIND 路由收到异构消息"))

/-- `handle_bind` up to `find_by_id`. -/
def Conn.resumeBindToken (c : Conn β) (token : String) : Resolved → Conn β × Progress
  | .ok (some player) => (c, .awaits (.bindPlayer token player))
  | .ok none => c.answer (.ok (some (bindRejected "token 无效或已过期")))
  | .error err => c.answer (.error (.handler err.toText))

/-- `handle_bind` after it. -/
def Conn.resumeBindPlayer (uuids : Uuids) (c : Conn β) (token : String) (player : PlayerId) :
    Except RepoError (Option String) → Conn β × Progress
  | .ok (some nickname) =>
    { c with auth := c.auth.setAuthed ⟨player, nickname⟩ token }.note (.authed ⟨player, nickname⟩ token)
      |>.answer (.ok (some (bindOk (uuids.toText player.uuid) nickname)))
  | .ok none => c.answer (.error (.handler "token 对应的玩家不存在"))
  | .error err => c.answer (.error (.handler err.toText))

/-- `handle_heartbeat`; `timestamp_millis` is an `i64`. -/
def handleHeartbeat (utcNow : Int) : InboundMessage → Answer
  | .heartbeat _ => .ok (some (.heartbeatAck ⟨.ofInt utcNow⟩))
  | _ => .error (.handler "HEARTBEAT 路由收到异构消息")

/-- `handle_get_profile` up to `execute`. -/
def Conn.handleGetProfile (c : Conn β) : InboundMessage → Conn β × Progress
  | .getProfile _ =>
    match c.auth.player with
    | none => c.answer (.ok (some (errorNotification errNotAuthenticated "请先完成绑定")))
    | some player => (c, .awaits (.profile player.playerId))
  | _ => c.answer (.error (.handler "GET_PROFILE 路由收到异构消息"))

/-- `handle_get_profile` after it. -/
def resumeGetProfile (uuids : Uuids) : Except AppError PlayerProfile → Answer
  | .ok profile =>
    .ok (some (.profile ⟨true, some (uuids.toText profile.playerId.uuid), some profile.nickname, some profile.level,
      some profile.exp, profile.lastLoginAt.map .ofInt, none⟩))
  | .error err => .ok (some (appErrorNotification err))

/-- A handler that has answered, or calls the room service. -/
def Conn.begun (c : Conn β) : Begun → Conn β × Progress
  | .inl reply => c.answer reply
  | .inr op => (c, .awaits (.rooms op))

/-- A room handler after its call; `none` for an answer that the call cannot give. -/
def resumeRooms (auth : AuthState) : Op → Except AppError (Option RoomId) → Option (AuthState × Answer)
  | .joinOrCreate _ _ _ _, .ok (some room) => some (resumeJoinRoom auth (.ok room))
  | .joinOrCreate _ _ _ _, .error err => some (resumeJoinRoom auth (.error err))
  | .leave room _ _, .ok none => some (resumeLeaveRoom auth (some room) (.ok ()))
  | .leave room _ _, .error err => some (resumeLeaveRoom auth (some room) (.error err))
  | .leaveAll _ _, .ok none => some (resumeLeaveRoom auth none (.ok ()))
  | .leaveAll _ _, .error err => some (resumeLeaveRoom auth none (.error err))
  | .chat _ _ _, .ok none => some (resumeRoomChat auth (.ok ()))
  | .chat _ _ _, .error err => some (resumeRoomChat auth (.error err))
  | _, _ => none

/-- `Router::dispatch`. -/
def Conn.dispatch (setup : Setup β) (c : Conn β) (message : InboundMessage) : Conn β × Progress :=
  match route message with
  | .error err => c.answer (.error err)
  | .ok handler =>
    let c := c.note (.dispatched handler)
    match handler with
    | .bind => c.handleBind message
    | .heartbeat => c.answer (handleHeartbeat c.utcNow message)
    | .joinRoom => c.begun (beginJoinRoom setup.uuids setup.roomTx c.auth message)
    | .leaveRoom => c.begun (beginLeaveRoom setup.uuids c.auth message)
    | .roomChat => c.begun (beginRoomChat c.auth message)
    | .getProfile => c.handleGetProfile message

/-- `admit_frame` after the session check. -/
def Conn.validated (setup : Setup β) (c : Conn β) (message : InboundMessage) : Conn β × Progress :=
  if c.auth.isAuthenticated && message.opcode == opC2sBind then
    ((c.trySend (errorNotification errAlreadyBound "连接已完成绑定")).2, .done true)
  else c.dispatch setup message

/-- `admit_frame` from the gate on. -/
def Conn.admitMessage (setup : Setup β) (c : Conn β) (message : InboundMessage) : Conn β × Progress :=
  if !c.auth.isAuthenticated && message.opcode != opC2sBind then c.reject errAuthRequiredFirst "必须先完成绑定"
  else if c.auth.isAuthenticated then
    match storedSession c.auth with
    | none => c.reject errNotAuthenticated "会话无效或已过期"
    | some (player, token) =>
      (c.note (.resolve .reader token), .awaits (.session message player token (c.now + setup.heartbeatTimeout)))
  else c.validated setup message

/-- The rate limit. -/
def Conn.acquire (setup : Setup β) (c : Conn β) : Bool × Conn β :=
  match c.bucket with
  | none => (true, c)
  | some bucket => ((setup.tryAcquire bucket c.now).1, { c with bucket := some (setup.tryAcquire bucket c.now).2 })

/-- `admit_frame`. -/
def Conn.admitFrame (setup : Setup β) (c : Conn β) (frame : Frame) : Conn β × Progress :=
  if !(c.acquire setup).1 then (c.acquire setup).2.reject errRateLimited "请求过于频繁"
  else match decode setup.prost frame with
    | .error err => (c.acquire setup).2.reject errProtocol err.toText
    | .ok message => (c.acquire setup).2.admitMessage setup message

/-! ## `run_read_loop` -/

/-- The loop goes on with what `admit_frame` returned, or waits for it. -/
def Conn.proceed (limit : Option Instant) : Conn β × Progress → Conn β
  | (c, .done true) => { c with permit := if c.auth.isAuthenticated then false else c.permit, reader := .top }
  | (c, .done false) => { c with reader := .returned }
  | (c, .awaits await) => { c with reader := .admitting limit await }

/-- The loop returns, with a last message to the client. -/
def Conn.farewell (c : Conn β) (message : OutboundMessage) : Conn β :=
  { (c.trySend message).2 with reader := .returned }

def timedOut : OutboundMessage := errorNotification errTimeout "会话超时"

/-- The limit of `timeout_at`, if `admit_frame` runs under it. -/
def Conn.limit (c : Conn β) (deadline : Instant) : Option Instant :=
  if c.auth.isAuthenticated then none else some deadline

/-- A step of the read loop in its `select!`. -/
def Conn.stepSelect (setup : Setup β) (c : Conn β) (deadline : Instant) : Label → Option (Conn β)
  | .disconnected => if c.outbound.isClosed then some { c with reader := .returned } else none
  | .roomTxFailed => some { c with outbound := c.outbound.disconnect, reader := .returned }
  | .shutdown => some (c.farewell (.shutdown ⟨"服务器即将维护,请保存进度并重连"⟩))
  | .frame frame =>
    if c.now ≥ deadline then some (c.farewell timedOut)
    else some (Conn.proceed (c.limit deadline) ((c.note (.admitted c.now)).admitFrame setup frame))
  | .peerClosed => some { c with reader := .returned }
  | .readError err text =>
    if err.isDisconnect then some { c with reader := .returned }
    else match err with
      | .frameTooLarge _ _ => some (c.farewell (errorNotification errFrameTooLarge text))
      | _ => some (c.farewell (errorNotification errProtocol text))
  | .sleepUntil => if c.now ≥ deadline then some (c.farewell timedOut) else none
  | _ => none

/-- A step of a suspended `admit_frame`. -/
def Conn.resume (setup : Setup β) (c : Conn β) : Await → Label → Option (Conn β × Progress)
  | .session message player _ _, .resolved answer =>
    let c := c.note (.resolved .reader answer)
    some (if accepts player answer then c.validated setup message
      else c.reject errNotAuthenticated "会话无效或已过期")
  | .session _ _ _ expires, .resolveTimeout =>
    if c.now ≥ expires then some (c.reject errNotAuthenticated "会话无效或已过期") else none
  | .bindToken token, .resolved answer => some ((c.note (.resolved .reader answer)).resumeBindToken token answer)
  | .bindPlayer token player, .found answer => some (c.resumeBindPlayer setup.uuids token player answer)
  | .rooms op, .rooms answer =>
    (resumeRooms c.auth op answer).map fun x => { c with auth := x.1 }.answer x.2
  | .profile _, .profile answer => some (c.answer (resumeGetProfile setup.uuids answer))
  | _, _ => none

def Conn.stepReader (setup : Setup β) (c : Conn β) (label : Label) : Option (Conn β) :=
  match c.reader, label with
  | .top, .loop =>
    let deadline := if c.auth.isAuthenticated then c.now + setup.heartbeatTimeout else c.admissionDeadline
    some { c with reader := .selecting deadline }
  | .selecting deadline, label => c.stepSelect setup deadline label
  | .admitting (some limit) _, .admissionTimeout => if c.now ≥ limit then some (c.farewell timedOut) else none
  | .admitting limit await, label => (c.resume setup await label).map (Conn.proceed limit)
  | _, _ => none

/-! ## `room_event_translator` -/

/-- The translator after its session check failed. -/
def Conn.unvalidated (c : Conn β) : Conn β :=
  { (c.trySend (errorNotification errNotAuthenticated "会话无效或已过期")).2 with translator := .finished }

/-- The translator puts an event on the outbound queue. -/
def Conn.forward (setup : Setup β) (c : Conn β) (event : RoomEvent) : Conn β :=
  let message := OutboundMessage.roomEvent (roomEventToNotification setup.uuids event)
  if (c.trySend message).1 then { (c.trySend message).2.note (.forwarded event) with translator := .receiving }
  else { (c.trySend message).2 with translator := .finished }

def Conn.stepTranslator (setup : Setup β) (c : Conn β) (label : Label) : Option (Conn β) :=
  match c.translator, label with
  | .receiving, .event event =>
    let c := c.note (.dequeued event)
    match storedSession c.auth with
    | none => some c.unvalidated
    | some (player, token) =>
      some { c.note (.resolve .translator token) with
        translator := .validating event player token (c.now + setup.heartbeatTimeout) }
  | .receiving, .eventsClosed => some { c with translator := .finished }
  | .validating event player _ _, .eventResolved answer =>
    let c := c.note (.resolved .translator answer)
    some (if accepts player answer then c.forward setup event else c.unvalidated)
  | .validating _ _ _ expires, .eventTimeout => if c.now ≥ expires then some c.unvalidated else none
  | _, _ => none

/-! ## Both -/

def Conn.step (setup : Setup β) (c : Conn β) (label : Label) : Option (Conn β) :=
  match label with
  | .tick elapsed utcNow => some { c with now := c.now + elapsed, utcNow := utcNow }
  | .dropReader => some { c with reader := .returned }
  | .dropTranslator => some { c with translator := .finished }
  | .written => c.outbound.tx.recv.map fun x => { c with outbound := { c.outbound with tx := x.2 } }
  | .writerEnds => some { c with outbound := { c.outbound with tx := c.outbound.tx.dropReceiver } }
  | .broadcast message => some { c with outbound := (c.outbound.trySendFrame message).2 }
  | .disconnect => some { c with outbound := c.outbound.disconnect }
  | .event _ => c.stepTranslator setup label
  | .eventsClosed => c.stepTranslator setup label
  | .eventResolved _ => c.stepTranslator setup label
  | .eventTimeout => c.stepTranslator setup label
  | _ => c.stepReader setup label

/-- A connection from the moment it is set up. -/
def system (setup : Setup β) (init : Conn β) : TransitionSystem (Conn β) Label where
  init := init
  step := Conn.step setup

end LongshipX.ReadLoop
