import LongshipX.Gateway.ReadLoop
import Mathlib.Data.List.AList

/-!
# `Router::dispatch`, from the opcode to the answer

`router.rs`, `build_router` and the handlers of `handlers.rs`, each in one piece: what a handler awaits is answered by
its dependencies (`Deps`), whatever these are. A handler takes the message apart first (`let … else`) and then works on
the request; the two parts are two definitions.

* `Router`, `buildRouter`, `Context.handled` : the table, and the handler that each message is meant for;
* `dispatch_decoded` : a decoded message reaches it, so no handler sees a message of another kind;
* `dispatch_settles` : the read loop, which cuts the handlers at their await points, gives the same answer.
-/

namespace LongshipX.Dispatch
open Protocol Gateway
open ReadLoop (Resolved PlayerProfile resumeGetProfile)

/-! ## The context -/

/-- What a handler is answered: `tokens`, `players`, `rooms` and `profile` of `GatewayDeps`. -/
structure Deps where
  resolve : String → Resolved
  findById : PlayerId → Except RepoError (Option String)
  joinOrCreate : Option RoomId → PlayerId → String → SinkId → Except AppError RoomId
  leave : RoomId → PlayerId → String → Except AppError Unit
  leaveAll : PlayerId → String → Except AppError Unit
  chat : RoomId → PlayerId → String → Except AppError Unit
  profile : PlayerId → Except AppError PlayerProfile

/-- `ConnContext` with the time and the text form of ids. -/
structure Context where
  auth : AuthState
  roomTx : SinkId
  deps : Deps
  uuids : Uuids
  utcNow : Int

namespace Context

def setAuth (ctx : Context) (auth : AuthState) : Context := { ctx with auth := auth }

/-- The end of a handler: the state that it leaves and its answer. -/
def leaves (ctx : Context) (result : AuthState × Answer) : Context × Answer := (ctx.setAuth result.1, result.2)

/-! ## The handlers on their requests -/

def unbound (ctx : Context) : Context × Answer :=
  (ctx, .ok (some (errorNotification errNotAuthenticated "请先完成绑定")))

/-- `handle_bind` from `resolve` on. -/
def bindToken (ctx : Context) (token : String) : Context × Answer :=
  match ctx.deps.resolve token with
  | .ok (some player) =>
    match ctx.deps.findById player with
    | .ok (some nickname) =>
      (ctx.setAuth (ctx.auth.setAuthed ⟨player, nickname⟩ token),
        .ok (some (bindOk (ctx.uuids.toText player.uuid) nickname)))
    | .ok none => (ctx, .error (.handler "token 对应的玩家不存在"))
    | .error err => (ctx, .error (.handler err.toText))
  | .ok none => (ctx, .ok (some (bindRejected "token 无效或已过期")))
  | .error err => (ctx, .error (.handler err.toText))

def bind (ctx : Context) (request : BindRequest) : Context × Answer :=
  if ctx.auth.isAuthenticated then (ctx, .ok (some (errorNotification errAlreadyBound "连接已完成绑定")))
  else
    let token := Text.trim request.token
    if token.isEmpty then (ctx, .ok (some (bindRejected "缺少 token"))) else ctx.bindToken token

def heartbeat (ctx : Context) (_ping : HeartbeatPing) : Context × Answer :=
  (ctx, .ok (some (.heartbeatAck ⟨.ofInt ctx.utcNow⟩)))

def joinRoom (ctx : Context) (request : JoinRoomRequest) : Context × Answer :=
  match ctx.auth.player with
  | none => ctx.unbound
  | some player =>
    match parseOptionalRoomId ctx.uuids request.roomId with
    | .error text => (ctx, .ok (some (errorNotification errInvalidInput text)))
    | .ok target =>
      match ctx.auth.currentRoom with
      | some current =>
        if target = some current then (ctx, .ok none)
        else (ctx, .ok (some (errorNotification errConflict "请先离开当前房间")))
      | none => ctx.leaves (resumeJoinRoom ctx.auth (ctx.deps.joinOrCreate target player.playerId player.nickname ctx.roomTx))

def leaveRoom (ctx : Context) (request : LeaveRoomRequest) : Context × Answer :=
  match ctx.auth.player with
  | none => ctx.unbound
  | some player =>
    match parseOptionalRoomId ctx.uuids request.roomId with
    | .error text => (ctx, .ok (some (errorNotification errInvalidInput text)))
    | .ok (some room) =>
      ctx.leaves (resumeLeaveRoom ctx.auth (some room) (ctx.deps.leave room player.playerId "client leave"))
    | .ok none => ctx.leaves (resumeLeaveRoom ctx.auth none (ctx.deps.leaveAll player.playerId "client leave"))

def roomChat (ctx : Context) (request : RoomChatRequest) : Context × Answer :=
  match ctx.auth.player with
  | none => ctx.unbound
  | some player =>
    match ctx.auth.currentRoom with
    | none => (ctx, .ok (some (errorNotification errNotFound "请先加入一个房间")))
    | some room => ctx.leaves (resumeRoomChat ctx.auth (ctx.deps.chat room player.playerId request.text))

def getProfile (ctx : Context) (_request : GetProfileRequest) : Context × Answer :=
  match ctx.auth.player with
  | none => ctx.unbound
  | some player => (ctx, resumeGetProfile ctx.uuids (ctx.deps.profile player.playerId))

/-- The answer that a message is meant to get: that of its own handler on the request that it carries. -/
def handled (ctx : Context) : InboundMessage → Context × Answer
  | .bind request => ctx.bind request
  | .heartbeat ping => ctx.heartbeat ping
  | .joinRoom request => ctx.joinRoom request
  | .leaveRoom request => ctx.leaveRoom request
  | .roomChat request => ctx.roomChat request
  | .getProfile request => ctx.getProfile request
  | .unknown opcode => (ctx, .error (.unsupportedOpcode opcode))

end Context

/-! ## The handlers -/

def handleBind (ctx : Context) : InboundMessage → Context × Answer
  | .bind request => ctx.bind request
  | _ => (ctx, .error (.handler "BIND 路由收到异构消息"))

def handleHeartbeat (ctx : Context) : InboundMessage → Context × Answer
  | .heartbeat ping => ctx.heartbeat ping
  | _ => (ctx, .error (.handler "HEARTBEAT 路由收到异构消息"))

def handleJoinRoom (ctx : Context) : InboundMessage → Context × Answer
  | .joinRoom request => ctx.joinRoom request
  | _ => (ctx, .error (.handler "JOIN_ROOM 路由收到异构消息"))

def handleLeaveRoom (ctx : Context) : InboundMessage → Context × Answer
  | .leaveRoom request => ctx.leaveRoom request
  | _ => (ctx, .error (.handler "LEAVE_ROOM 路由收到异构消息"))

def handleRoomChat (ctx : Context) : InboundMessage → Context × Answer
  | .roomChat request => ctx.roomChat request
  | _ => (ctx, .error (.handler "ROOM_CHAT 路由收到异构消息"))

def handleGetProfile (ctx : Context) : InboundMessage → Context × Answer
  | .getProfile request => ctx.getProfile request
  | _ => (ctx, .error (.handler "GET_PROFILE 路由收到异构消息"))

/-! ## The router -/

/-- `Router<C>`; a handler takes the context and the message and leaves a context and an answer. -/
structure Router (C : Type) where
  routes : AList fun _ : UInt16 => C → InboundMessage → C × Answer

namespace Router
variable {C : Type}

/-- `Router::new`. -/
def new : Router C := ⟨∅⟩

def route (router : Router C) (opcode : UInt16) (handler : C → InboundMessage → C × Answer) : Router C :=
  ⟨router.routes.insert opcode handler⟩

def dispatch (router : Router C) (ctx : C) (message : InboundMessage) : C × Answer :=
  match router.routes.lookup message.opcode with
  | some handler => handler ctx message
  | none => (ctx, .error (.unsupportedOpcode message.opcode))

theorem lookup_route (router : Router C) (opcode opcode' : UInt16) (handler : C → InboundMessage → C × Answer) :
    (router.route opcode handler).routes.lookup opcode' =
      if opcode' = opcode then some handler else router.routes.lookup opcode' := by
  unfold route
  split_ifs with heq
  · rw [heq]
    exact AList.lookup_insert router.routes
  · exact AList.lookup_insert_ne heq

end Router

/-- `build_router`. -/
def buildRouter : Router Context :=
  Router.new
    |>.route opC2sBind handleBind
    |>.route opC2sHeartbeat handleHeartbeat
    |>.route opC2sJoinRoom handleJoinRoom
    |>.route opC2sLeaveRoom handleLeaveRoom
    |>.route opC2sRoomChat handleRoomChat
    |>.route opC2sGetProfile handleGetProfile

/-- The opcodes that `build_router` gives a handler. -/
def routedOpcodes : List UInt16 :=
  [opC2sBind, opC2sHeartbeat, opC2sJoinRoom, opC2sLeaveRoom, opC2sRoomChat, opC2sGetProfile]

section
variable {prost : Prost} {ctx : Context} {opcode : UInt16} {payload : List UInt8} {message : InboundMessage}

theorem lookup_buildRouter (opcode : UInt16) :
    buildRouter.routes.lookup opcode =
      if opcode = opC2sGetProfile then some handleGetProfile
      else if opcode = opC2sRoomChat then some handleRoomChat
      else if opcode = opC2sLeaveRoom then some handleLeaveRoom
      else if opcode = opC2sJoinRoom then some handleJoinRoom
      else if opcode = opC2sHeartbeat then some handleHeartbeat
      else if opcode = opC2sBind then some handleBind
      else none := by
  unfold buildRouter
  simp only [Router.lookup_route]
  rfl

theorem lookup_eq_none : buildRouter.routes.lookup opcode = none ↔ opcode ∉ routedOpcodes := by
  rw [lookup_buildRouter]
  simp only [routedOpcodes, List.mem_cons, List.not_mem_nil, or_false]
  split_ifs <;> simp_all

/-- **A message other than `Unknown` reaches its own handler.** -/
theorem dispatch_known (ctx : Context) (hknown : ∀ opcode, message ≠ .unknown opcode) :
    buildRouter.dispatch ctx message = ctx.handled message := by
  unfold Router.dispatch
  rw [lookup_buildRouter]
  cases message with
  | unknown opcode => exact absurd rfl (hknown opcode)
  | bind | heartbeat | joinRoom | leaveRoom | roomChat | getProfile => rfl

theorem dispatch_unknown (ctx : Context) (hopcode : opcode ∉ routedOpcodes) :
    buildRouter.dispatch ctx (.unknown opcode) = ctx.handled (.unknown opcode) := by
  unfold Router.dispatch
  rw [show InboundMessage.opcode (.unknown opcode) = opcode from rfl, lookup_eq_none.mpr hopcode]
  rfl

/-! ## Decoded messages -/

theorem decodeInbound_unrouted (hopcode : opcode ∉ routedOpcodes) :
    decodeInbound prost opcode payload = .ok (.unknown opcode) := by
  simp only [routedOpcodes, List.mem_cons, List.not_mem_nil, or_false, not_or] at hopcode
  unfold decodeInbound
  simp only [hopcode, if_false]

theorem decodeInbound_unknown {opcode' : UInt16} (h : decodeInbound prost opcode payload = .ok (.unknown opcode')) :
    opcode' = opcode ∧ opcode ∉ routedOpcodes := by
  refine ⟨decodeInbound_opcode h, ?_⟩
  unfold decodeInbound at h
  split_ifs at h with hbind hheartbeat hjoin hleave hchat hprofile
  · obtain ⟨a, ha⟩ := exists_of_decoded h
    cases ha
  · obtain ⟨a, ha⟩ := exists_of_decoded h
    cases ha
  · obtain ⟨a, ha⟩ := exists_of_decoded h
    cases ha
  · obtain ⟨a, ha⟩ := exists_of_decoded h
    cases ha
  · obtain ⟨a, ha⟩ := exists_of_decoded h
    cases ha
  · obtain ⟨a, ha⟩ := exists_of_decoded h
    cases ha
  · simp [routedOpcodes, hbind, hheartbeat, hjoin, hleave, hchat, hprofile]

/-- **A decoded message reaches its own handler.** -/
theorem dispatch_decoded (ctx : Context) (h : decodeInbound prost opcode payload = .ok message) :
    buildRouter.dispatch ctx message = ctx.handled message := by
  cases message with
  | unknown opcode' =>
      obtain ⟨rfl, hopcode⟩ := decodeInbound_unknown h
      exact dispatch_unknown ctx hopcode
  | bind | heartbeat | joinRoom | leaveRoom | roomChat | getProfile => exact dispatch_known ctx (by simp)

/-! ## What the handlers answer -/

theorem resumeJoinRoom_ok (auth : AuthState) (outcome : Except AppError RoomId) :
    ∃ reply, (resumeJoinRoom auth outcome).2 = .ok reply := by
  cases outcome with
  | ok room => exact ⟨_, rfl⟩
  | error err => exact ⟨_, rfl⟩

theorem resumeLeaveRoom_ok (auth : AuthState) (target : Option RoomId) (outcome : Except AppError Unit) :
    ∃ reply, (resumeLeaveRoom auth target outcome).2 = .ok reply := by
  cases outcome with
  | ok => cases target <;> exact ⟨_, rfl⟩
  | error err => exact ⟨_, rfl⟩

theorem resumeRoomChat_ok (auth : AuthState) (outcome : Except AppError Unit) :
    ∃ reply, (resumeRoomChat auth outcome).2 = .ok reply := by
  cases outcome with
  | ok => exact ⟨_, rfl⟩
  | error err => exact ⟨_, rfl⟩

theorem joinRoom_ok (ctx : Context) (request : JoinRoomRequest) : ∃ reply, (ctx.joinRoom request).2 = .ok reply := by
  unfold Context.joinRoom
  split
  · exact ⟨_, rfl⟩
  · split
    · exact ⟨_, rfl⟩
    · split
      · split_ifs <;> exact ⟨_, rfl⟩
      · exact resumeJoinRoom_ok ctx.auth _

theorem leaveRoom_ok (ctx : Context) (request : LeaveRoomRequest) : ∃ reply, (ctx.leaveRoom request).2 = .ok reply := by
  unfold Context.leaveRoom
  split
  · exact ⟨_, rfl⟩
  · split
    · exact ⟨_, rfl⟩
    · exact resumeLeaveRoom_ok ctx.auth _ _
    · exact resumeLeaveRoom_ok ctx.auth _ _

theorem roomChat_ok (ctx : Context) (request : RoomChatRequest) : ∃ reply, (ctx.roomChat request).2 = .ok reply := by
  unfold Context.roomChat
  split
  · exact ⟨_, rfl⟩
  · split
    · exact ⟨_, rfl⟩
    · exact resumeRoomChat_ok ctx.auth _

theorem getProfile_ok (ctx : Context) (request : GetProfileRequest) : ∃ reply, (ctx.getProfile request).2 = .ok reply := by
  unfold Context.getProfile
  split
  · exact ⟨_, rfl⟩
  · cases ctx.deps.profile _ <;> exact ⟨_, rfl⟩

theorem bind_supported (ctx : Context) (request : BindRequest) (opcode : UInt16) :
    (ctx.bind request).2 ≠ .error (.unsupportedOpcode opcode) := by
  unfold Context.bind
  dsimp only
  split_ifs
  · simp
  · simp
  · unfold Context.bindToken
    split
    · split <;> simp
    · simp
    · simp

theorem handled_supported (ctx : Context) (hknown : ∀ opcode, message ≠ .unknown opcode) (opcode : UInt16) :
    (ctx.handled message).2 ≠ .error (.unsupportedOpcode opcode) := by
  have hok : ∀ {answer : Answer}, (∃ reply, answer = .ok reply) → answer ≠ .error (.unsupportedOpcode opcode) := by
    rintro _ ⟨reply, rfl⟩ herror
    cases herror
  cases message with
  | unknown opcode => exact absurd rfl (hknown opcode)
  | bind request => exact bind_supported ctx request opcode
  | heartbeat ping => exact hok ⟨_, rfl⟩
  | joinRoom request => exact hok (joinRoom_ok ctx request)
  | leaveRoom request => exact hok (leaveRoom_ok ctx request)
  | roomChat request => exact hok (roomChat_ok ctx request)
  | getProfile request => exact hok (getProfile_ok ctx request)

/-- **`UnsupportedOpcode`** is the answer to a decoded message if and only if its opcode has no handler. -/
theorem unsupported_iff (ctx : Context) (h : decodeInbound prost opcode payload = .ok message) (opcode' : UInt16) :
    (buildRouter.dispatch ctx message).2 = .error (.unsupportedOpcode opcode') ↔
      opcode' = opcode ∧ opcode ∉ routedOpcodes := by
  rw [dispatch_decoded ctx h]
  constructor
  · intro hanswer
    cases message with
    | unknown x =>
        obtain ⟨rfl, hopcode⟩ := decodeInbound_unknown h
        obtain rfl : x = opcode' := by simpa [Context.handled] using hanswer
        exact ⟨rfl, hopcode⟩
    | bind | heartbeat | joinRoom | leaveRoom | roomChat | getProfile =>
        exact absurd hanswer (handled_supported ctx (by simp) opcode')
  · rintro ⟨rfl, hopcode⟩
    rw [decodeInbound_unrouted hopcode] at h
    obtain rfl := Except.ok.inj h
    rfl

end

/-! ## The handlers cut at their await points -/

section
open ReadLoop (Conn Setup Await Progress)

variable {β : Type} (setup : Setup β) (deps : Deps)

def Deps.rooms (deps : Deps) : Service.Op → Except AppError (Option RoomId)
  | .joinOrCreate target player nickname sink => (deps.joinOrCreate target player nickname sink).map some
  | .leave room player reason => (deps.leave room player reason).map fun _ => none
  | .leaveAll player reason => (deps.leaveAll player reason).map fun _ => none
  | .chat room player text => (deps.chat room player text).map fun _ => none
  | .closeAll _ => .ok none

def Deps.reply (deps : Deps) : Await → ReadLoop.Label
  | .session _ _ token _ => .resolved (deps.resolve token)
  | .bindToken token => .resolved (deps.resolve token)
  | .bindPlayer _ player => .found (deps.findById player)
  | .rooms op => .rooms (deps.rooms op)
  | .profile player => .profile (deps.profile player)

def goesOn (x : Conn β × Progress) : Conn β × Progress :=
  match x.2 with
  | .awaits await => (x.1.resume setup await (deps.reply await)).getD x
  | .done _ => x

abbrev contextOf (c : Conn β) : Context := ⟨c.auth, setup.roomTx, deps, setup.uuids, c.utcNow⟩

/-- After at most two answers the handler has ended with this result, and with entries in the log. -/
def Settles (c : Conn β) (x : Conn β × Progress) (result : Context × Answer) : Prop :=
  ∃ log, goesOn setup deps (goesOn setup deps x) = { c with auth := result.1.auth, log := log }.answer result.2

variable {setup deps} {c : Conn β} {message : InboundMessage}

theorem goesOn_answer (c : Conn β) (answer : Answer) : goesOn setup deps (c.answer answer) = c.answer answer := by
  obtain err | reply | reply := answer <;> rfl

theorem settles_answer {x : Conn β × Progress} {result : Context × Answer} {answer : Answer} (hx : x = c.answer answer)
    (hresult : result = (contextOf setup deps c, answer)) : Settles setup deps c x result := by
  subst hx hresult
  refine ⟨c.log, ?_⟩
  rw [goesOn_answer, goesOn_answer]

theorem settles_once {await : Await} {c' : Conn β} {result : Context × Answer} (log : List ReadLoop.Event)
    (h : c'.resume setup await (deps.reply await) = some ({ c with auth := result.1.auth, log := log }.answer result.2)) :
    Settles setup deps c (c', .awaits await) result := by
  have hgoes : goesOn setup deps (c', .awaits await) = { c with auth := result.1.auth, log := log }.answer result.2 := by
    unfold goesOn
    dsimp only
    rw [h]
    rfl
  refine ⟨log, ?_⟩
  rw [hgoes, goesOn_answer]

theorem settles_bindToken (c : Conn β) (token : String) :
    Settles setup deps c (c.note (.resolve .reader token), .awaits (.bindToken token))
      ((contextOf setup deps c).bindToken token) := by
  have hfirst : goesOn setup deps (c.note (.resolve .reader token), .awaits (.bindToken token)) =
      ((c.note (.resolve .reader token)).note (.resolved .reader (deps.resolve token))).resumeBindToken token
        (deps.resolve token) := rfl
  unfold Settles Context.bindToken
  rw [hfirst]
  dsimp only
  generalize deps.resolve token = found
  obtain err | none | player := found
  · exact ⟨_, goesOn_answer _ (.error (.handler err.toText))⟩
  · exact ⟨_, goesOn_answer _ (.ok (some (bindRejected "token 无效或已过期")))⟩
  · have hsecond : ∀ c' : Conn β, goesOn setup deps (c'.resumeBindToken token (.ok (some player))) =
        c'.resumeBindPlayer setup.uuids token player (deps.findById player) := fun _ => rfl
    rw [hsecond]
    dsimp only
    generalize deps.findById player = found
    obtain err | none | nickname := found
    · exact ⟨_, rfl⟩
    · exact ⟨_, rfl⟩
    · exact ⟨_, rfl⟩

theorem settles_bind (c : Conn β) (message : InboundMessage) :
    Settles setup deps c (c.handleBind message) (handleBind (contextOf setup deps c) message) := by
  cases message with
  | bind request =>
      unfold Conn.handleBind handleBind Context.bind
      dsimp only
      by_cases hauth : c.auth.isAuthenticated = true
      · rw [if_pos hauth, if_pos hauth]
        exact settles_answer rfl rfl
      · rw [if_neg hauth, if_neg hauth]
        by_cases hempty : (Text.trim request.token).isEmpty = true
        · rw [if_pos hempty, if_pos hempty]
          exact settles_answer rfl rfl
        · rw [if_neg hempty, if_neg hempty]
          exact settles_bindToken c (Text.trim request.token)
  | heartbeat | joinRoom | leaveRoom | roomChat | getProfile | unknown => exact settles_answer rfl rfl

theorem settles_joinRoom (c : Conn β) (message : InboundMessage) :
    Settles setup deps c (c.begun (beginJoinRoom setup.uuids setup.roomTx c.auth message))
      (handleJoinRoom (contextOf setup deps c) message) := by
  cases message with
  | joinRoom request =>
      unfold beginJoinRoom handleJoinRoom Context.joinRoom
      dsimp only [contextOf]
      cases c.auth.player with
      | none => exact settles_answer rfl rfl
      | some player =>
          dsimp only
          cases parseOptionalRoomId setup.uuids request.roomId with
          | error text => exact settles_answer rfl rfl
          | ok target =>
              dsimp only
              cases c.auth.currentRoom with
              | some current =>
                  dsimp only
                  split_ifs
                  · exact settles_answer rfl rfl
                  · exact settles_answer rfl rfl
              | none =>
                  refine settles_once c.log ?_
                  unfold Conn.resume Deps.reply Deps.rooms
                  dsimp only
                  cases deps.joinOrCreate target player.playerId player.nickname setup.roomTx with
                  | ok room => rfl
                  | error err => rfl
  | heartbeat | bind | leaveRoom | roomChat | getProfile | unknown => exact settles_answer rfl rfl

theorem settles_leaveRoom (c : Conn β) (message : InboundMessage) :
    Settles setup deps c (c.begun (beginLeaveRoom setup.uuids c.auth message))
      (handleLeaveRoom (contextOf setup deps c) message) := by
  cases message with
  | leaveRoom request =>
      unfold beginLeaveRoom handleLeaveRoom Context.leaveRoom
      dsimp only
      cases c.auth.player with
      | none => exact settles_answer rfl rfl
      | some player =>
          dsimp only
          obtain text | none | room := parseOptionalRoomId setup.uuids request.roomId
          · exact settles_answer rfl rfl
          · refine settles_once c.log ?_
            unfold Conn.resume Deps.reply Deps.rooms
            dsimp only
            cases deps.leaveAll player.playerId "client leave" <;> rfl
          · refine settles_once c.log ?_
            unfold Conn.resume Deps.reply Deps.rooms
            dsimp only
            cases deps.leave room player.playerId "client leave" <;> rfl
  | bind | heartbeat | joinRoom | roomChat | getProfile | unknown => exact settles_answer rfl rfl

theorem settles_roomChat (c : Conn β) (message : InboundMessage) :
    Settles setup deps c (c.begun (beginRoomChat c.auth message)) (handleRoomChat (contextOf setup deps c) message) := by
  cases message with
  | roomChat request =>
      unfold beginRoomChat handleRoomChat Context.roomChat
      dsimp only
      cases c.auth.player with
      | none => exact settles_answer rfl rfl
      | some player =>
          dsimp only
          cases c.auth.currentRoom with
          | none => exact settles_answer rfl rfl
          | some room =>
              refine settles_once c.log ?_
              unfold Conn.resume Deps.reply Deps.rooms
              dsimp only
              cases deps.chat room player.playerId request.text <;> rfl
  | bind | heartbeat | joinRoom | leaveRoom | getProfile | unknown => exact settles_answer rfl rfl

theorem settles_getProfile (c : Conn β) (message : InboundMessage) :
    Settles setup deps c (c.handleGetProfile message) (handleGetProfile (contextOf setup deps c) message) := by
  cases message with
  | getProfile request =>
      unfold Conn.handleGetProfile handleGetProfile Context.getProfile
      dsimp only
      cases c.auth.player with
      | none => exact settles_answer rfl rfl
      | some player => exact settles_once c.log rfl
  | bind | heartbeat | joinRoom | leaveRoom | roomChat | unknown => exact settles_answer rfl rfl

theorem settles_heartbeat (c : Conn β) (message : InboundMessage) :
    Settles setup deps c (c.answer (ReadLoop.handleHeartbeat c.utcNow message))
      (handleHeartbeat (contextOf setup deps c) message) := by
  cases message with
  | bind | heartbeat | joinRoom | leaveRoom | roomChat | getProfile | unknown => exact settles_answer rfl rfl

def run : Handler → Context → InboundMessage → Context × Answer
  | .bind => handleBind
  | .heartbeat => handleHeartbeat
  | .joinRoom => handleJoinRoom
  | .leaveRoom => handleLeaveRoom
  | .roomChat => handleRoomChat
  | .getProfile => handleGetProfile

theorem lookup_eq_run (opcode : UInt16) :
    buildRouter.routes.lookup opcode = (Protocol.buildRouter.lookup opcode).map run := by
  by_cases hmem : opcode ∈ routedOpcodes
  · simp only [routedOpcodes, List.mem_cons, List.not_mem_nil, or_false] at hmem
    rw [lookup_buildRouter]
    obtain rfl | rfl | rfl | rfl | rfl | rfl := hmem <;> rfl
  · have hnone : Protocol.buildRouter.lookup opcode = none := by
      have hkeys : ∀ entry ∈ Protocol.buildRouter, entry.1 ∈ routedOpcodes := by decide
      rw [List.lookup_eq_none_iff]
      intro entry hentry
      simp only [bne_iff_ne]
      rintro rfl
      exact hmem (hkeys entry hentry)
    rw [lookup_eq_none.mpr hmem, hnone]
    rfl

/-- **The read loop dispatches as the router does**: with the answers of its dependencies each handler ends with the
answer, and with the authentication state, that `Router::dispatch` gives. -/
theorem dispatch_settles (c : Conn β) (message : InboundMessage) :
    Settles setup deps c (c.dispatch setup message) (buildRouter.dispatch (contextOf setup deps c) message) := by
  unfold Conn.dispatch route Router.dispatch
  rw [lookup_eq_run]
  cases Protocol.buildRouter.lookup message.opcode with
  | none => exact settles_answer rfl rfl
  | some handler =>
      cases handler with
      | bind => exact settles_bind (c.note _) message
      | heartbeat => exact settles_heartbeat (c.note _) message
      | joinRoom => exact settles_joinRoom (c.note _) message
      | leaveRoom => exact settles_leaveRoom (c.note _) message
      | roomChat => exact settles_roomChat (c.note _) message
      | getProfile => exact settles_getProfile (c.note _) message

end

end LongshipX.Dispatch
