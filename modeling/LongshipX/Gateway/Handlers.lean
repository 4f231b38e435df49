import LongshipX.Protocol.Messages
import LongshipX.Room.Service

/-!
# The authentication state of a connection and the room handlers

`context.rs` and the part of `handlers.rs` that works on rooms. A handler is cut where it calls the room
service: `begin` answers the client at once or names the operation it calls; `resume` goes on with the outcome.
Only the read loop of the connection changes its `AuthState`, so the state a handler read is still there when it
goes on.

* `AuthState`, `setAuthed`, `setCurrentRoom`;
* `beginJoinRoom`, `resumeJoinRoom`, and the same for `LEAVE_ROOM` and `ROOM_CHAT`;
* `appErrorNotification`, `parseOptionalRoomId`.
-/

namespace LongshipX.Gateway
open Protocol

/-- `AuthedPlayer`. -/
structure AuthedPlayer where
  playerId : PlayerId
  nickname : String
  deriving DecidableEq, Repr

/-- `AuthState`. -/
structure AuthState where
  player : Option AuthedPlayer
  sessionToken : Option String
  currentRoom : Option RoomId
  deriving DecidableEq, Repr

/-- `AuthState::default`. -/
def AuthState.empty : AuthState := ⟨none, none, none⟩

def AuthState.isAuthenticated (auth : AuthState) : Bool := auth.player.isSome

def AuthState.setAuthed (auth : AuthState) (player : AuthedPlayer) (token : String) : AuthState :=
  { auth with player := some player, sessionToken := some token }

def AuthState.setCurrentRoom (auth : AuthState) (room : Option RoomId) : AuthState := { auth with currentRoom := room }

/-- What a handler returns: `Result<Option<OutboundMessage>, ProtocolError>`. -/
abbrev Answer := Except ProtocolError (Option OutboundMessage)

/-- `app_error_notification`. -/
def appErrorNotification : AppError → OutboundMessage
  | .validation message => errorNotification errInvalidInput message
  | .unauthorized message => errorNotification errNotAuthenticated message
  | .forbidden message => errorNotification errForbidden message
  | .notFound message => errorNotification errNotFound message
  | .conflict message => errorNotification errConflict message
  | .busy => errorNotification errServerBusy "服务繁忙,请稍后重试"
  | .rateLimited => errorNotification errRateLimited "请求过于频繁"
  | .postCommit _ => errorNotification errProtocol "数据已提交,事件发布失败,请勿重试整个操作"
  | .storage _ => errorNotification errProtocol "服务器内部错误"
  | .internal _ => errorNotification errProtocol "服务器内部错误"

/-- `parse_optional_room_id`. -/
def parseOptionalRoomId (uuids : Uuids) : Option String → Except String (Option RoomId)
  | none => .ok none
  | some text =>
    if (Text.trim text).isEmpty then .ok none
    else match uuids.parseStr (Text.trim text) with
      | some uuid => .ok (some ⟨uuid⟩)
      | none => .error "room_id 不是合法的 UUID"

/-- A handler at its call of the room service: it has answered, or it calls this operation. -/
abbrev Begun := Answer ⊕ Service.Op

/-- The answer to a client that is not bound. -/
def notAuthenticated : Begun := .inl (.ok (some (errorNotification errNotAuthenticated "请先完成绑定")))

/-- `handle_join_room` up to `join_or_create`. -/
def beginJoinRoom (uuids : Uuids) (roomTx : SinkId) (auth : AuthState) (message : InboundMessage) : Begun :=
  match message with
  | .joinRoom request =>
    match auth.player with
    | none => notAuthenticated
    | some player =>
      match parseOptionalRoomId uuids request.roomId with
      | .error text => .inl (.ok (some (errorNotification errInvalidInput text)))
      | .ok target =>
        match auth.currentRoom with
        | some current =>
          if target = some current then .inl (.ok none)
          else .inl (.ok (some (errorNotification errConflict "请先离开当前房间")))
        | none => .inr (.joinOrCreate target player.playerId player.nickname roomTx)
  | _ => .inl (.error (.handler "JOIN_ROOM 路由收到异构消息"))

/-- `handle_join_room` after it. -/
def resumeJoinRoom (auth : AuthState) : Except AppError RoomId → AuthState × Answer
  | .ok room => (auth.setCurrentRoom (some room), .ok none)
  | .error err => (auth, .ok (some (appErrorNotification err)))

/-- `handle_leave_room` up to `leave` or `leave_all`. -/
def beginLeaveRoom (uuids : Uuids) (auth : AuthState) (message : InboundMessage) : Begun :=
  match message with
  | .leaveRoom request =>
    match auth.player with
    | none => notAuthenticated
    | some player =>
      match parseOptionalRoomId uuids request.roomId with
      | .error text => .inl (.ok (some (errorNotification errInvalidInput text)))
      | .ok (some room) => .inr (.leave room player.playerId "client leave")
      | .ok none => .inr (.leaveAll player.playerId "client leave")
  | _ => .inl (.error (.handler "LEAVE_ROOM 路由收到异构消息"))

/-- `handle_leave_room` after it; `target` is the room of the request. -/
def resumeLeaveRoom (auth : AuthState) (target : Option RoomId) : Except AppError Unit → AuthState × Answer
  | .ok _ =>
    match target with
    | some room => (if auth.currentRoom = some room then auth.setCurrentRoom none else auth, .ok none)
    | none => (auth.setCurrentRoom none, .ok none)
  | .error err => (auth, .ok (some (appErrorNotification err)))

/-- `handle_room_chat` up to `chat`. -/
def beginRoomChat (auth : AuthState) (message : InboundMessage) : Begun :=
  match message with
  | .roomChat request =>
    match auth.player with
    | none => notAuthenticated
    | some player =>
      match auth.currentRoom with
      | none => .inl (.ok (some (errorNotification errNotFound "请先加入一个房间")))
      | some room => .inr (.chat room player.playerId request.text)
  | _ => .inl (.error (.handler "ROOM_CHAT 路由收到异构消息"))

/-- `handle_room_chat` after it. -/
def resumeRoomChat (auth : AuthState) : Except AppError Unit → AuthState × Answer
  | .ok _ => (auth, .ok none)
  | .error err => (auth, .ok (some (appErrorNotification err)))

/-! ## What the handlers keep -/

section
variable {uuids : Uuids} {roomTx : SinkId} {auth : AuthState} {message : InboundMessage} {op : Service.Op}

theorem beginJoinRoom_calls (h : beginJoinRoom uuids roomTx auth message = .inr op) :
    auth.currentRoom = none ∧ ∃ player target, auth.player = some player ∧
      op = .joinOrCreate target player.playerId player.nickname roomTx := by
  unfold beginJoinRoom at h
  split at h
  · split at h
    · cases h
    · next player hplayer =>
        split at h
        · cases h
        · next target _ =>
            split at h
            · split_ifs at h
            · next hroom =>
                obtain rfl := Sum.inr.inj h
                exact ⟨hroom, player, target, hplayer, rfl⟩
  · cases h

theorem beginLeaveRoom_calls (h : beginLeaveRoom uuids auth message = .inr op) :
    ∃ player, auth.player = some player ∧
      ((∃ room, op = .leave room player.playerId "client leave") ∨ op = .leaveAll player.playerId "client leave") := by
  unfold beginLeaveRoom at h
  split at h
  · split at h
    · cases h
    · next player hplayer =>
        split at h
        · cases h
        · next room _ =>
            obtain rfl := Sum.inr.inj h
            exact ⟨player, hplayer, Or.inl ⟨room, rfl⟩⟩
        · obtain rfl := Sum.inr.inj h
          exact ⟨player, hplayer, Or.inr rfl⟩
  · cases h

theorem beginRoomChat_calls (h : beginRoomChat auth message = .inr op) :
    ∃ player room text, auth.player = some player ∧ op = .chat room player.playerId text := by
  unfold beginRoomChat at h
  split at h
  · next request =>
      split at h
      · cases h
      · next player hplayer =>
          split at h
          · cases h
          · next room _ =>
              obtain rfl := Sum.inr.inj h
              exact ⟨player, room, request.text, hplayer, rfl⟩
  · cases h

theorem resumeJoinRoom_player (outcome : Except AppError RoomId) : (resumeJoinRoom auth outcome).1.player = auth.player := by
  cases outcome <;> rfl

theorem resumeLeaveRoom_player (target : Option RoomId) (outcome : Except AppError Unit) :
    (resumeLeaveRoom auth target outcome).1.player = auth.player := by
  cases outcome with
  | error => rfl
  | ok =>
      cases target with
      | none => rfl
      | some room =>
          simp only [resumeLeaveRoom]
          split_ifs <;> rfl

theorem resumeRoomChat_player (outcome : Except AppError Unit) : (resumeRoomChat auth outcome).1.player = auth.player := by
  cases outcome <;> rfl

end

end LongshipX.Gateway
