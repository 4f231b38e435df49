import LongshipX.Net.Codec
import LongshipX.Room.Actor

/-!
# Typed messages and the routing table

`messages.rs`, `opcodes.rs`, `error.rs` and `router.rs` of the `protocol` crate. The message types are those
that `prost` generates from `game.proto`; its decoders are a parameter (`Prost`), and so is the text form of a
`uuid::Uuid` (`Uuids`).

* `InboundMessage`, `OutboundMessage`, `decodeInbound`;
* `Handler`, `Router.dispatch` : opcode to handler;
* `decodeInbound_opcode` : a decoded message carries the opcode of its frame.
-/

namespace LongshipX.Protocol
open Net (Frame)

/-! ## Opcodes and error codes -/

def opC2sBind : UInt16 := 0x0001
def opC2sHeartbeat : UInt16 := 0x0002
def opC2sJoinRoom : UInt16 := 0x0010
def opC2sLeaveRoom : UInt16 := 0x0011
def opC2sRoomChat : UInt16 := 0x0012
def opC2sGetProfile : UInt16 := 0x0013

def errProtocol : UInt32 := 1000
def errFrameTooLarge : UInt32 := 1001
def errRateLimited : UInt32 := 1002
def errTimeout : UInt32 := 1003
def errNotAuthenticated : UInt32 := 1004
def errAuthRequiredFirst : UInt32 := 1005
def errAlreadyBound : UInt32 := 1006
def errServerBusy : UInt32 := 2001
def errInvalidInput : UInt32 := 2003
def errConflict : UInt32 := 2004
def errNotFound : UInt32 := 2005
def errForbidden : UInt32 := 2006

/-- `ProtocolError`. -/
inductive ProtocolError where
  | decode (message : String)
  | encode (message : String)
  | unsupportedOpcode (opcode : UInt16)
  | handler (message : String)
  deriving DecidableEq, Repr

/-- An opcode as `{:#06x}` prints it. -/
def hexOpcode (opcode : UInt16) : String :=
  let digits := Nat.toDigits 16 opcode.toNat
  "0x" ++ String.ofList (List.replicate (4 - digits.length) '0' ++ digits)

/-- `Display for ProtocolError`. -/
def ProtocolError.toText : ProtocolError → String
  | .decode message => "protobuf 解码失败: " ++ message
  | .encode message => "protobuf 编码失败: " ++ message
  | .unsupportedOpcode opcode => "未支持的 opcode: " ++ hexOpcode opcode
  | .handler message => "路由处理器错误: " ++ message

/-! ## Messages -/

structure BindRequest where
  token : String
  deriving DecidableEq, Repr

structure HeartbeatPing where
  clientTsMs : Int64
  deriving DecidableEq, Repr

structure JoinRoomRequest where
  roomId : Option String
  deriving DecidableEq, Repr

structure LeaveRoomRequest where
  roomId : Option String
  deriving DecidableEq, Repr

structure RoomChatRequest where
  text : String
  deriving DecidableEq, Repr

structure GetProfileRequest where
  deriving DecidableEq, Repr

structure BindResult where
  ok : Bool
  playerId : Option String
  nickname : Option String
  error : Option String
  deriving DecidableEq, Repr

structure HeartbeatAck where
  serverTsMs : Int64
  deriving DecidableEq, Repr

structure ProfileResponse where
  ok : Bool
  playerId : Option String
  nickname : Option String
  level : Option UInt32
  exp : Option UInt64
  lastLoginAtMs : Option Int64
  error : Option String
  deriving DecidableEq, Repr

/-- `room_event_notification::Event`, the `oneof`. -/
inductive NotifiedEvent where
  | memberJoined (roomId playerId nickname : String)
  | memberLeft (roomId playerId : String)
  | chat (roomId senderId senderNickname text : String)
  | roomClosed (roomId reason : String)
  deriving DecidableEq, Repr

structure RoomEventNotification where
  event : Option NotifiedEvent
  deriving DecidableEq, Repr

structure ErrorNotification where
  code : UInt32
  message : String
  deriving DecidableEq, Repr

structure ServerShutdownNotice where
  message : String
  deriving DecidableEq, Repr

inductive InboundMessage where
  | bind (request : BindRequest)
  | heartbeat (ping : HeartbeatPing)
  | joinRoom (request : JoinRoomRequest)
  | leaveRoom (request : LeaveRoomRequest)
  | roomChat (request : RoomChatRequest)
  | getProfile (request : GetProfileRequest)
  | unknown (opcode : UInt16)
  deriving DecidableEq, Repr

inductive OutboundMessage where
  | bindResult (result : BindResult)
  | heartbeatAck (ack : HeartbeatAck)
  | profile (response : ProfileResponse)
  | roomEvent (notification : RoomEventNotification)
  | error (notification : ErrorNotification)
  | shutdown (notice : ServerShutdownNotice)
  deriving DecidableEq, Repr

def InboundMessage.opcode : InboundMessage → UInt16
  | .bind _ => opC2sBind
  | .heartbeat _ => opC2sHeartbeat
  | .joinRoom _ => opC2sJoinRoom
  | .leaveRoom _ => opC2sLeaveRoom
  | .roomChat _ => opC2sRoomChat
  | .getProfile _ => opC2sGetProfile
  | .unknown opcode => opcode

def bindOk (playerId nickname : String) : OutboundMessage := .bindResult ⟨true, some playerId, some nickname, none⟩

def bindRejected (error : String) : OutboundMessage := .bindResult ⟨false, none, none, some error⟩

def errorNotification (code : UInt32) (message : String) : OutboundMessage := .error ⟨code, message⟩

/-! ## What other crates do -/

/-- The decoders that `prost` generates, with the text of their errors. -/
structure Prost where
  bindRequest : List UInt8 → Except String BindRequest
  heartbeatPing : List UInt8 → Except String HeartbeatPing
  joinRoomRequest : List UInt8 → Except String JoinRoomRequest
  leaveRoomRequest : List UInt8 → Except String LeaveRoomRequest
  roomChatRequest : List UInt8 → Except String RoomChatRequest
  getProfileRequest : List UInt8 → Except String GetProfileRequest

/-- `Uuid::parse_str` and `Display for Uuid`. -/
structure Uuids where
  parseStr : String → Option Uuid
  toText : Uuid → String

def noUuids : Uuids := ⟨fun _ => none, fun _ => ""⟩

/-- `decode_inbound`. -/
def decodeInbound (prost : Prost) (opcode : UInt16) (payload : List UInt8) : Except ProtocolError InboundMessage :=
  if opcode = opC2sBind then (prost.bindRequest payload).mapError .decode |>.map .bind
  else if opcode = opC2sHeartbeat then (prost.heartbeatPing payload).mapError .decode |>.map .heartbeat
  else if opcode = opC2sJoinRoom then (prost.joinRoomRequest payload).mapError .decode |>.map .joinRoom
  else if opcode = opC2sLeaveRoom then (prost.leaveRoomRequest payload).mapError .decode |>.map .leaveRoom
  else if opcode = opC2sRoomChat then (prost.roomChatRequest payload).mapError .decode |>.map .roomChat
  else if opcode = opC2sGetProfile then (prost.getProfileRequest payload).mapError .decode |>.map .getProfile
  else .ok (.unknown opcode)

/-- `GameCodec::decode`. -/
def decode (prost : Prost) (frame : Frame) : Except ProtocolError InboundMessage :=
  decodeInbound prost frame.opcode frame.payload

/-- `room_event_to_notification`. -/
def roomEventToNotification (uuids : Uuids) : RoomEvent → RoomEventNotification
  | .memberJoined room player nickname =>
    ⟨some (.memberJoined (uuids.toText room.uuid) (uuids.toText player.uuid) nickname)⟩
  | .memberLeft room player => ⟨some (.memberLeft (uuids.toText room.uuid) (uuids.toText player.uuid))⟩
  | .chat room sender nickname text => ⟨some (.chat (uuids.toText room.uuid) (uuids.toText sender.uuid) nickname text)⟩
  | .closed room reason => ⟨some (.roomClosed (uuids.toText room.uuid) reason)⟩

/-! ## Routing -/

/-- The handlers of `handlers.rs`. -/
inductive Handler where
  | bind
  | heartbeat
  | joinRoom
  | leaveRoom
  | roomChat
  | getProfile
  deriving DecidableEq, Repr

/-- `build_router`. -/
def buildRouter : List (UInt16 × Handler) :=
  [(opC2sBind, .bind), (opC2sHeartbeat, .heartbeat), (opC2sJoinRoom, .joinRoom), (opC2sLeaveRoom, .leaveRoom),
    (opC2sRoomChat, .roomChat), (opC2sGetProfile, .getProfile)]

/-- The handler that `Router::dispatch` calls. -/
def route (message : InboundMessage) : Except ProtocolError Handler :=
  match buildRouter.lookup message.opcode with
  | some handler => .ok handler
  | none => .error (.unsupportedOpcode message.opcode)

theorem exists_of_decoded {α : Type} {x : Except String α} {f : α → InboundMessage} {message : InboundMessage}
    (h : (x.mapError ProtocolError.decode |>.map f) = .ok message) : ∃ a, message = f a := by
  cases x with
  | error => cases h
  | ok a => exact ⟨a, (Except.ok.inj h).symm⟩

theorem decodeInbound_opcode {prost : Prost} {opcode : UInt16} {payload : List UInt8} {message : InboundMessage}
    (h : decodeInbound prost opcode payload = .ok message) : message.opcode = opcode := by
  unfold decodeInbound at h
  split_ifs at h with hbind hheartbeat hjoin hleave hchat hprofile
  all_goals first | obtain ⟨a, rfl⟩ := exists_of_decoded h | obtain rfl := Except.ok.inj h
  · exact hbind.symm
  · exact hheartbeat.symm
  · exact hjoin.symm
  · exact hleave.symm
  · exact hchat.symm
  · exact hprofile.symm
  · rfl

/-- Only a message with the opcode of `BIND` reaches `handle_bind`, and it reaches no other handler. -/
theorem route_bind {message : InboundMessage} {handler : Handler} (h : route message = .ok handler) :
    handler = .bind ↔ message.opcode = opC2sBind := by
  have htable : ∀ entry ∈ buildRouter, entry.2 = .bind ↔ entry.1 = opC2sBind := by decide
  unfold route at h
  split at h
  · next found hlookup =>
      obtain rfl := Except.ok.inj h
      obtain ⟨front, back, heq, -⟩ := List.lookup_eq_some_iff.mp hlookup
      exact htable (message.opcode, found) (by rw [heq]; simp)
  · cases h

end LongshipX.Protocol
