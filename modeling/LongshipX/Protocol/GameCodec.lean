import LongshipX.Protocol.Messages

/-!
# The two codecs

`GameCodec` and `ClientCodec` of `lib.rs`, with `encode_outbound` and `decode_outbound` of `messages.rs`: the server
reads what the client writes and the other way round. What `prost` generates for the message types of `game.proto` is
a parameter (`Generated`); that its `decode` inverts its `encode_to_vec` is `Generated.Inverts`.

* `encodeInbound`, `encodeOutbound`, `decodeOutbound`, `gameCodec`, `clientCodec`;
* `clientCodec_gameCodec`, `gameCodec_clientCodec` : one message, from its encoder to the decoder of the other side.
-/

namespace LongshipX.Protocol
open Net (Frame Codec)

def opS2cBindResult : UInt16 := 0x8001
def opS2cHeartbeatAck : UInt16 := 0x8002
def opS2cProfile : UInt16 := 0x8003
def opS2cRoomEvent : UInt16 := 0x8010
def opS2cError : UInt16 := 0x8011
def opS2cServerShutdown : UInt16 := 0x8012

/-- `prost::Message`, for one type. -/
structure Message (α : Type) where
  encodeToVec : α → List UInt8
  decode : List UInt8 → Except String α

/-- `decode` inverts `encode_to_vec`. -/
def Message.Inverts {α : Type} (m : Message α) : Prop := ∀ a, m.decode (m.encodeToVec a) = .ok a

/-- The module `generated`. -/
structure Generated where
  bindRequest : Message BindRequest
  heartbeatPing : Message HeartbeatPing
  joinRoomRequest : Message JoinRoomRequest
  leaveRoomRequest : Message LeaveRoomRequest
  roomChatRequest : Message RoomChatRequest
  getProfileRequest : Message GetProfileRequest
  bindResult : Message BindResult
  heartbeatAck : Message HeartbeatAck
  profileResponse : Message ProfileResponse
  roomEventNotification : Message RoomEventNotification
  errorNotification : Message ErrorNotification
  serverShutdownNotice : Message ServerShutdownNotice

namespace Generated

def prost (g : Generated) : Prost where
  bindRequest := g.bindRequest.decode
  heartbeatPing := g.heartbeatPing.decode
  joinRoomRequest := g.joinRoomRequest.decode
  leaveRoomRequest := g.leaveRoomRequest.decode
  roomChatRequest := g.roomChatRequest.decode
  getProfileRequest := g.getProfileRequest.decode

/-- For every message type `decode` inverts `encode_to_vec`. -/
structure Inverts (g : Generated) : Prop where
  bindRequest : g.bindRequest.Inverts
  heartbeatPing : g.heartbeatPing.Inverts
  joinRoomRequest : g.joinRoomRequest.Inverts
  leaveRoomRequest : g.leaveRoomRequest.Inverts
  roomChatRequest : g.roomChatRequest.Inverts
  getProfileRequest : g.getProfileRequest.Inverts
  bindResult : g.bindResult.Inverts
  heartbeatAck : g.heartbeatAck.Inverts
  profileResponse : g.profileResponse.Inverts
  roomEventNotification : g.roomEventNotification.Inverts
  errorNotification : g.errorNotification.Inverts
  serverShutdownNotice : g.serverShutdownNotice.Inverts

end Generated

variable (g : Generated)

/-- `encode_outbound`. -/
def encodeOutbound : OutboundMessage → Except ProtocolError (UInt16 × List UInt8)
  | .bindResult result => .ok (opS2cBindResult, g.bindResult.encodeToVec result)
  | .heartbeatAck ack => .ok (opS2cHeartbeatAck, g.heartbeatAck.encodeToVec ack)
  | .profile response => .ok (opS2cProfile, g.profileResponse.encodeToVec response)
  | .roomEvent notification => .ok (opS2cRoomEvent, g.roomEventNotification.encodeToVec notification)
  | .error notification => .ok (opS2cError, g.errorNotification.encodeToVec notification)
  | .shutdown notice => .ok (opS2cServerShutdown, g.serverShutdownNotice.encodeToVec notice)

/-- `decode_outbound`. -/
def decodeOutbound (opcode : UInt16) (payload : List UInt8) : Except ProtocolError OutboundMessage :=
  if opcode = opS2cBindResult then (g.bindResult.decode payload).mapError .decode |>.map .bindResult
  else if opcode = opS2cHeartbeatAck then (g.heartbeatAck.decode payload).mapError .decode |>.map .heartbeatAck
  else if opcode = opS2cProfile then (g.profileResponse.decode payload).mapError .decode |>.map .profile
  else if opcode = opS2cRoomEvent then (g.roomEventNotification.decode payload).mapError .decode |>.map .roomEvent
  else if opcode = opS2cError then (g.errorNotification.decode payload).mapError .decode |>.map .error
  else if opcode = opS2cServerShutdown then (g.serverShutdownNotice.decode payload).mapError .decode |>.map .shutdown
  else .error (.unsupportedOpcode opcode)

/-- The `match` of `ClientCodec::encode`. -/
def encodeInbound : InboundMessage → Except ProtocolError (UInt16 × List UInt8)
  | .bind request => .ok (opC2sBind, g.bindRequest.encodeToVec request)
  | .heartbeat ping => .ok (opC2sHeartbeat, g.heartbeatPing.encodeToVec ping)
  | .joinRoom request => .ok (opC2sJoinRoom, g.joinRoomRequest.encodeToVec request)
  | .leaveRoom request => .ok (opC2sLeaveRoom, g.leaveRoomRequest.encodeToVec request)
  | .roomChat request => .ok (opC2sRoomChat, g.roomChatRequest.encodeToVec request)
  | .getProfile request => .ok (opC2sGetProfile, g.getProfileRequest.encodeToVec request)
  | .unknown opcode => .error (.unsupportedOpcode opcode)

/-- `GameCodec`, the codec of the server. -/
def gameCodec : Codec InboundMessage OutboundMessage ProtocolError where
  decode frame := decode g.prost frame
  encode message := (encodeOutbound g message).map fun x => ⟨x.1, x.2⟩

/-- `ClientCodec`. -/
def clientCodec : Codec OutboundMessage InboundMessage ProtocolError where
  decode frame := decodeOutbound g frame.opcode frame.payload
  encode message := (encodeInbound g message).map fun x => ⟨x.1, x.2⟩

variable {g}

theorem Message.Inverts.decoded {α β : Type} {m : Message α} (h : m.Inverts) (tag : α → β) (a : α) :
    ((m.decode (m.encodeToVec a)).mapError ProtocolError.decode |>.map tag) = .ok (tag a) := by
  rw [h a]
  rfl

/-- **The server reads what the client wrote**; only `Unknown` is not written. -/
theorem clientCodec_gameCodec (h : g.Inverts) {message : InboundMessage} (hknown : ∀ opcode, message ≠ .unknown opcode) :
    ∃ frame, (clientCodec g).encode message = .ok frame ∧ (gameCodec g).decode frame = .ok message := by
  cases message with
  | bind request => exact ⟨_, rfl, h.bindRequest.decoded InboundMessage.bind request⟩
  | heartbeat ping => exact ⟨_, rfl, h.heartbeatPing.decoded InboundMessage.heartbeat ping⟩
  | joinRoom request => exact ⟨_, rfl, h.joinRoomRequest.decoded InboundMessage.joinRoom request⟩
  | leaveRoom request => exact ⟨_, rfl, h.leaveRoomRequest.decoded InboundMessage.leaveRoom request⟩
  | roomChat request => exact ⟨_, rfl, h.roomChatRequest.decoded InboundMessage.roomChat request⟩
  | getProfile request => exact ⟨_, rfl, h.getProfileRequest.decoded InboundMessage.getProfile request⟩
  | unknown opcode => exact absurd rfl (hknown opcode)

/-- **The client reads what the server wrote.** -/
theorem gameCodec_clientCodec (h : g.Inverts) (message : OutboundMessage) :
    ∃ frame, (gameCodec g).encode message = .ok frame ∧ (clientCodec g).decode frame = .ok message := by
  cases message with
  | bindResult result => exact ⟨_, rfl, h.bindResult.decoded OutboundMessage.bindResult result⟩
  | heartbeatAck ack => exact ⟨_, rfl, h.heartbeatAck.decoded OutboundMessage.heartbeatAck ack⟩
  | profile response => exact ⟨_, rfl, h.profileResponse.decoded OutboundMessage.profile response⟩
  | roomEvent notification => exact ⟨_, rfl, h.roomEventNotification.decoded OutboundMessage.roomEvent notification⟩
  | error notification => exact ⟨_, rfl, h.errorNotification.decoded OutboundMessage.error notification⟩
  | shutdown notice => exact ⟨_, rfl, h.serverShutdownNotice.decoded OutboundMessage.shutdown notice⟩

end LongshipX.Protocol
