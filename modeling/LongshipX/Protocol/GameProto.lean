import LongshipX.Lib.Protobuf
import LongshipX.Protocol.GameCodec

/-!
# The messages of `game.proto` on the wire

The message types of `game.proto` with their field numbers, in the protobuf format, as code generated from it writes and
reads them: a field with its default value is not written unless it is `optional`, a field that a message does not have
is skipped, and one of a wrong wire type is an error.

* `gameProto` : the message types;
* `gameProto_inverts` : each decoder inverts its encoder.
-/

namespace LongshipX.Protocol
open Protobuf

/-! ## Reading a field -/

/-- A `string`. -/
def asText : Value → Option String
  | .bytes bs => ofUtf8 bs
  | .number _ => none

def asNumber : Value → Option Nat
  | .number n => some n
  | .bytes _ => none

/-- An `int64` is written as the `u64` with the same bits. -/
def int64Bits (n : Int64) : Nat := n.toUInt64.toNat

def ofInt64Bits (n : Nat) : Int64 := (UInt64.ofNat n).toInt64

@[simp] theorem asText_utf8 (s : String) : asText (.bytes (utf8 s)) = some s := ofUtf8_utf8 s

@[simp] theorem asNumber_number (n : Nat) : asNumber (.number n) = some n := rfl

@[simp] theorem ofInt64Bits_int64Bits (n : Int64) : ofInt64Bits (int64Bits n) = n := by
  unfold ofInt64Bits int64Bits
  rw [UInt64.ofNat_toNat, Int64.toInt64_toUInt64]

/-! ## Message types -/

/-- `encode_to_vec` and `decode` of a message type. -/
def message {α : Type} (schema : Schema α) : Message α where
  encodeToVec := schema.encode
  decode bytes := match schema.decode bytes with
    | some a => .ok a
    | none => .error "failed to decode Protobuf message"

def Reads {α : Type} (schema : Schema α) : Prop :=
  ∀ a, (schema.fields a).foldlM schema.merge schema.empty = some a

theorem Reads.inverts {α : Type} {schema : Schema α} (h : Reads schema) : (message schema).Inverts := by
  intro a
  unfold message
  dsimp only
  rw [schema.decode_encode (h a)]

section
variable {α : Type}

/-- A message with one `string`. -/
def oneText (mk : String → α) (get : α → String) : Schema α where
  fields a := text 1 (get a)
  empty := mk ""
  merge a field := if field.number = 1 then (asText field.value).map mk else some a

/-- A message with one `optional string`. -/
def oneOptionalText (mk : Option String → α) (get : α → Option String) : Schema α where
  fields a := optionalText 1 (get a)
  empty := mk none
  merge a field := if field.number = 1 then (asText field.value).map fun s => mk (some s) else some a

/-- A message with one `int64`. -/
def oneInt64 (mk : Int64 → α) (get : α → Int64) : Schema α where
  fields a := scalar 1 (int64Bits (get a))
  empty := mk 0
  merge a field := if field.number = 1 then (asNumber field.value).map fun n => mk (ofInt64Bits n) else some a

theorem oneText_reads {mk : String → α} {get : α → String} (h : ∀ a, mk (get a) = a) : Reads (oneText mk get) := by
  intro a
  have hread := foldlM_text (oneText mk get).merge 1 mk (by simp [oneText]) (get a)
  rwa [h] at hread

theorem oneOptionalText_reads {mk : Option String → α} {get : α → Option String} (h : ∀ a, mk (get a) = a) :
    Reads (oneOptionalText mk get) := by
  intro a
  have hread := foldlM_optionalText (oneOptionalText mk get).merge 1 mk (by simp [oneOptionalText]) (get a)
  rwa [h] at hread

theorem oneInt64_reads {mk : Int64 → α} {get : α → Int64} (h : ∀ a, mk (get a) = a) : Reads (oneInt64 mk get) := by
  intro a
  have hread := foldlM_scalar (oneInt64 mk get).merge 1 (fun n => mk (ofInt64Bits n)) (by simp [oneInt64])
    (int64Bits (get a))
  rwa [ofInt64Bits_int64Bits, h] at hread

end

def getProfileRequestSchema : Schema GetProfileRequest where
  fields _ := []
  empty := ⟨⟩
  merge request _ := some request

def bindResultSchema : Schema BindResult where
  fields result := scalar 1 result.ok.toNat ++ (optionalText 2 result.playerId ++ (optionalText 3 result.nickname ++
    optionalText 4 result.error))
  empty := ⟨false, none, none, none⟩
  merge result field := match field.number with
    | 1 => (asNumber field.value).map fun n => { result with ok := n != 0 }
    | 2 => (asText field.value).map fun s => { result with playerId := some s }
    | 3 => (asText field.value).map fun s => { result with nickname := some s }
    | 4 => (asText field.value).map fun s => { result with error := some s }
    | _ => some result

@[simp] theorem toNat_bne_zero (b : Bool) : (b.toNat != 0) = b := by cases b <;> rfl

theorem bindResultSchema_reads : Reads bindResultSchema := by
  rintro ⟨ok, playerId, nickname, error⟩
  have hok := foldlM_scalar bindResultSchema.merge 1 (fun n => ⟨n != 0, none, none, none⟩)
    (by simp [bindResultSchema]) ok.toNat
  have hplayerId := foldlM_optionalText bindResultSchema.merge 2 (fun s => ⟨ok, s, none, none⟩)
    (by simp [bindResultSchema]) playerId
  have hnickname := foldlM_optionalText bindResultSchema.merge 3 (fun s => ⟨ok, playerId, s, none⟩)
    (by simp [bindResultSchema]) nickname
  have herror := foldlM_optionalText bindResultSchema.merge 4 (fun s => ⟨ok, playerId, nickname, s⟩)
    (by simp [bindResultSchema]) error
  rw [toNat_bne_zero] at hok
  exact foldlM_then hok (foldlM_then hplayerId (foldlM_then hnickname herror))

def profileResponseSchema : Schema ProfileResponse where
  fields response := scalar 1 response.ok.toNat ++ (optionalText 2 response.playerId ++
    (optionalText 3 response.nickname ++ (optionalScalar 4 (response.level.map UInt32.toNat) ++
    (optionalScalar 5 (response.exp.map UInt64.toNat) ++ (optionalScalar 6 (response.lastLoginAtMs.map int64Bits) ++
    optionalText 7 response.error)))))
  empty := ⟨false, none, none, none, none, none, none⟩
  merge response field := match field.number with
    | 1 => (asNumber field.value).map fun n => { response with ok := n != 0 }
    | 2 => (asText field.value).map fun s => { response with playerId := some s }
    | 3 => (asText field.value).map fun s => { response with nickname := some s }
    | 4 => (asNumber field.value).map fun n => { response with level := some (.ofNat n) }
    | 5 => (asNumber field.value).map fun n => { response with exp := some (.ofNat n) }
    | 6 => (asNumber field.value).map fun n => { response with lastLoginAtMs := some (ofInt64Bits n) }
    | 7 => (asText field.value).map fun s => { response with error := some s }
    | _ => some response

theorem profileResponseSchema_reads : Reads profileResponseSchema := by
  rintro ⟨ok, playerId, nickname, level, exp, lastLoginAtMs, error⟩
  have hok := foldlM_scalar profileResponseSchema.merge 1 (fun n => ⟨n != 0, none, none, none, none, none, none⟩)
    (by simp [profileResponseSchema]) ok.toNat
  have hplayerId := foldlM_optionalText profileResponseSchema.merge 2 (fun s => ⟨ok, s, none, none, none, none, none⟩)
    (by simp [profileResponseSchema]) playerId
  have hnickname := foldlM_optionalText profileResponseSchema.merge 3
    (fun s => ⟨ok, playerId, s, none, none, none, none⟩) (by simp [profileResponseSchema]) nickname
  have hlevel := foldlM_optionalScalar profileResponseSchema.merge 4
    (fun n => ⟨ok, playerId, nickname, n.map UInt32.ofNat, none, none, none⟩) (by simp [profileResponseSchema])
    (level.map UInt32.toNat)
  have hexp := foldlM_optionalScalar profileResponseSchema.merge 5
    (fun n => ⟨ok, playerId, nickname, level, n.map UInt64.ofNat, none, none⟩) (by simp [profileResponseSchema])
    (exp.map UInt64.toNat)
  have hlast := foldlM_optionalScalar profileResponseSchema.merge 6
    (fun n => ⟨ok, playerId, nickname, level, exp, n.map ofInt64Bits, none⟩) (by simp [profileResponseSchema])
    (lastLoginAtMs.map int64Bits)
  have herror := foldlM_optionalText profileResponseSchema.merge 7
    (fun s => ⟨ok, playerId, nickname, level, exp, lastLoginAtMs, s⟩) (by simp [profileResponseSchema]) error
  rw [toNat_bne_zero] at hok
  simp only [Option.map_map, Function.comp_def, UInt32.ofNat_toNat, UInt64.ofNat_toNat, ofInt64Bits_int64Bits,
    Option.map_id', Option.map_none] at hlevel hexp hlast
  exact foldlM_then hok (foldlM_then hplayerId (foldlM_then hnickname (foldlM_then hlevel (foldlM_then hexp
    (foldlM_then hlast herror)))))

def errorNotificationSchema : Schema ErrorNotification where
  fields notification := scalar 1 notification.code.toNat ++ text 2 notification.message
  empty := ⟨0, ""⟩
  merge notification field := match field.number with
    | 1 => (asNumber field.value).map fun n => { notification with code := .ofNat n }
    | 2 => (asText field.value).map fun s => { notification with message := s }
    | _ => some notification

theorem errorNotificationSchema_reads : Reads errorNotificationSchema := by
  rintro ⟨code, message⟩
  have hcode := foldlM_scalar errorNotificationSchema.merge 1 (fun n => ⟨.ofNat n, ""⟩)
    (by simp [errorNotificationSchema]) code.toNat
  have hmessage := foldlM_text errorNotificationSchema.merge 2 (fun s => ⟨code, s⟩)
    (by simp [errorNotificationSchema]) message
  rw [UInt32.ofNat_toNat] at hcode
  exact foldlM_then hcode hmessage

/-! ## The `oneof` of `RoomEventNotification` -/

/-- The four texts that a room event can have, in the order of their field numbers; what it does not have is empty. -/
def eventSchema : Schema (String × String × String × String) where
  fields texts := text 1 texts.1 ++ (text 2 texts.2.1 ++ (text 3 texts.2.2.1 ++ text 4 texts.2.2.2))
  empty := ("", "", "", "")
  merge texts field := match field.number with
    | 1 => (asText field.value).map fun s => (s, texts.2.1, texts.2.2.1, texts.2.2.2)
    | 2 => (asText field.value).map fun s => (texts.1, s, texts.2.2.1, texts.2.2.2)
    | 3 => (asText field.value).map fun s => (texts.1, texts.2.1, s, texts.2.2.2)
    | 4 => (asText field.value).map fun s => (texts.1, texts.2.1, texts.2.2.1, s)
    | _ => some texts

theorem eventSchema_reads : Reads eventSchema := by
  rintro ⟨first, second, third, fourth⟩
  have hfirst := foldlM_text eventSchema.merge 1 (fun s => (s, "", "", "")) (by simp [eventSchema]) first
  have hsecond := foldlM_text eventSchema.merge 2 (fun s => (first, s, "", "")) (by simp [eventSchema]) second
  have hthird := foldlM_text eventSchema.merge 3 (fun s => (first, second, s, "")) (by simp [eventSchema]) third
  have hfourth := foldlM_text eventSchema.merge 4 (fun s => (first, second, third, s)) (by simp [eventSchema]) fourth
  exact foldlM_then hfirst (foldlM_then hsecond (foldlM_then hthird hfourth))

def eventFields : NotifiedEvent → Nat × (String × String × String × String)
  | .memberJoined roomId playerId nickname => (1, roomId, playerId, nickname, "")
  | .memberLeft roomId playerId => (2, roomId, playerId, "", "")
  | .chat roomId senderId senderNickname text => (3, roomId, senderId, senderNickname, text)
  | .roomClosed roomId reason => (4, roomId, reason, "", "")

def eventOf (number : Nat) (texts : String × String × String × String) : Option NotifiedEvent :=
  match number with
  | 1 => some (.memberJoined texts.1 texts.2.1 texts.2.2.1)
  | 2 => some (.memberLeft texts.1 texts.2.1)
  | 3 => some (.chat texts.1 texts.2.1 texts.2.2.1 texts.2.2.2)
  | 4 => some (.roomClosed texts.1 texts.2.1)
  | _ => none

def asEvent : Value → Option (String × String × String × String)
  | .bytes bs => eventSchema.decode bs
  | .number _ => none

def roomEventNotificationSchema : Schema RoomEventNotification where
  fields notification := notification.event.toList.map fun event =>
    ⟨(eventFields event).1, .bytes (eventSchema.encode (eventFields event).2)⟩
  empty := ⟨none⟩
  merge notification field :=
    if 1 ≤ field.number ∧ field.number ≤ 4 then
      (asEvent field.value).map fun texts => ⟨eventOf field.number texts⟩
    else some notification

theorem eventOf_eventFields (event : NotifiedEvent) :
    (1 ≤ (eventFields event).1 ∧ (eventFields event).1 ≤ 4) ∧
      eventOf (eventFields event).1 (eventFields event).2 = some event := by
  cases event <;> simp [eventFields, eventOf]

theorem roomEventNotificationSchema_reads : Reads roomEventNotificationSchema := by
  rintro ⟨_ | event⟩
  · rfl
  · obtain ⟨hnumber, hevent⟩ := eventOf_eventFields event
    have hdecode := eventSchema.decode_encode (eventSchema_reads (eventFields event).2)
    simp [roomEventNotificationSchema, asEvent, hnumber, hdecode, hevent]

/-! ## All of them -/

/-- The message types of `game.proto`. -/
def gameProto : Generated where
  bindRequest := message (oneText .mk BindRequest.token)
  heartbeatPing := message (oneInt64 .mk HeartbeatPing.clientTsMs)
  joinRoomRequest := message (oneOptionalText .mk JoinRoomRequest.roomId)
  leaveRoomRequest := message (oneOptionalText .mk LeaveRoomRequest.roomId)
  roomChatRequest := message (oneText .mk RoomChatRequest.text)
  getProfileRequest := message getProfileRequestSchema
  bindResult := message bindResultSchema
  heartbeatAck := message (oneInt64 .mk HeartbeatAck.serverTsMs)
  profileResponse := message profileResponseSchema
  roomEventNotification := message roomEventNotificationSchema
  errorNotification := message errorNotificationSchema
  serverShutdownNotice := message (oneText .mk ServerShutdownNotice.message)

/-- **Every message of `game.proto` reads back.** -/
theorem gameProto_inverts : gameProto.Inverts where
  bindRequest := (oneText_reads fun _ => rfl).inverts
  heartbeatPing := (oneInt64_reads fun _ => rfl).inverts
  joinRoomRequest := (oneOptionalText_reads fun _ => rfl).inverts
  leaveRoomRequest := (oneOptionalText_reads fun _ => rfl).inverts
  roomChatRequest := (oneText_reads fun _ => rfl).inverts
  getProfileRequest _ := rfl
  bindResult := bindResultSchema_reads.inverts
  heartbeatAck := (oneInt64_reads fun _ => rfl).inverts
  profileResponse := profileResponseSchema_reads.inverts
  roomEventNotification := roomEventNotificationSchema_reads.inverts
  errorNotification := errorNotificationSchema_reads.inverts
  serverShutdownNotice := (oneText_reads fun _ => rfl).inverts

example : gameProto.roomChatRequest.encodeToVec ⟨"你好"⟩ = [0x0a, 6, 0xe4, 0xbd, 0xa0, 0xe5, 0xa5, 0xbd] := by decide +kernel

end LongshipX.Protocol
