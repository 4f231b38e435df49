import LongshipX.Gateway.Dispatch
import LongshipX.Protocol.GameProto

/-!
# The message pipeline, end to end

A client encodes messages, frames them and writes them one after the other; the server reads the frames, decodes them
and dispatches each message. The same for what the server sends.

* `message_pipeline` : every message arrives, in its order, and reaches the handler that is meant for it.
-/

namespace LongshipX.Pipeline
open Protocol Dispatch
open Net (Frame)

/-- **Messages survive the pipeline in both directions.** If `prost` decodes what it encodes, every list of messages
other than `Unknown` whose frames fit arrives at the server as it was sent, and each message reaches its own handler;
whatever frame the server decodes, no handler gets a message of another kind, and `UnsupportedOpcode` is the answer
exactly to the frames whose opcode has no handler; and every list of messages of the server whose frames fit arrives at
the client as it was sent. -/
theorem message_pipeline (g : Generated) (hprost : g.Inverts) (maxFrameSize : Nat) :
    (∀ messages : List InboundMessage,
      (∀ message ∈ messages, (∀ opcode, message ≠ .unknown opcode) ∧ ∀ frame, (clientCodec g).encode message = .ok frame →
        frame.wireLen ≤ maxFrameSize ∧ frame.wireLen ≤ 2 ^ 32 - 1) →
      (∃ bytes, (clientCodec g).sendAll maxFrameSize messages = .ok bytes ∧
        (gameCodec g).recvAll maxFrameSize (messages.length + 1) ⟨bytes, none⟩ =
          messages.map (fun message => .ok (some (.ok message))) ++ [.ok none]) ∧
      ∀ message ∈ messages, ∀ ctx, buildRouter.dispatch ctx message = ctx.handled message) ∧
    (∀ frame : Frame,
      (frame.opcode ∉ routedOpcodes → (gameCodec g).decode frame = .ok (.unknown frame.opcode)) ∧
      ∀ message, (gameCodec g).decode frame = .ok message → ∀ ctx,
        buildRouter.dispatch ctx message = ctx.handled message ∧
        ∀ opcode, (buildRouter.dispatch ctx message).2 = .error (.unsupportedOpcode opcode) ↔
          opcode = frame.opcode ∧ frame.opcode ∉ routedOpcodes) ∧
    (∀ messages : List OutboundMessage,
      (∀ message ∈ messages, ∀ frame, (gameCodec g).encode message = .ok frame →
        frame.wireLen ≤ maxFrameSize ∧ frame.wireLen ≤ 2 ^ 32 - 1) →
      ∃ bytes, (gameCodec g).sendAll maxFrameSize messages = .ok bytes ∧
        (clientCodec g).recvAll maxFrameSize (messages.length + 1) ⟨bytes, none⟩ =
          messages.map (fun message => .ok (some (.ok message))) ++ [.ok none]) := by
  refine ⟨fun messages h => ⟨?_, fun message hmem ctx => ?_⟩, fun frame => ⟨?_, fun message hdecode ctx => ?_⟩,
    fun messages h => ?_⟩
  · refine Net.Codec.recvAll_sendAll fun message hmem => ?_
    obtain ⟨hknown, hfits⟩ := h message hmem
    obtain ⟨frame, hencode, hdecode⟩ := clientCodec_gameCodec hprost hknown
    exact ⟨frame, hencode, hdecode, hfits frame hencode⟩
  · exact dispatch_known ctx (h message hmem).1
  · exact decodeInbound_unrouted
  · exact ⟨dispatch_decoded ctx hdecode, unsupported_iff ctx hdecode⟩
  · refine Net.Codec.recvAll_sendAll fun message hmem => ?_
    obtain ⟨frame, hencode, hdecode⟩ := gameCodec_clientCodec hprost message
    exact ⟨frame, hencode, hdecode, h message hmem frame hencode⟩

theorem fits {In Out Err : Type} {codec : Net.Codec In Out Err} {message : Out} {frame : Frame} {maxFrameSize : Nat}
    (hencode : codec.encode message = .ok frame)
    (h : frame.wireLen ≤ maxFrameSize ∧ frame.wireLen ≤ 2 ^ 32 - 1) (frame' : Frame)
    (hencode' : codec.encode message = .ok frame') : frame'.wireLen ≤ maxFrameSize ∧ frame'.wireLen ≤ 2 ^ 32 - 1 := by
  obtain rfl := Except.ok.inj (hencode.symm.trans hencode')
  exact h

/-- One message of each kind, both ways, in the wire format of `game.proto`. -/
theorem message_pipeline_each_kind :
    (∃ bytes, (clientCodec gameProto).sendAll 64 [.bind ⟨"tok"⟩, .heartbeat ⟨42⟩, .joinRoom ⟨some "r"⟩, .leaveRoom ⟨none⟩,
        .roomChat ⟨"你好"⟩, .getProfile ⟨⟩] = .ok bytes ∧
      (gameCodec gameProto).recvAll 64 7 ⟨bytes, none⟩ =
        [.ok (some (.ok (.bind ⟨"tok"⟩))), .ok (some (.ok (.heartbeat ⟨42⟩))), .ok (some (.ok (.joinRoom ⟨some "r"⟩))),
          .ok (some (.ok (.leaveRoom ⟨none⟩))), .ok (some (.ok (.roomChat ⟨"你好"⟩))), .ok (some (.ok (.getProfile ⟨⟩))),
          .ok none]) ∧
    ∃ bytes, (gameCodec gameProto).sendAll 64 [.bindResult ⟨true, some "p", none, none⟩, .heartbeatAck ⟨-1⟩,
        .profile ⟨true, none, none, some 2, some 300, none, none⟩, .roomEvent ⟨some (.memberLeft "r" "p")⟩,
        .roomEvent ⟨none⟩, .error ⟨1, "m"⟩, .shutdown ⟨"bye"⟩] = .ok bytes ∧
      (clientCodec gameProto).recvAll 64 8 ⟨bytes, none⟩ =
        [.ok (some (.ok (.bindResult ⟨true, some "p", none, none⟩))), .ok (some (.ok (.heartbeatAck ⟨-1⟩))),
          .ok (some (.ok (.profile ⟨true, none, none, some 2, some 300, none, none⟩))),
          .ok (some (.ok (.roomEvent ⟨some (.memberLeft "r" "p")⟩))), .ok (some (.ok (.roomEvent ⟨none⟩))),
          .ok (some (.ok (.error ⟨1, "m"⟩))), .ok (some (.ok (.shutdown ⟨"bye"⟩))), .ok none] := by
  have hpipeline := message_pipeline gameProto gameProto_inverts 64
  refine ⟨(hpipeline.1 _ ?_).1, hpipeline.2.2 _ ?_⟩
  · simp only [List.forall_mem_cons]
    refine ⟨⟨by simp, fits rfl (by decide +kernel)⟩, ⟨by simp, fits rfl (by decide +kernel)⟩,
      ⟨by simp, fits rfl (by decide +kernel)⟩, ⟨by simp, fits rfl (by decide +kernel)⟩,
      ⟨by simp, fits rfl (by decide +kernel)⟩, ⟨by simp, fits rfl (by decide +kernel)⟩, by simp⟩
  · simp only [List.forall_mem_cons]
    refine ⟨fits rfl (by decide +kernel), fits rfl (by decide +kernel), fits rfl (by decide +kernel),
      fits rfl (by decide +kernel), fits rfl (by decide +kernel), fits rfl (by decide +kernel),
      fits rfl (by decide +kernel), by simp⟩

end LongshipX.Pipeline
