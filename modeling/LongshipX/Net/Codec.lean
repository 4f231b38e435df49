import LongshipX.Lib.BigEndian
import Mathlib.Data.List.TakeDrop

/-!
# `net-kit`: the length-prefixed frame codec

`[4-byte length, u32 BE][2-byte opcode][payload]`, the length counting the opcode and the payload but
not itself.

* `encodeFrame`, `decodeWireLen`, `readFrame` : `codec.rs`, over a byte stream that ends in a clean
  end of stream or in an I/O error;
* `readFrames k` : the results of `k` successive `readFrame` calls;
* `readFrame_wrapped` : what is read of an encoded frame, whatever its length;
* `readFrame_spec` : what one accepted frame consumed;
* `readFrames_encode` : the stream of encodings reads back;
* `Codec`, `sendAll`, `recvAll` : typed messages over it, and `recvAll_sendAll` : they arrive as they were sent.
-/

namespace LongshipX.Net
open BigEndian

/-- The kinds of `std::io::Error` that the network layer tells apart. -/
inductive IoErrorKind where
  | unexpectedEof
  | connectionReset
  | connectionAborted
  | brokenPipe
  | other
  deriving DecidableEq, Repr

/-- `NetError`. -/
inductive NetError where
  | io (kind : IoErrorKind)
  | tls (message : String)
  | tlsConfig (message : String)
  | frameTooLarge (declared max : Nat)
  | malformed (message : String)
  | queueFull
  | closed
  deriving DecidableEq, Repr

/-- `LENGTH_PREFIX_BYTES`. -/
def lengthPrefixBytes : Nat := 4

/-- `OPCODE_BYTES`. -/
def opcodeBytes : Nat := 2

/-- `MIN_FRAME_LEN`. -/
def minFrameLen : Nat := opcodeBytes

/-- A filled buffer of `n` bytes, `[u8; n]`. -/
abbrev Buf (n : Nat) := { bs : List UInt8 // bs.length = n }

/-- One frame on the wire, without its length prefix. -/
structure Frame where
  opcode : UInt16
  payload : List UInt8
  deriving DecidableEq, Repr

/-- The value of the length prefix: opcode and payload. -/
def Frame.wireLen (frame : Frame) : Nat := opcodeBytes + frame.payload.length

/-- `encode_frame`; `wire_len as u32` wraps. -/
def encodeFrame (frame : Frame) (maxFrameSize : Nat) : Except NetError (List UInt8) :=
  if frame.wireLen > maxFrameSize then .error (.frameTooLarge frame.wireLen maxFrameSize)
  else if frame.wireLen < minFrameLen then .error (.malformed "帧体必须包含 opcode")
  else .ok (toBE lengthPrefixBytes (UInt32.ofNat frame.wireLen).toNat ++
    toBE opcodeBytes frame.opcode.toNat ++ frame.payload)

/-- `decode_wire_len`. -/
def decodeWireLen (lengthPrefix : Buf lengthPrefixBytes) (maxFrameSize : Nat) : Except NetError Nat :=
  let declared := ofBE lengthPrefix.val
  if declared < minFrameLen then .error (.malformed s!"帧长 {declared} 小于最小值 {minFrameLen}")
  else if declared > maxFrameSize then .error (.frameTooLarge declared maxFrameSize)
  else .ok declared

/-- What a reader will still deliver: these bytes, then the end of the stream (`none`) or an I/O error. -/
structure ByteStream where
  bytes : List UInt8
  fault : Option IoErrorKind
  deriving DecidableEq, Repr

/-- `AsyncReadExt::read_exact`: all of the buffer, or the fault of the stream with every byte consumed. -/
def readExact (n : Nat) (s : ByteStream) : Except IoErrorKind (Buf n) × ByteStream :=
  if h : n ≤ s.bytes.length then
    (.ok ⟨s.bytes.take n, List.length_take_of_le h⟩, { s with bytes := s.bytes.drop n })
  else (.error (s.fault.getD .unexpectedEof), { s with bytes := [] })

/-- `read_frame`. -/
def readFrame (maxFrameSize : Nat) (s : ByteStream) : Except NetError (Option Frame) × ByteStream :=
  match readExact lengthPrefixBytes s with
  | (.error .unexpectedEof, s) => (.ok none, s)
  | (.error kind, s) => (.error (.io kind), s)
  | (.ok lengthPrefix, s) =>
    match decodeWireLen lengthPrefix maxFrameSize with
    | .error err => (.error err, s)
    | .ok wireLen =>
      match readExact opcodeBytes s with
      | (.error kind, s) => (.error (.io kind), s)
      | (.ok opcodeBuf, s) =>
        match readExact (wireLen - opcodeBytes) s with
        | (.error kind, s) => (.error (.io kind), s)
        | (.ok payload, s) => (.ok (some ⟨UInt16.ofNat (ofBE opcodeBuf.val), payload.val⟩), s)

/-- The results of `k` successive `read_frame` calls on one stream. -/
def readFrames (maxFrameSize : Nat) : Nat → ByteStream → List (Except NetError (Option Frame)) × ByteStream
  | 0, s => ([], s)
  | k + 1, s =>
    let first := readFrame maxFrameSize s
    let rest := readFrames maxFrameSize k first.2
    (first.1 :: rest.1, rest.2)

/-! ## Reading a known prefix -/

theorem readExact_append (n : Nat) (front back : List UInt8) (fault : Option IoErrorKind) (h : front.length = n) :
    readExact n ⟨front ++ back, fault⟩ = (.ok ⟨front, h⟩, ⟨back, fault⟩) := by
  subst h
  have hle : front.length ≤ (front ++ back).length := by simp
  unfold readExact
  rw [dif_pos hle]
  simp

theorem readExact_ok {n : Nat} {s s' : ByteStream} {buf : Buf n}
    (h : readExact n s = (.ok buf, s')) : s.bytes = buf.val ++ s'.bytes ∧ s'.fault = s.fault := by
  unfold readExact at h
  split at h
  · obtain ⟨hbuf, hrest⟩ := Prod.mk.inj h
    have hbuf' := Except.ok.inj hbuf
    subst hbuf' hrest
    exact ⟨(List.take_append_drop n s.bytes).symm, rfl⟩
  · cases (Prod.mk.inj h).1

theorem decodeWireLen_ok_iff {lengthPrefix : Buf lengthPrefixBytes} {maxFrameSize wireLen : Nat} :
    decodeWireLen lengthPrefix maxFrameSize = .ok wireLen ↔
      ofBE lengthPrefix.val = wireLen ∧ minFrameLen ≤ wireLen ∧ wireLen ≤ maxFrameSize := by
  unfold decodeWireLen
  dsimp only
  split_ifs with hmin hmax
  · simp only [false_iff]
    omega
  · simp only [false_iff]
    omega
  · simp only [Except.ok.injEq]
    omega

/-! ## Encoding -/

theorem wireLen_toUInt32 {frame : Frame} (h : frame.wireLen ≤ 2 ^ 32 - 1) :
    (UInt32.ofNat frame.wireLen).toNat = frame.wireLen := by
  rw [UInt32.toNat_ofNat']
  exact Nat.mod_eq_of_lt (by omega)

theorem ofBE_u32 (n : Nat) : ofBE (toBE lengthPrefixBytes (UInt32.ofNat n).toNat) = n % 2 ^ 32 := by
  rw [ofBE_toBE, UInt32.toNat_ofNat']
  exact Nat.mod_mod _ _

theorem opcode_roundtrip (opcode : UInt16) : UInt16.ofNat (ofBE (toBE opcodeBytes opcode.toNat)) = opcode := by
  have hlt : opcode.toNat < 256 ^ opcodeBytes := opcode.toNat_lt
  rw [ofBE_toBE, Nat.mod_eq_of_lt hlt, UInt16.ofNat_toNat]

theorem encodeFrame_ok {frame : Frame} {maxFrameSize : Nat} (h : frame.wireLen ≤ maxFrameSize) :
    encodeFrame frame maxFrameSize = .ok (toBE lengthPrefixBytes (UInt32.ofNat frame.wireLen).toNat ++
      toBE opcodeBytes frame.opcode.toNat ++ frame.payload) := by
  have hmin : ¬ frame.wireLen < minFrameLen := by
    unfold Frame.wireLen minFrameLen
    omega
  rw [encodeFrame, if_neg (by omega), if_neg hmin]

theorem wireLen_le_of_encodeFrame {frame : Frame} {maxFrameSize : Nat} {bytes : List UInt8}
    (henc : encodeFrame frame maxFrameSize = .ok bytes) : frame.wireLen ≤ maxFrameSize := by
  by_contra hgt
  rw [encodeFrame, if_pos (by omega)] at henc
  cases henc

theorem decodeWireLen_toBE {frame : Frame} {maxFrameSize : Nat} (hmax : frame.wireLen ≤ maxFrameSize)
    (h32 : frame.wireLen ≤ 2 ^ 32 - 1) :
    decodeWireLen ⟨toBE lengthPrefixBytes frame.wireLen, toBE_length _ _⟩ maxFrameSize = .ok frame.wireLen := by
  rw [decodeWireLen_ok_iff]
  refine ⟨?_, by unfold Frame.wireLen minFrameLen; omega, hmax⟩
  rw [ofBE_toBE]
  exact Nat.mod_eq_of_lt (by unfold lengthPrefixBytes; omega)

/-- What a reader makes of the prefix of any frame that was encoded: its length, modulo `2 ^ 32`. -/
theorem decodeWireLen_wrapped {frame : Frame} {maxFrameSize : Nat} (hmax : frame.wireLen ≤ maxFrameSize)
    (hmin : minFrameLen ≤ frame.wireLen % 2 ^ 32) :
    decodeWireLen ⟨toBE lengthPrefixBytes (UInt32.ofNat frame.wireLen).toNat, toBE_length _ _⟩ maxFrameSize =
      .ok (frame.wireLen % 2 ^ 32) := by
  rw [decodeWireLen_ok_iff]
  exact ⟨ofBE_u32 _, hmin, (Nat.mod_le _ _).trans hmax⟩

/-- **What is read of an encoded frame**: as much of the payload as the prefix counts. The rest of it stays in the
stream, in front of what follows. -/
theorem readFrame_wrapped {frame : Frame} {maxFrameSize : Nat} {bytes : List UInt8}
    (hmin : minFrameLen ≤ frame.wireLen % 2 ^ 32) (henc : encodeFrame frame maxFrameSize = .ok bytes)
    (back : List UInt8) (fault : Option IoErrorKind) :
    readFrame maxFrameSize ⟨bytes ++ back, fault⟩ =
      (.ok (some ⟨frame.opcode, frame.payload.take (frame.wireLen % 2 ^ 32 - opcodeBytes)⟩),
        ⟨frame.payload.drop (frame.wireLen % 2 ^ 32 - opcodeBytes) ++ back, fault⟩) := by
  have hmax := wireLen_le_of_encodeFrame henc
  rw [encodeFrame_ok hmax] at henc
  obtain rfl := Except.ok.inj henc
  have hcounted : (frame.payload.take (frame.wireLen % 2 ^ 32 - opcodeBytes)).length =
      frame.wireLen % 2 ^ 32 - opcodeBytes := by
    refine List.length_take_of_le ?_
    have hle := Nat.mod_le frame.wireLen (2 ^ 32)
    unfold Frame.wireLen at hle ⊢
    omega
  rw [readFrame, List.append_assoc, List.append_assoc, readExact_append _ _ _ _ (toBE_length _ _)]
  dsimp only
  rw [decodeWireLen_wrapped hmax hmin]
  dsimp only
  rw [readExact_append _ _ _ _ (toBE_length _ _)]
  dsimp only
  nth_rewrite 1 [← List.take_append_drop (frame.wireLen % 2 ^ 32 - opcodeBytes) frame.payload]
  rw [List.append_assoc, readExact_append _ _ _ _ hcounted]
  dsimp only
  rw [opcode_roundtrip]

theorem readFrame_encode {frame : Frame} {maxFrameSize : Nat} {bytes : List UInt8}
    (h32 : frame.wireLen ≤ 2 ^ 32 - 1) (henc : encodeFrame frame maxFrameSize = .ok bytes)
    (back : List UInt8) (fault : Option IoErrorKind) :
    readFrame maxFrameSize ⟨bytes ++ back, fault⟩ = (.ok (some frame), ⟨back, fault⟩) := by
  have hexact : frame.wireLen % 2 ^ 32 = frame.wireLen := Nat.mod_eq_of_lt (by omega)
  have hpayload : frame.wireLen - opcodeBytes = frame.payload.length := by
    unfold Frame.wireLen
    omega
  have hmin : minFrameLen ≤ frame.wireLen % 2 ^ 32 := by
    rw [hexact]
    unfold Frame.wireLen minFrameLen
    omega
  rw [readFrame_wrapped hmin henc, hexact, hpayload, List.take_length, List.drop_length, List.nil_append]

theorem mapM_encodeFrame {maxFrameSize : Nat} {frames : List Frame} (hmax : ∀ frame ∈ frames, frame.wireLen ≤ maxFrameSize) :
    ∃ chunks, frames.mapM (encodeFrame · maxFrameSize) = .ok chunks := by
  induction frames with
  | nil => exact ⟨[], rfl⟩
  | cons frame frames ih =>
      obtain ⟨rest, hrest⟩ := ih fun f hf => hmax f (List.mem_cons_of_mem _ hf)
      rw [List.mapM_cons, encodeFrame_ok (hmax frame List.mem_cons_self), hrest]
      exact ⟨_, rfl⟩

theorem mapM_encodeFrame_cons {maxFrameSize : Nat} {frame : Frame} {frames : List Frame} {chunks : List (List UInt8)}
    (henc : (frame :: frames).mapM (encodeFrame · maxFrameSize) = .ok chunks) :
    ∃ first rest, chunks = first :: rest ∧ encodeFrame frame maxFrameSize = .ok first ∧
      frames.mapM (encodeFrame · maxFrameSize) = .ok rest := by
  rw [List.mapM_cons] at henc
  cases hfirst : encodeFrame frame maxFrameSize with
  | error err =>
      rw [hfirst] at henc
      cases henc
  | ok first =>
      cases hrest : frames.mapM (encodeFrame · maxFrameSize) with
      | error err =>
          rw [hfirst, hrest] at henc
          cases henc
      | ok rest =>
          rw [hfirst, hrest] at henc
          exact ⟨first, rest, (Except.ok.inj henc).symm, rfl, rfl⟩

theorem readFrames_encode {maxFrameSize : Nat} :
    ∀ {frames : List Frame} {chunks : List (List UInt8)}, (∀ frame ∈ frames, frame.wireLen ≤ 2 ^ 32 - 1) →
      frames.mapM (encodeFrame · maxFrameSize) = .ok chunks →
      readFrames maxFrameSize (frames.length + 1) ⟨chunks.flatten, none⟩ =
        (frames.map (fun frame => .ok (some frame)) ++ [.ok none], ⟨[], none⟩)
  | [], chunks, _, henc => by
    rw [List.mapM_nil] at henc
    obtain rfl := Except.ok.inj henc
    rfl
  | frame :: frames, chunks, h32, henc => by
    obtain ⟨first, rest, rfl, hfirst, hrest⟩ := mapM_encodeFrame_cons henc
    have hread := readFrame_encode (h32 frame (by simp)) hfirst rest.flatten none
    have ih := readFrames_encode (fun f hf => h32 f (by simp [hf])) hrest
    rw [List.flatten_cons, List.length_cons, readFrames, hread]
    dsimp only
    rw [ih]
    rfl

/-- **Inversion**: an accepted frame was read prefix first, then opcode, then payload, and its length was declared. -/
theorem readFrame_ok {maxFrameSize : Nat} {s s' : ByteStream} {frame : Frame}
    (h : readFrame maxFrameSize s = (.ok (some frame), s')) :
    ∃ (lengthPrefix : Buf lengthPrefixBytes) (s₁ : ByteStream) (opcodeBuf : Buf opcodeBytes) (s₂ : ByteStream),
      readExact lengthPrefixBytes s = (.ok lengthPrefix, s₁) ∧ readExact opcodeBytes s₁ = (.ok opcodeBuf, s₂) ∧
      s₂.bytes = frame.payload ++ s'.bytes ∧ s'.fault = s₂.fault ∧ frame.opcode = UInt16.ofNat (ofBE opcodeBuf.val) ∧
      decodeWireLen lengthPrefix maxFrameSize = .ok frame.wireLen := by
  unfold readFrame at h
  split at h
  · cases (Prod.mk.inj h).1
  · cases (Prod.mk.inj h).1
  · next lengthPrefix s₁ hprefix =>
    split at h
    · cases (Prod.mk.inj h).1
    · next wireLen hlen =>
      split at h
      · cases (Prod.mk.inj h).1
      · next opcodeBuf s₂ hopcode =>
        split at h
        · cases (Prod.mk.inj h).1
        · next payload s₃ hpayload =>
          obtain ⟨hframe, rfl⟩ := Prod.mk.inj h
          obtain rfl := Option.some.inj (Except.ok.inj hframe)
          obtain ⟨hbytes, hfault⟩ := readExact_ok hpayload
          obtain ⟨-, hmin, -⟩ := decodeWireLen_ok_iff.mp hlen
          have hwire : (⟨UInt16.ofNat (ofBE opcodeBuf.val), payload.val⟩ : Frame).wireLen = wireLen := by
            unfold minFrameLen at hmin
            unfold Frame.wireLen
            rw [payload.property]
            omega
          refine ⟨lengthPrefix, s₁, opcodeBuf, s₂, hprefix, hopcode, hbytes, hfault, rfl, ?_⟩
          rw [hwire]
          exact hlen

theorem readFrame_fits {maxFrameSize : Nat} {s s' : ByteStream} {frame : Frame}
    (h : readFrame maxFrameSize s = (.ok (some frame), s')) : frame.wireLen ≤ 2 ^ 32 - 1 := by
  obtain ⟨lengthPrefix, -, -, -, -, -, -, -, -, hlen⟩ := readFrame_ok h
  obtain ⟨hvalue, -, -⟩ := decodeWireLen_ok_iff.mp hlen
  have hlt := ofBE_lt lengthPrefix.val
  rw [hvalue, lengthPrefix.property] at hlt
  have h32 : frame.wireLen < 2 ^ 32 := hlt
  omega

/-- **What an accepted frame consumed**: its own encoding, off the front of the stream. -/
theorem readFrame_spec {maxFrameSize : Nat} {s s' : ByteStream} {frame : Frame}
    (h : readFrame maxFrameSize s = (.ok (some frame), s')) :
    ∃ bytes, s.bytes = bytes ++ s'.bytes ∧ s'.fault = s.fault ∧ encodeFrame frame maxFrameSize = .ok bytes ∧
      bytes.length = lengthPrefixBytes + frame.wireLen ∧ frame.wireLen ≤ maxFrameSize := by
  have hfits := readFrame_fits h
  obtain ⟨lengthPrefix, s₁, opcodeBuf, s₂, hprefix, hopcode, hb₃, hf₃, hop, hlen⟩ := readFrame_ok h
  obtain ⟨hb₁, hf₁⟩ := readExact_ok hprefix
  obtain ⟨hb₂, hf₂⟩ := readExact_ok hopcode
  obtain ⟨hvalue, -, hmax⟩ := decodeWireLen_ok_iff.mp hlen
  have hpl := lengthPrefix.property
  have hol := opcodeBuf.property
  have hprefixBytes : toBE lengthPrefixBytes (UInt32.ofNat frame.wireLen).toNat = lengthPrefix.val := by
    rw [wireLen_toUInt32 hfits, ← hvalue]
    nth_rewrite 1 [← hpl]
    exact toBE_ofBE _
  have hopcodeBytes : toBE opcodeBytes frame.opcode.toNat = opcodeBuf.val := by
    have hlt := ofBE_lt opcodeBuf.val
    rw [hol] at hlt
    have h16 : ofBE opcodeBuf.val < 2 ^ 16 := hlt
    rw [hop, UInt16.toNat_ofNat', Nat.mod_eq_of_lt h16]
    nth_rewrite 1 [← hol]
    exact toBE_ofBE _
  refine ⟨lengthPrefix.val ++ opcodeBuf.val ++ frame.payload, ?_, ?_, ?_, ?_, hmax⟩
  · rw [hb₁, hb₂, hb₃, List.append_assoc, List.append_assoc]
  · rw [hf₃, hf₂, hf₁]
  · rw [encodeFrame_ok hmax, hprefixBytes, hopcodeBytes]
  · rw [List.length_append, List.length_append, hpl, hol, Nat.add_assoc]
    rfl

/-! ## Typed messages -/

/-- The trait `Codec`. -/
structure Codec (In Out Err : Type) where
  decode : Frame → Except Err In
  encode : Out → Except Err Frame

section
variable {In Out Err Out' Err' : Type}

/-- One message as bytes: `encode`, then `encode_frame`. -/
def Codec.send (codec : Codec In Out Err) (maxFrameSize : Nat) (message : Out) : Except (Err ⊕ NetError) (List UInt8) :=
  match codec.encode message with
  | .ok frame => (encodeFrame frame maxFrameSize).mapError .inr
  | .error err => .error (.inl err)

def Codec.sendAll (codec : Codec In Out Err) (maxFrameSize : Nat) : List Out → Except (Err ⊕ NetError) (List UInt8)
  | [] => .ok []
  | message :: messages =>
    match codec.send maxFrameSize message, codec.sendAll maxFrameSize messages with
    | .ok bytes, .ok rest => .ok (bytes ++ rest)
    | .error err, _ => .error err
    | .ok _, .error err => .error err

/-- The results of `k` successive `read_frame` calls, each frame decoded. -/
def Codec.recvAll (codec : Codec In Out Err) (maxFrameSize k : Nat) (s : ByteStream) :
    List (Except NetError (Option (Except Err In))) :=
  (readFrames maxFrameSize k s).1.map fun result => result.map fun frame => frame.map codec.decode

/-- **Messages arrive as they were sent**, in their order, if each is decoded to itself and its frame fits. -/
theorem Codec.recvAll_sendAll {sender : Codec In Out Err} {receiver : Codec Out Out' Err'} {maxFrameSize : Nat}
    {messages : List Out} (h : ∀ message ∈ messages, ∃ frame, sender.encode message = .ok frame ∧
      receiver.decode frame = .ok message ∧ frame.wireLen ≤ maxFrameSize ∧ frame.wireLen ≤ 2 ^ 32 - 1) :
    ∃ bytes, sender.sendAll maxFrameSize messages = .ok bytes ∧
      receiver.recvAll maxFrameSize (messages.length + 1) ⟨bytes, none⟩ =
        messages.map (fun message => .ok (some (.ok message))) ++ [.ok none] := by
  induction messages with
  | nil => exact ⟨[], rfl, rfl⟩
  | cons message messages ih =>
      obtain ⟨rest, hrest, hrecv⟩ := ih fun m hm => h m (List.mem_cons_of_mem _ hm)
      obtain ⟨frame, hencode, hdecode, hmax, h32⟩ := h message List.mem_cons_self
      obtain ⟨bytes, hbytes⟩ : ∃ bytes, encodeFrame frame maxFrameSize = .ok bytes := ⟨_, encodeFrame_ok hmax⟩
      have hread := readFrame_encode h32 hbytes rest none
      refine ⟨bytes ++ rest, ?_, ?_⟩
      · rw [sendAll, send, hencode, hrest]
        dsimp only
        rw [hbytes]
        rfl
      · unfold recvAll at hrecv ⊢
        rw [List.length_cons, readFrames, hread]
        dsimp only
        rw [List.map_cons, hrecv, List.map_cons, List.cons_append]
        simp only [Except.map, Option.map_some, hdecode]

end

/-- **The frame stream codec is a bijection.** Frames that fit the limit and the 32-bit prefix read back from
their concatenated encodings, then the stream ends; and a frame that was read encodes to exactly the bytes it
consumed, whose body has between 2 and `maxFrameSize` bytes. -/
theorem frame_stream_bijection (maxFrameSize : Nat) :
    (∀ frames : List Frame, (∀ frame ∈ frames, frame.wireLen ≤ maxFrameSize ∧ frame.wireLen ≤ 2 ^ 32 - 1) →
      ∃ chunks, frames.mapM (encodeFrame · maxFrameSize) = .ok chunks ∧
        readFrames maxFrameSize (frames.length + 1) ⟨chunks.flatten, none⟩ =
          (frames.map (fun frame => .ok (some frame)) ++ [.ok none], ⟨[], none⟩)) ∧
    (∀ (s s' : ByteStream) (frame : Frame), readFrame maxFrameSize s = (.ok (some frame), s') →
      ∃ n, s'.bytes = s.bytes.drop n ∧ n ≤ s.bytes.length ∧ s'.fault = s.fault ∧
        encodeFrame frame maxFrameSize = .ok (s.bytes.take n) ∧
        2 ≤ n - lengthPrefixBytes ∧ n - lengthPrefixBytes ≤ maxFrameSize) := by
  refine ⟨fun frames hfit => ?_, fun s s' frame hread => ?_⟩
  · obtain ⟨chunks, hchunks⟩ := mapM_encodeFrame fun frame hf => (hfit frame hf).1
    exact ⟨chunks, hchunks, readFrames_encode (fun frame hf => (hfit frame hf).2) hchunks⟩
  · obtain ⟨bytes, hbytes, hfault, henc, hlen, hmax⟩ := readFrame_spec hread
    have hwire : 2 ≤ frame.wireLen := by
      unfold Frame.wireLen opcodeBytes
      omega
    refine ⟨bytes.length, ?_, ?_, hfault, ?_, ?_, ?_⟩
    · rw [hbytes, List.drop_left]
    · rw [hbytes, List.length_append]
      omega
    · rw [hbytes, List.take_left]
      exact henc
    · omega
    · omega

theorem frame_stream_bijection_two_frames :
    ∃ chunks, [Frame.mk 1 [7], Frame.mk 2 []].mapM (encodeFrame · 8) = .ok chunks ∧
      readFrames 8 3 ⟨chunks.flatten, none⟩ =
        ([.ok (some ⟨1, [7]⟩), .ok (some ⟨2, []⟩), .ok none], ⟨[], none⟩) :=
  (frame_stream_bijection 8).1 [⟨1, [7]⟩, ⟨2, []⟩] (by decide)

end LongshipX.Net
