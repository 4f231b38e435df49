import LongshipX.Infrastructure.Config
import LongshipX.Net.Truncation

/-!
# The length prefix of long frames

`encode_frame` compares the length of a frame with the limit as a `usize`, and casts it to a `u32` after that. The limit is
any `usize` (`Infrastructure.every_limit_validated`), so that a frame can be encoded whose length its prefix cannot hold.

* `LengthKept` : the prefix holds the length; `encodeFrame_lengthKept_iff`, `length_kept_iff` : for which frames it does;
* `limit_keeps_length_iff` : under which limits it does for all frames;
* `read_back_iff` : the frames that read back.
-/

namespace LongshipX.Net
open BigEndian

section
variable {maxFrameSize : Nat} {frame : Frame} {bytes : List UInt8}

theorem encodeFrame_parts (henc : encodeFrame frame maxFrameSize = .ok bytes) :
    bytes.take lengthPrefixBytes = toBE lengthPrefixBytes (UInt32.ofNat frame.wireLen).toNat ∧
      (bytes.drop lengthPrefixBytes).length = frame.wireLen := by
  have hlength := encodeFrame_length henc
  constructor
  · rw [encodeFrame_ok (wireLen_le_of_encodeFrame henc)] at henc
    obtain rfl := Except.ok.inj henc
    rw [List.append_assoc]
    exact List.take_left' (toBE_length _ _)
  · rw [List.length_drop, hlength, Nat.add_sub_cancel_left]

theorem ofBE_prefix (henc : encodeFrame frame maxFrameSize = .ok bytes) :
    ofBE (bytes.take lengthPrefixBytes) = frame.wireLen % 2 ^ 32 := by
  rw [(encodeFrame_parts henc).1, ofBE_u32]

/-! ## The prefix -/

/-- The first four bytes count the bytes that follow, and `decode_wire_len` reads the length of the frame from them. -/
structure LengthKept (maxFrameSize : Nat) (frame : Frame) (bytes : List UInt8) : Prop where
  counts : ofBE (bytes.take lengthPrefixBytes) = (bytes.drop lengthPrefixBytes).length
  decoded : ∃ h : (bytes.take lengthPrefixBytes).length = lengthPrefixBytes,
    decodeWireLen ⟨bytes.take lengthPrefixBytes, h⟩ maxFrameSize = .ok frame.wireLen

theorem encodeFrame_lengthKept_iff (henc : encodeFrame frame maxFrameSize = .ok bytes) :
    LengthKept maxFrameSize frame bytes ↔ frame.wireLen < 2 ^ 32 := by
  have hvalue := ofBE_prefix henc
  constructor
  · rintro ⟨hcounts, -⟩
    rw [hvalue, (encodeFrame_parts henc).2] at hcounts
    rw [← hcounts]
    exact Nat.mod_lt _ (by decide)
  · intro hlt
    rw [Nat.mod_eq_of_lt hlt] at hvalue
    have hprefix : (bytes.take lengthPrefixBytes).length = lengthPrefixBytes := by
      rw [(encodeFrame_parts henc).1, toBE_length]
    have hmin : minFrameLen ≤ frame.wireLen := by
      unfold Frame.wireLen minFrameLen
      omega
    refine ⟨hvalue.trans (encodeFrame_parts henc).2.symm, hprefix, ?_⟩
    exact decodeWireLen_ok_iff.mpr ⟨hvalue, hmin, wireLen_le_of_encodeFrame henc⟩

end

/-- **The length prefix of a frame is not truncated exactly when its length fits a `u32`**, or the limit refuses it. -/
theorem length_kept_iff (maxFrameSize : Nat) (frame : Frame) :
    (∀ bytes, encodeFrame frame maxFrameSize = .ok bytes → LengthKept maxFrameSize frame bytes) ↔
      frame.wireLen < 2 ^ 32 ∨ maxFrameSize < frame.wireLen := by
  constructor
  · intro hkept
    rcases Nat.lt_or_ge maxFrameSize frame.wireLen with hrefused | hfits
    · exact Or.inr hrefused
    · exact Or.inl ((encodeFrame_lengthKept_iff (encodeFrame_ok hfits)).mp (hkept _ (encodeFrame_ok hfits)))
  · rintro (hlt | hrefused) bytes henc
    · exact (encodeFrame_lengthKept_iff henc).mpr hlt
    · exact absurd (wireLen_le_of_encodeFrame henc) (Nat.not_le.mpr hrefused)

def zeroFrame (n : Nat) : Frame := ⟨1, List.replicate n 0⟩

theorem wireLen_zeroFrame (n : Nat) : (zeroFrame n).wireLen = opcodeBytes + n := by
  rw [Frame.wireLen, zeroFrame, List.length_replicate]

/-- A payload of 4 GiB under the largest limit: the prefix says that two bytes follow. -/
theorem long_frame_truncated : ¬ ∀ maxFrameSize ≤ Infrastructure.usizeMax, ∀ (frame : Frame) (bytes : List UInt8),
    frame.payload.length < 2 ^ 63 → encodeFrame frame maxFrameSize = .ok bytes → LengthKept maxFrameSize frame bytes := by
  intro halways
  have hlen := wireLen_zeroFrame (2 ^ 32)
  have hfits : (zeroFrame (2 ^ 32)).wireLen ≤ Infrastructure.usizeMax := by
    rw [hlen]
    decide
  have hpayload : (zeroFrame (2 ^ 32)).payload.length < 2 ^ 63 := by
    rw [zeroFrame, List.length_replicate]
    decide
  have hkept := halways _ (Nat.le_refl _) _ _ hpayload (encodeFrame_ok hfits)
  have hlt := (encodeFrame_lengthKept_iff (encodeFrame_ok hfits)).mp hkept
  rw [hlen] at hlt
  exact absurd hlt (by decide)

/-! ## The limit -/

/-- **A limit keeps the prefix of every frame exactly when it is itself a `u32`.** -/
theorem limit_keeps_length_iff (maxFrameSize : Nat) :
    (∀ (frame : Frame) (bytes : List UInt8), encodeFrame frame maxFrameSize = .ok bytes →
      LengthKept maxFrameSize frame bytes) ↔ maxFrameSize < 2 ^ 32 := by
  constructor
  · intro hkept
    by_contra hge
    have hlen : (zeroFrame (2 ^ 32 - opcodeBytes)).wireLen = 2 ^ 32 := (wireLen_zeroFrame _).trans (by decide)
    have henc := encodeFrame_ok (hlen.trans_le (Nat.le_of_not_lt hge))
    have hlt := (encodeFrame_lengthKept_iff henc).mp (hkept _ _ henc)
    exact absurd hlen (Nat.ne_of_lt hlt)
  · intro hlt frame bytes henc
    exact (encodeFrame_lengthKept_iff henc).mpr ((wireLen_le_of_encodeFrame henc).trans_lt hlt)

/-! ## The other end -/

/-- **A frame reads back exactly when its length fits a `u32`**, whatever limit let it through. -/
theorem read_back_iff {maxFrameSize : Nat} {frame : Frame} {bytes : List UInt8}
    (henc : encodeFrame frame maxFrameSize = .ok bytes) (back : List UInt8) (fault : Option IoErrorKind) :
    readFrame maxFrameSize ⟨bytes ++ back, fault⟩ = (.ok (some frame), ⟨back, fault⟩) ↔ frame.wireLen < 2 ^ 32 := by
  constructor
  · intro hread
    have hfits := readFrame_fits hread
    omega
  · intro hlt
    exact readFrame_encode (by omega) henc back fault

end LongshipX.Net
