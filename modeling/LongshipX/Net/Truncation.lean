import LongshipX.Net.Codec

/-!
# Streams that are cut off

What `read_frame` makes of a stream of encoded frames that ends after `k` bytes. Within a length prefix the end of the
stream looks like the clean close before it: `read_exact` fails with `UnexpectedEof` for both.

* `boundary` : where the encodings begin and end;
* `readFrame_cut` : a frame whose encoding is cut; `readFrames_cut` : a stream of them;
* `truncation_detected_iff` : the cut is noticed unless it falls within a length prefix.
-/

namespace LongshipX.Net
open BigEndian

/-- Where the encoding of frame `i` begins, and that of the frame before it ends. -/
def boundary (frames : List Frame) (i : Nat) : Nat :=
  ((frames.take i).map fun frame => lengthPrefixBytes + frame.wireLen).sum

section
variable {maxFrameSize k : Nat} {frame : Frame} {frames : List Frame} {bytes : List UInt8}

@[simp] theorem boundary_zero (frames : List Frame) : boundary frames 0 = 0 := by simp [boundary]

@[simp] theorem boundary_cons (frame : Frame) (frames : List Frame) (i : Nat) :
    boundary (frame :: frames) (i + 1) = lengthPrefixBytes + frame.wireLen + boundary frames i := by
  simp [boundary]

/-! ## One frame -/

theorem readExact_short {n : Nat} {s : ByteStream} (h : s.bytes.length < n) :
    readExact n s = (.error (s.fault.getD .unexpectedEof), { s with bytes := [] }) := by
  rw [readExact, dif_neg (Nat.not_le.mpr h)]

theorem encodeFrame_length (henc : encodeFrame frame maxFrameSize = .ok bytes) :
    bytes.length = lengthPrefixBytes + frame.wireLen := by
  rw [encodeFrame_ok (wireLen_le_of_encodeFrame henc)] at henc
  obtain rfl := Except.ok.inj henc
  simp only [List.length_append, toBE_length, Frame.wireLen]
  omega

/-- **A frame that is cut off**: an error, or within the length prefix a clean close. -/
theorem readFrame_cut (h32 : frame.wireLen ≤ 2 ^ 32 - 1)
    (henc : encodeFrame frame maxFrameSize = .ok bytes) (hcut : k < bytes.length) :
    (readFrame maxFrameSize ⟨bytes.take k, none⟩).1 =
      if k < lengthPrefixBytes then .ok none else .error (.io .unexpectedEof) := by
  have hlength := encodeFrame_length henc
  have hmax := wireLen_le_of_encodeFrame henc
  rw [encodeFrame_ok hmax, wireLen_toUInt32 h32] at henc
  obtain rfl := Except.ok.inj henc
  rw [readFrame]
  split_ifs with hprefix
  · rw [readExact_short (by rw [List.length_take]; omega)]
    rfl
  · have hlen := decodeWireLen_toBE hmax h32
    have hfront : (toBE lengthPrefixBytes frame.wireLen).take k = toBE lengthPrefixBytes frame.wireLen :=
      List.take_of_length_le (by rw [toBE_length]; omega)
    rw [List.append_assoc, List.take_append, hfront, readExact_append _ _ _ _ (toBE_length _ _)]
    dsimp only
    rw [hlen]
    dsimp only
    by_cases hopcode : k < lengthPrefixBytes + opcodeBytes
    · rw [readExact_short (by simp only [List.length_take, toBE_length]; omega)]
      rfl
    · have hcode : (toBE opcodeBytes frame.opcode.toNat).take (k - (toBE lengthPrefixBytes frame.wireLen).length) =
          toBE opcodeBytes frame.opcode.toNat := by
        refine List.take_of_length_le ?_
        rw [toBE_length, toBE_length]
        omega
      rw [List.take_append, hcode, readExact_append _ _ _ _ (toBE_length _ _)]
      dsimp only
      rw [readExact_short]
      · rfl
      · simp only [List.length_take, toBE_length]
        unfold Frame.wireLen at hlength ⊢
        simp only [List.length_append, toBE_length] at hcut
        omega

/-! ## A stream of frames -/

theorem flatten_length {chunks : List (List UInt8)} (henc : frames.mapM (encodeFrame · maxFrameSize) = .ok chunks) :
    chunks.flatten.length = boundary frames frames.length := by
  induction frames generalizing chunks with
  | nil =>
      obtain rfl := Except.ok.inj henc
      rfl
  | cons frame frames ih =>
      obtain ⟨first, rest, rfl, hfirst, hrest⟩ := mapM_encodeFrame_cons henc
      rw [List.flatten_cons, List.length_append, List.length_cons, boundary_cons, encodeFrame_length hfirst, ih hrest]

theorem boundary_succ {i : Nat} (hi : i < frames.length) :
    boundary frames i + lengthPrefixBytes + opcodeBytes ≤ boundary frames (i + 1) := by
  induction frames generalizing i with
  | nil => cases hi
  | cons frame frames ih =>
      cases i with
      | zero =>
          rw [boundary_cons, boundary_zero, boundary_zero]
          unfold Frame.wireLen
          omega
      | succ i =>
          have hrest := ih (Nat.lt_of_succ_lt_succ hi)
          rw [boundary_cons, boundary_cons]
          omega

/-- The first `m` encodings are those that lie within the first `k` bytes. -/
def Whole (frames : List Frame) (k m : Nat) : Prop :=
  m ≤ frames.length ∧ ∀ i < frames.length, i < m ↔ boundary frames (i + 1) ≤ k

/-- **A stream that is cut off**: the whole frames, then the end of the stream as `readFrame_cut` says. -/
theorem readFrames_cut (h32 : ∀ frame ∈ frames, frame.wireLen ≤ 2 ^ 32 - 1) {chunks : List (List UInt8)}
    (henc : frames.mapM (encodeFrame · maxFrameSize) = .ok chunks) (hk : k ≤ chunks.flatten.length) :
    ∃ m, Whole frames k m ∧ boundary frames m ≤ k ∧
      (readFrames maxFrameSize (m + 1) ⟨chunks.flatten.take k, none⟩).1 =
        (frames.take m).map (fun frame => .ok (some frame)) ++
          [if k - boundary frames m < lengthPrefixBytes then .ok none else .error (.io .unexpectedEof)] := by
  induction frames generalizing chunks k with
  | nil =>
      obtain rfl := Except.ok.inj henc
      obtain rfl : k = 0 := Nat.le_zero.mp hk
      exact ⟨0, ⟨Nat.le_refl 0, fun i hi => by cases hi⟩, Nat.le_refl 0, rfl⟩
  | cons frame frames ih =>
      obtain ⟨first, rest, rfl, hfirst, hrest⟩ := mapM_encodeFrame_cons henc
      have hlength := encodeFrame_length hfirst
      have h32' := h32 frame List.mem_cons_self
      rw [List.flatten_cons] at hk ⊢
      rw [List.length_append] at hk
      by_cases hcut : k < first.length
      · refine ⟨0, ⟨Nat.zero_le _, fun i _ => ?_⟩, by simp, ?_⟩
        · rw [boundary_cons]
          omega
        · rw [List.take_append_of_le_length hcut.le, boundary_zero, Nat.sub_zero, List.take_zero, List.map_nil,
            List.nil_append, ← readFrame_cut h32' hfirst hcut]
          rfl
      · obtain ⟨m, ⟨hm, hwhole⟩, hle, hread⟩ :=
          ih (fun f hf => h32 f (List.mem_cons_of_mem _ hf)) hrest (k := k - first.length) (by omega)
        refine ⟨m + 1, ⟨Nat.succ_le_succ hm, fun i hi => ?_⟩, by rw [boundary_cons]; omega, ?_⟩
        · rw [boundary_cons]
          cases i with
          | zero =>
              rw [boundary_zero]
              omega
          | succ i =>
              have hiff := hwhole i (Nat.lt_of_succ_lt_succ hi)
              omega
        · have htake : (first ++ rest.flatten).take k = first ++ rest.flatten.take (k - first.length) := by
            rw [List.take_append, List.take_of_length_le (Nat.le_of_not_lt hcut)]
          have hsame : k - boundary (frame :: frames) (m + 1) = k - first.length - boundary frames m := by
            rw [boundary_cons]
            omega
          rw [htake, readFrames, readFrame_encode h32' hfirst, hsame]
          dsimp only
          rw [hread]
          rfl

/-- The cut falls on a frame boundary: after some of the frames, before the first byte of a next one. -/
def OnBoundary (frames : List Frame) (k : Nat) : Prop := ∃ i ≤ frames.length, k = boundary frames i

/-- The cut falls within the length prefix of a frame. -/
def InPrefix (frames : List Frame) (k : Nat) : Prop :=
  ∃ i < frames.length, boundary frames i < k ∧ k < boundary frames i + lengthPrefixBytes

/-- The cut after `k` bytes is noticed: the frames that are there are read, and then `Ok(None)` on a frame boundary and
an error everywhere else. -/
def TruncationDetected (maxFrameSize : Nat) (frames : List Frame) (bytes : List UInt8) (k : Nat) : Prop :=
  ∃ m last, Whole frames k m ∧
    (readFrames maxFrameSize (m + 1) ⟨bytes.take k, none⟩).1 = (frames.take m).map (fun frame => .ok (some frame)) ++ [last] ∧
    (last = .ok none ↔ OnBoundary frames k) ∧ (¬ OnBoundary frames k → ∃ err, last = .error err)

theorem Whole.unique {m m' : Nat} (h : Whole frames k m) (h' : Whole frames k m') : m = m' := by
  by_contra hne
  rcases Nat.lt_or_gt_of_ne hne with hlt | hgt
  · have hi : m < frames.length := by have := h'.1; omega
    have := (h.2 m hi).trans (h'.2 m hi).symm
    omega
  · have hi : m' < frames.length := by have := h.1; omega
    have := (h.2 m' hi).trans (h'.2 m' hi).symm
    omega

theorem Whole.le_of_boundary {m i : Nat} (h : Whole frames k m) (hi : i ≤ frames.length) (hle : boundary frames i ≤ k) :
    i ≤ m := by
  cases i with
  | zero => exact Nat.zero_le m
  | succ i => exact (h.2 i hi).mpr hle

theorem Whole.onBoundary_iff {m : Nat} (h : Whole frames k m) : OnBoundary frames k ↔ k = boundary frames m := by
  constructor
  · rintro ⟨i, hi, rfl⟩
    have hle := h.le_of_boundary hi (Nat.le_refl _)
    rcases Nat.lt_or_eq_of_le hle with hlt | rfl
    · have hi' : i < frames.length := hlt.trans_le h.1
      have hnext := (h.2 i hi').mp hlt
      have hgap := boundary_succ hi'
      unfold lengthPrefixBytes at hgap
      omega
    · rfl
  · exact fun heq => ⟨m, h.1, heq⟩

theorem Whole.inPrefix_iff {m : Nat} (h : Whole frames k m) (hk : k ≤ boundary frames frames.length) :
    InPrefix frames k ↔ boundary frames m < k ∧ k < boundary frames m + lengthPrefixBytes := by
  constructor
  · rintro ⟨i, hi, hlow, hhigh⟩
    have hle := h.le_of_boundary hi.le hlow.le
    rcases Nat.lt_or_eq_of_le hle with hlt | rfl
    · have hnext := (h.2 i hi).mp hlt
      have hgap := boundary_succ hi
      omega
    · exact ⟨hlow, hhigh⟩
  · rintro ⟨hlow, hhigh⟩
    have hm : m < frames.length := by
      refine lt_of_le_of_ne h.1 ?_
      rintro rfl
      omega
    exact ⟨m, hm, hlow, hhigh⟩

/-- **A cut is noticed unless it falls within a length prefix**: for all frames that fit and every cut of their stream. -/
theorem truncation_detected_iff (maxFrameSize : Nat) (frames : List Frame)
    (hfits : ∀ frame ∈ frames, frame.wireLen ≤ maxFrameSize ∧ frame.wireLen ≤ 2 ^ 32 - 1) :
    ∃ chunks, frames.mapM (encodeFrame · maxFrameSize) = .ok chunks ∧ ∀ k ≤ chunks.flatten.length,
      (TruncationDetected maxFrameSize frames chunks.flatten k ↔ ¬ InPrefix frames k) := by
  obtain ⟨chunks, henc⟩ := mapM_encodeFrame fun frame hframe => (hfits frame hframe).1
  refine ⟨chunks, henc, fun k hk => ?_⟩
  obtain ⟨m, hwhole, hle, hread⟩ := readFrames_cut (fun frame hframe => (hfits frame hframe).2) henc hk
  rw [flatten_length henc] at hk
  rw [hwhole.inPrefix_iff hk]
  constructor
  · rintro ⟨m', last, hwhole', hread', hnone, -⟩ ⟨hlow, hhigh⟩
    obtain rfl := hwhole.unique hwhole'
    rw [hread, if_pos (by omega)] at hread'
    obtain rfl := List.singleton_inj.mp (List.append_cancel_left hread')
    have hboundary := hwhole.onBoundary_iff.mp (hnone.mp rfl)
    omega
  · intro houtside
    refine ⟨m, _, hwhole, hread, ?_⟩
    rw [hwhole.onBoundary_iff]
    split_ifs with hnear
    · have heq : k = boundary frames m := by omega
      exact ⟨iff_of_true rfl heq, fun hne => absurd heq hne⟩
    · have hne : k ≠ boundary frames m := by
        unfold lengthPrefixBytes at hnear
        omega
      exact ⟨iff_of_false (fun h => by cases h) hne, fun _ => ⟨_, rfl⟩⟩

/-- The second of two frames is cut in its payload. -/
theorem truncation_detected_in_payload : ∃ chunks,
    [(⟨1, []⟩ : Frame), ⟨2, [7, 8]⟩].mapM (encodeFrame · 64) = .ok chunks ∧
      TruncationDetected 64 [⟨1, []⟩, ⟨2, [7, 8]⟩] chunks.flatten 13 := by
  obtain ⟨chunks, henc, hdetected⟩ := truncation_detected_iff 64 [⟨1, []⟩, ⟨2, [7, 8]⟩] (by decide)
  refine ⟨chunks, henc, (hdetected 13 ?_).mpr ?_⟩
  · rw [flatten_length henc]
    decide
  · unfold InPrefix
    decide

/-- A stream that ends after two bytes of a length prefix reads as a clean close. -/
theorem cut_prefix_unnoticed : ∃ chunks, [(⟨1, []⟩ : Frame)].mapM (encodeFrame · 64) = .ok chunks ∧
    2 ≤ chunks.flatten.length ∧ ¬ TruncationDetected 64 [⟨1, []⟩] chunks.flatten 2 := by
  refine ⟨[[0, 0, 0, 2, 0, 1]], by decide, by decide, ?_⟩
  rintro ⟨m, last, ⟨hm, hwhole⟩, hread, hnone, -⟩
  have hfirst : 0 < m ↔ 6 ≤ 2 := hwhole 0 (by decide)
  obtain rfl : m = 0 := by omega
  have hlast : [Except.ok none] = [last] := hread
  obtain rfl := List.singleton_inj.mp hlast
  obtain ⟨i, hi, hboundary⟩ := hnone.mp rfl
  have hnot : ∀ i ≤ [(⟨1, []⟩ : Frame)].length, 2 ≠ boundary [⟨1, []⟩] i := by decide
  exact hnot i hi hboundary

end

end LongshipX.Net
