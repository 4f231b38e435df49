import LongshipX.Lib.Transition
import LongshipX.Net.Backpressure

/-!
# One connection's outbound side

`split_connection` and `write_task` of `connection.rs`: any number of clones of the `OutboundSender` on one side, the
writer task on the other, one atomic step at a time.

* `Connection.step` : a clone sends, disconnects or is dropped; the writer takes a frame, the socket accepts some bytes,
  fails, the writer is told to stop, drains, is cut off by its deadline or aborted;
* `wire` : what the writer would put on the socket for a list of frames;
* `Connection.Inv` : the socket, the frame in hand and the queue spell what was accepted;
* `readFrames_wire` : what a peer reads from a part of that is a front part of the frames.
-/

namespace LongshipX.Net

/-- `ConnectionConfig`; that the drain timeout has passed is a step. -/
structure ConnectionConfig where
  maxFrameSize : Nat
  sendQueueCapacity : Nat
  deriving DecidableEq, Repr

/-- Where `write_task` waits: for a frame, or for the socket to take the rest of one (then to flush it). -/
inductive Work where
  | receiving
  | writing (rest : List UInt8)
  deriving DecidableEq, Repr

/-- Where the spawned task is: in its `select!`, in the drain with a timeout, or over. -/
inductive WriterPhase where
  | selecting
  | draining
  | ended
  deriving DecidableEq, Repr

/-- What the clones did, with the answers they got. -/
inductive SenderEvent where
  | trySendFrame (clone : Nat) (frame : Frame) (result : Except NetError Unit)
  | disconnect (clone : Nat)

/-- A connection's outbound side. `clones` says which clones of the sender are alive; `history` and `socket` only grow. -/
structure Connection where
  outbound : OutboundSender Frame
  clones : List Bool
  history : List SenderEvent
  work : Work
  writer : WriterPhase
  socket : List UInt8

inductive ConnectionLabel where
  | clone (k : Nat)
  | trySendFrame (k : Nat) (frame : Frame)
  | disconnect (k : Nat)
  | dropSender (k : Nat)
  | recv
  | write (n : Nat)
  | flush
  | ioError
  | finish
  | signal
  | deadline
  | abort
  deriving DecidableEq, Repr

namespace Connection

/-- `split_connection`. -/
def split (config : ConnectionConfig) : Connection where
  outbound := .new config.sendQueueCapacity
  clones := [true]
  history := []
  work := .receiving
  writer := .selecting
  socket := []

def alive (c : Connection) (k : Nat) : Bool := c.clones[k]? == some true

/-- The last `OutboundSender` is gone. -/
def sendersDropped (c : Connection) : Bool := c.clones.all fun live => !live

/-- The task is over; `write_task` and with it the receiver of the queue are dropped. -/
def stop (c : Connection) : Connection :=
  { c with writer := .ended, outbound := { c.outbound with tx := c.outbound.tx.dropReceiver } }

/-- One turn of `write_task`'s loop up to the socket: a frame that does not encode is skipped. -/
def take (config : ConnectionConfig) (c : Connection) (frame : Frame) (tx : Channel Frame) : Connection :=
  { c with
    outbound := { c.outbound with tx := tx }
    work := match encodeFrame frame config.maxFrameSize with
      | .ok bytes => .writing bytes
      | .error _ => .receiving }

/-- What `wait_for` on the disconnect flag tells the `select!`: the flag was set, and the writer stops where it is, or
the senders are gone, and it drains. -/
def onSignal (c : Connection) : Option Connection :=
  if c.outbound.disconnected then some c.stop
  else if c.sendersDropped then some { c with writer := .draining }
  else none

def step (config : ConnectionConfig) (c : Connection) : ConnectionLabel → Option Connection
  | .clone k => if c.alive k then some { c with clones := c.clones ++ [true] } else none
  | .trySendFrame k frame =>
    if c.alive k then
      let sent := c.outbound.trySendFrame frame
      some { c with outbound := sent.2, history := c.history ++ [.trySendFrame k frame sent.1] }
    else none
  | .disconnect k =>
    if c.alive k then some { c with outbound := c.outbound.disconnect, history := c.history ++ [.disconnect k] }
    else none
  | .dropSender k => if c.alive k then some { c with clones := c.clones.set k false } else none
  | .recv =>
    match c.writer, c.work, c.outbound.tx.recv with
    | .ended, _, _ => none
    | _, .receiving, some (frame, tx) => some (c.take config frame tx)
    | _, _, _ => none
  | .write n =>
    match c.writer, c.work with
    | .ended, _ => none
    | _, .writing rest =>
      if 0 < n ∧ n ≤ rest.length then some { c with socket := c.socket ++ rest.take n, work := .writing (rest.drop n) }
      else none
    | _, .receiving => none
  | .flush =>
    match c.writer, c.work with
    | .ended, _ => none
    | _, .writing [] => some { c with work := .receiving }
    | _, _ => none
  | .ioError =>
    match c.writer, c.work with
    | .ended, _ => none
    | _, .writing _ => some c.stop
    | _, .receiving => none
  | .finish =>
    -- `recv` gives `None`: no sender is left and the queue is empty
    match c.writer, c.work with
    | .ended, _ => none
    | _, .receiving => if c.sendersDropped ∧ c.outbound.tx.queue = [] then some c.stop else none
    | _, .writing _ => none
  | .signal =>
    match c.writer with
    | .selecting => c.onSignal
    | _ => none
  | .deadline =>
    match c.writer with
    | .draining => some c.stop
    | _ => none
  | .abort =>
    match c.writer with
    | .ended => none
    | _ => some c.stop

/-- **What a step can do**, by label. -/
inductive Moved (config : ConnectionConfig) (c : Connection) : ConnectionLabel → Connection → Prop
  | clone {k : Nat} (h : c.alive k = true) : Moved config c (.clone k) { c with clones := c.clones ++ [true] }
  | trySendFrame {k : Nat} {frame : Frame} (h : c.alive k = true) {sent : Except NetError Unit × OutboundSender Frame}
      (hsent : c.outbound.trySendFrame frame = sent) : Moved config c (.trySendFrame k frame)
        { c with outbound := sent.2, history := c.history ++ [.trySendFrame k frame sent.1] }
  | disconnect {k : Nat} (h : c.alive k = true) : Moved config c (.disconnect k)
      { c with outbound := c.outbound.disconnect, history := c.history ++ [.disconnect k] }
  | dropSender {k : Nat} (h : c.alive k = true) : Moved config c (.dropSender k) { c with clones := c.clones.set k false }
  | recv {frame : Frame} {tx : Channel Frame} (hlive : c.writer ≠ .ended) (hwork : c.work = .receiving)
      (h : c.outbound.tx.recv = some (frame, tx)) : Moved config c .recv (c.take config frame tx)
  | write {n : Nat} {rest : List UInt8} (hlive : c.writer ≠ .ended) (hwork : c.work = .writing rest) (hpos : 0 < n)
      (hle : n ≤ rest.length) : Moved config c (.write n)
        { c with socket := c.socket ++ rest.take n, work := .writing (rest.drop n) }
  | flush (hlive : c.writer ≠ .ended) (hwork : c.work = .writing []) : Moved config c .flush { c with work := .receiving }
  | ioError {rest : List UInt8} (hlive : c.writer ≠ .ended) (hwork : c.work = .writing rest) :
      Moved config c .ioError c.stop
  | finish (hlive : c.writer ≠ .ended) (hwork : c.work = .receiving) (hdropped : c.sendersDropped = true)
      (hempty : c.outbound.tx.queue = []) : Moved config c .finish c.stop
  | cancel (hwriter : c.writer = .selecting) (h : c.outbound.disconnected = true) : Moved config c .signal c.stop
  | drain (hwriter : c.writer = .selecting) (h : c.outbound.disconnected = false) (hdropped : c.sendersDropped = true) :
      Moved config c .signal { c with writer := .draining }
  | deadline (hwriter : c.writer = .draining) : Moved config c .deadline c.stop
  | abort (hlive : c.writer ≠ .ended) : Moved config c .abort c.stop

theorem step_moved {config : ConnectionConfig} {c c' : Connection} {label : ConnectionLabel}
    (h : c.step config label = some c') : Moved config c label c' := by
  cases label with
  | clone k | disconnect k | dropSender k =>
      obtain ⟨halive, heq⟩ := Option.ite_none_right_eq_some.mp h
      obtain rfl := Option.some.inj heq
      constructor
      exact halive
  | trySendFrame k frame =>
      obtain ⟨halive, heq⟩ := Option.ite_none_right_eq_some.mp h
      obtain rfl := Option.some.inj heq
      exact .trySendFrame halive rfl
  | recv =>
      simp only [step] at h
      split at h
      · cases h
      · next hwork hrecv hlive =>
        obtain rfl := Option.some.inj h
        exact .recv hlive hwork hrecv
      · cases h
  | write n =>
      simp only [step] at h
      split at h
      · cases h
      · next hwork hlive =>
        obtain ⟨hn, heq⟩ := Option.ite_none_right_eq_some.mp h
        obtain rfl := Option.some.inj heq
        exact .write hlive hwork hn.1 hn.2
      · cases h
  | flush =>
      simp only [step] at h
      split at h
      · cases h
      · next hwork hlive =>
        obtain rfl := Option.some.inj h
        exact .flush hlive hwork
      · cases h
  | ioError =>
      simp only [step] at h
      split at h
      · cases h
      · next hwork hlive =>
        obtain rfl := Option.some.inj h
        exact .ioError hlive hwork
      · cases h
  | finish =>
      simp only [step] at h
      split at h
      · cases h
      · next hwork hlive =>
        obtain ⟨⟨hdropped, hempty⟩, heq⟩ := Option.ite_none_right_eq_some.mp h
        obtain rfl := Option.some.inj heq
        exact .finish hlive hwork hdropped hempty
      · cases h
  | signal =>
      simp only [step] at h
      split at h
      · next hwriter =>
        unfold onSignal at h
        split_ifs at h with hflag hdropped
        · obtain rfl := Option.some.inj h
          exact .cancel hwriter hflag
        · obtain rfl := Option.some.inj h
          exact .drain hwriter (by simpa using hflag) hdropped
      · cases h
  | deadline =>
      simp only [step] at h
      split at h
      · next hwriter =>
        obtain rfl := Option.some.inj h
        exact .deadline hwriter
      · cases h
  | abort =>
      simp only [step] at h
      split at h
      · cases h
      · next hlive =>
        obtain rfl := Option.some.inj h
        exact .abort hlive

/-- The system of one connection. -/
def system (config : ConnectionConfig) : TransitionSystem Connection ConnectionLabel where
  init := split config
  step := step config

end Connection

/-! ## What is accepted, and how it looks on the wire -/

/-- The frames whose `try_send_frame` returned `Ok`, in the order of the calls. -/
def accepted (history : List SenderEvent) : List Frame :=
  history.filterMap fun
    | .trySendFrame _ frame (.ok ()) => some frame
    | _ => none

/-- The frames that `encode_frame` does not reject. -/
def encodable (maxFrameSize : Nat) (frames : List Frame) : List Frame :=
  frames.filter fun frame => (encodeFrame frame maxFrameSize).isOk

/-- The concatenated encodings, leaving out the frames that `encode_frame` rejects. -/
def wire (maxFrameSize : Nat) (frames : List Frame) : List UInt8 :=
  (frames.filterMap fun frame => (encodeFrame frame maxFrameSize).toOption).flatten

/-- The frames of a peer's successive `read_frame` calls, up to the first call that gives none. -/
def framesRead (maxFrameSize : Nat) : Nat → ByteStream → List Frame
  | 0, _ => []
  | k + 1, s =>
    match readFrame maxFrameSize s with
    | (.ok (some frame), s') => frame :: framesRead maxFrameSize k s'
    | _ => []

/-! ## Reading a part of the wire -/

theorem accepted_concat (history : List SenderEvent) (event : SenderEvent) :
    accepted (history ++ [event]) = accepted history ++ accepted [event] := List.filterMap_append

theorem mem_accepted_trySendFrame {k : Nat} {f frame : Frame} {result : Except NetError Unit}
    (h : f ∈ accepted [.trySendFrame k frame result]) : f = frame := by
  cases result with
  | ok => exact List.mem_singleton.mp h
  | error err => cases h

theorem wire_append (maxFrameSize : Nat) (front back : List Frame) :
    wire maxFrameSize (front ++ back) = wire maxFrameSize front ++ wire maxFrameSize back := by
  simp only [wire, List.filterMap_append, List.flatten_append]

theorem wire_ok {maxFrameSize : Nat} {frame : Frame} {bytes : List UInt8}
    (h : encodeFrame frame maxFrameSize = .ok bytes) (frames : List Frame) :
    wire maxFrameSize (frame :: frames) = bytes ++ wire maxFrameSize frames := by
  simp [wire, h, Except.toOption]

theorem wire_error {maxFrameSize : Nat} {frame : Frame} {err : NetError}
    (h : encodeFrame frame maxFrameSize = .error err) (frames : List Frame) :
    wire maxFrameSize (frame :: frames) = wire maxFrameSize frames := by
  simp [wire, h, Except.toOption]

theorem wire_encodable (maxFrameSize : Nat) (frames : List Frame) :
    wire maxFrameSize (encodable maxFrameSize frames) = wire maxFrameSize frames := by
  induction frames with
  | nil => rfl
  | cons frame frames ih =>
      unfold encodable at ih ⊢
      cases h : encodeFrame frame maxFrameSize with
      | ok bytes => rw [List.filter_cons_of_pos (by rw [h]; rfl), wire_ok h, wire_ok h, ih]
      | error err => rw [List.filter_cons_of_neg (by rw [h]; simp [Except.isOk, Except.toBool]), wire_error h, ih]

theorem encodeFrame_mono {frame : Frame} {limit limit' : Nat} {bytes : List UInt8}
    (h : encodeFrame frame limit = .ok bytes) (hle : limit ≤ limit') : encodeFrame frame limit' = .ok bytes := by
  have hfits : frame.wireLen ≤ limit := by
    by_contra hgt
    rw [encodeFrame, if_pos (by omega)] at h
    cases h
  rw [encodeFrame_ok hfits] at h
  rw [encodeFrame_ok (by omega)]
  exact h

theorem encodeFrame_unique {f g : Frame} {limit limit' : Nat} {fb gb frest grest : List UInt8}
    (hf : encodeFrame f limit = .ok fb) (hg : encodeFrame g limit' = .ok gb) (hf32 : f.wireLen ≤ 2 ^ 32 - 1)
    (hg32 : g.wireLen ≤ 2 ^ 32 - 1) (heq : gb ++ grest = fb ++ frest) : g = f ∧ grest = frest := by
  have hreadf := readFrame_encode hf32 (encodeFrame_mono hf (Nat.le_max_left limit limit')) frest none
  have hreadg := readFrame_encode hg32 (encodeFrame_mono hg (Nat.le_max_right limit limit')) grest none
  rw [heq, hreadf] at hreadg
  obtain ⟨hframe, hrest⟩ := Prod.mk.inj hreadg
  refine ⟨?_, ?_⟩
  · simpa using hframe.symm
  · simpa using hrest.symm

/-- **What a peer reads** from a front part of the wire is a front part of the frames, whatever its own limit is and
however its stream ends. -/
theorem framesRead_wire (maxFrameSize limit k : Nat) {frames : List Frame}
    (henc : ∀ frame ∈ frames, ∃ bytes, encodeFrame frame maxFrameSize = .ok bytes)
    (h32 : ∀ frame ∈ frames, frame.wireLen ≤ 2 ^ 32 - 1) {s : ByteStream} (hs : s.bytes <+: wire maxFrameSize frames) :
    framesRead limit k s <+: frames := by
  induction k generalizing s frames with
  | zero => exact List.nil_prefix
  | succ k ih =>
      unfold framesRead
      split
      · next frame s' hread =>
        obtain ⟨gb, hbytes, -, hg, hlen, -⟩ := readFrame_spec hread
        obtain ⟨tail, htail⟩ := hs
        cases frames with
        | nil =>
            rw [hbytes, List.append_assoc] at htail
            obtain ⟨rfl, -⟩ := List.append_eq_nil_iff.mp htail
            rw [List.length_nil, lengthPrefixBytes] at hlen
            omega
        | cons f frames =>
            obtain ⟨fb, hf⟩ := henc f List.mem_cons_self
            rw [wire_ok hf, hbytes, List.append_assoc] at htail
            obtain ⟨rfl, hrest⟩ := encodeFrame_unique hf hg (h32 f List.mem_cons_self) (readFrame_fits hread) htail
            refine (List.prefix_cons_inj frame).mpr (ih ?_ ?_ ⟨tail, hrest⟩)
            · exact fun f hf => henc f (List.mem_cons_of_mem _ hf)
            · exact fun f hf => h32 f (List.mem_cons_of_mem _ hf)
      · exact List.nil_prefix

end LongshipX.Net
