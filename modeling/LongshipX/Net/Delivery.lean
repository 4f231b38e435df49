import LongshipX.Net.Connection

/-!
# Outbound delivery

What any order of the steps of one connection's senders and writer leaves on the socket.

* `Connection.Inv` : the socket, the frame in hand and the queue spell the accepted frames; a connection that was
  marked as gone refuses every frame; `step_inv` : every step keeps it;
* `Connection.measure` : with the senders gone, what the writer still has to do; `step_measure`, `step_enabled` : each
  step of it makes that less, and until it ends there is one;
* `delivery` : the socket holds a front part of the accepted frames' encodings, and all of them after a drain.
-/

namespace LongshipX.Net

def SenderEvent.stops : SenderEvent → Bool
  | .trySendFrame _ _ (.error .queueFull) => true
  | .disconnect _ => true
  | _ => false

/-- The event is not a `try_send_frame` that got another answer than `Closed`. -/
def SenderEvent.Refused : SenderEvent → Prop
  | .trySendFrame _ _ result => result = .error .closed
  | .disconnect _ => True

def ConnectionLabel.cutsOff : ConnectionLabel → Bool
  | .ioError | .deadline | .abort => true
  | _ => false

/-- The bytes of the frame in hand that the socket has not taken. -/
def Work.rest : Work → List UInt8
  | .receiving => []
  | .writing rest => rest

namespace Connection

variable {config : ConnectionConfig} {c c' : Connection} {label : ConnectionLabel}

/-- **The invariant** of a connection. -/
structure Inv (config : ConnectionConfig) (c : Connection) : Prop where
  enqueued : c.outbound.tx.enqueued = accepted c.history
  receiver : c.outbound.tx.receiver = true ↔ c.writer ≠ .ended
  spelled : c.writer ≠ .ended → wire config.maxFrameSize (accepted c.history) =
    c.socket ++ c.work.rest ++ wire config.maxFrameSize c.outbound.tx.queue
  delivered : c.socket <+: wire config.maxFrameSize (accepted c.history)
  marked : c.outbound.disconnected = true ↔ ∃ event ∈ c.history, event.stops = true
  refused : c.history.Pairwise fun event later => event.stops = true → later.Refused

theorem split_inv (config : ConnectionConfig) : (split config).Inv config where
  enqueued := rfl
  receiver := by simp [split, OutboundSender.new, Channel.new]
  spelled _ := rfl
  delivered := List.nil_prefix
  marked := by simp [split, OutboundSender.new]
  refused := List.Pairwise.nil

theorem Inv.stop (h : c.Inv config) : c.stop.Inv config where
  enqueued := h.enqueued
  receiver := by simp [Connection.stop, Channel.dropReceiver]
  spelled hlive := absurd rfl hlive
  delivered := h.delivered
  marked := h.marked
  refused := h.refused

theorem refused_concat {history : List SenderEvent} {event : SenderEvent}
    (h : history.Pairwise fun event later => event.stops = true → later.Refused)
    (hevent : (∃ e ∈ history, e.stops = true) → event.Refused) :
    (history ++ [event]).Pairwise fun event later => event.stops = true → later.Refused := by
  refine List.pairwise_append.mpr ⟨h, List.pairwise_singleton _ _, ?_⟩
  intro e he later hlater hstops
  rw [List.mem_singleton.mp hlater]
  exact hevent ⟨e, he, hstops⟩

theorem marked_concat {history : List SenderEvent} {flag : Bool}
    (h : flag = true ↔ ∃ e ∈ history, e.stops = true) (event : SenderEvent) :
    (flag || event.stops) = true ↔ ∃ e ∈ history ++ [event], e.stops = true := by
  simp only [Bool.or_eq_true, h, List.mem_append, List.mem_singleton]
  constructor
  · rintro (⟨e, he, hstops⟩ | hstops)
    · exact ⟨e, Or.inl he, hstops⟩
    · exact ⟨event, Or.inr rfl, hstops⟩
  · rintro ⟨e, he | rfl, hstops⟩
    · exact Or.inl ⟨e, he, hstops⟩
    · exact Or.inr hstops

theorem Inv.record (h : c.Inv config) {event : SenderEvent} {outbound : OutboundSender Frame}
    (hnone : accepted [event] = []) (htx : outbound.tx = c.outbound.tx)
    (hflag : outbound.disconnected = (c.outbound.disconnected || event.stops))
    (hevent : (∃ e ∈ c.history, e.stops = true) → event.Refused) :
    Inv config { c with outbound := outbound, history := c.history ++ [event] } := by
  have haccepted : accepted (c.history ++ [event]) = accepted c.history := by
    rw [accepted_concat, hnone, List.append_nil]
  refine ⟨?_, ?_, ?_, ?_, ?_, refused_concat h.refused hevent⟩
  · rw [haccepted, htx, h.enqueued]
  · rw [htx]
    exact h.receiver
  · rw [haccepted, htx]
    exact h.spelled
  · rw [haccepted]
    exact h.delivered
  · rw [hflag]
    exact marked_concat h.marked event

theorem Inv.unmarked (h : c.Inv config) (hopen : c.outbound.isClosed = false) :
    c.outbound.disconnected = false ∧ ¬ ∃ e ∈ c.history, e.stops = true := by
  have hflag : c.outbound.disconnected = false := by simp_all [OutboundSender.isClosed]
  refine ⟨hflag, fun hmarked => ?_⟩
  rw [h.marked.mpr hmarked] at hflag
  cases hflag

theorem Inv.trySendFrame (h : c.Inv config) (k : Nat) (frame : Frame) :
    Inv config { c with outbound := (c.outbound.trySendFrame frame).2,
                        history := c.history ++ [.trySendFrame k frame (c.outbound.trySendFrame frame).1] } := by
  obtain ⟨-, hsent⟩ | ⟨hopen, hsent⟩ | ⟨hopen, hsent⟩ := c.outbound.trySendFrame_cases frame
  · rw [hsent]
    exact h.record rfl rfl (Bool.or_false _).symm fun _ => rfl
  · rw [hsent]
    exact h.record rfl rfl (Bool.or_true _).symm fun hmarked => absurd hmarked (h.unmarked hopen).2
  · rw [hsent]
    have haccepted : accepted (c.history ++ [.trySendFrame k frame (.ok ())]) = accepted c.history ++ [frame] :=
      accepted_concat _ _
    refine ⟨?_, h.receiver, ?_, ?_, ?_, refused_concat h.refused fun hmarked => absurd hmarked (h.unmarked hopen).2⟩
    · rw [haccepted, ← h.enqueued]
    · intro hlive
      rw [haccepted, wire_append, wire_append, h.spelled hlive, List.append_assoc _ _ (wire _ [frame])]
    · rw [haccepted, wire_append]
      exact h.delivered.trans (List.prefix_append _ _)
    · simpa [SenderEvent.stops] using marked_concat h.marked (.trySendFrame k frame (.ok ()))

theorem Inv.disconnect (h : c.Inv config) (k : Nat) :
    Inv config { c with outbound := c.outbound.disconnect, history := c.history ++ [.disconnect k] } :=
  h.record rfl rfl (Bool.or_true _).symm fun _ => trivial

theorem Inv.take (h : c.Inv config) (hlive : c.writer ≠ .ended) (hwork : c.work = .receiving) {frame : Frame}
    {tx : Channel Frame} (hrecv : c.outbound.tx.recv = some (frame, tx)) : (c.take config frame tx).Inv config := by
  obtain ⟨hqueue, hreceiver, henqueued⟩ := Channel.recv_some hrecv
  have hspelled := h.spelled hlive
  rw [hwork, hqueue] at hspelled
  refine ⟨henqueued.trans h.enqueued, ?_, fun _ => ?_, h.delivered, h.marked, h.refused⟩
  · show tx.receiver = true ↔ _
    rw [hreceiver]
    exact h.receiver
  · show wire config.maxFrameSize (accepted c.history) = _
    rw [hspelled]
    cases henc : encodeFrame frame config.maxFrameSize with
    | ok bytes => simp [Connection.take, henc, wire_ok henc, Work.rest]
    | error err => simp [Connection.take, henc, wire_error henc, Work.rest]

theorem Inv.write (h : c.Inv config) (hlive : c.writer ≠ .ended) {rest : List UInt8} (hwork : c.work = .writing rest)
    (n : Nat) : Inv config { c with socket := c.socket ++ rest.take n, work := .writing (rest.drop n) } := by
  have hspelled := h.spelled hlive
  rw [hwork] at hspelled
  have hwire : wire config.maxFrameSize (accepted c.history) =
      c.socket ++ rest.take n ++ rest.drop n ++ wire config.maxFrameSize c.outbound.tx.queue := by
    rw [hspelled, List.append_assoc c.socket (rest.take n), List.take_append_drop]
    rfl
  refine ⟨h.enqueued, h.receiver, fun _ => hwire, ?_, h.marked, h.refused⟩
  show c.socket ++ rest.take n <+: wire config.maxFrameSize (accepted c.history)
  rw [hwire, List.append_assoc]
  exact List.prefix_append _ _

/-- **Every step keeps the invariant.** -/
theorem step_inv (h : c.Inv config) (hstep : c.step config label = some c') : c'.Inv config := by
  cases step_moved hstep with
  | clone | dropSender => exact ⟨h.enqueued, h.receiver, h.spelled, h.delivered, h.marked, h.refused⟩
  | trySendFrame _ hsent =>
      subst hsent
      exact h.trySendFrame _ _
  | disconnect => exact h.disconnect _
  | recv hlive hwork hrecv => exact h.take hlive hwork hrecv
  | write hlive hwork => exact h.write hlive hwork _
  | flush hlive hwork =>
      refine ⟨h.enqueued, h.receiver, fun hlive => ?_, h.delivered, h.marked, h.refused⟩
      have hspelled := h.spelled hlive
      rw [hwork] at hspelled
      exact hspelled
  | ioError | finish | cancel | deadline | abort => exact h.stop
  | drain hwriter =>
      refine ⟨h.enqueued, ?_, fun _ => h.spelled (by simp [hwriter]), h.delivered, h.marked, h.refused⟩
      simp only [h.receiver, hwriter]
      decide

theorem run_inv {labels : List ConnectionLabel} (hrun : (system config).run (split config) labels = some c) :
    c.Inv config :=
  TransitionSystem.run_invariant (fun _ _ _ => step_inv) (split_inv config) hrun

/-! ## The drain -/

def workCost : Work → Nat
  | .receiving => 0
  | .writing rest => rest.length + 1

/-- What the writer still has to do for the queue: take each frame, write and flush it. -/
def queueCost (config : ConnectionConfig) (queue : List Frame) : Nat :=
  (queue.map fun frame => (wire config.maxFrameSize [frame]).length + 2).sum

def measure (config : ConnectionConfig) (c : Connection) : Nat :=
  match c.writer with
  | .ended => 0
  | .draining => workCost c.work + queueCost config c.outbound.tx.queue + 1
  | .selecting => workCost c.work + queueCost config c.outbound.tx.queue + 2

theorem alive_of_dropped (h : c.sendersDropped = true) (k : Nat) : c.alive k = false := by
  unfold sendersDropped at h
  unfold alive
  cases hk : c.clones[k]? with
  | none => rfl
  | some live =>
      have hlive := List.all_eq_true.mp h live (List.mem_of_getElem? hk)
      simp only [Bool.not_eq_true'] at hlive
      rw [hlive]
      rfl

theorem measure_pos (hlive : c.writer ≠ .ended) : 0 < measure config c := by
  unfold measure
  split
  · contradiction
  · omega
  · omega

theorem measure_lt (hlive : c.writer ≠ .ended) (hwriter : c'.writer = c.writer)
    (hcost : workCost c'.work + queueCost config c'.outbound.tx.queue <
      workCost c.work + queueCost config c.outbound.tx.queue) : measure config c' < measure config c := by
  unfold measure
  rw [hwriter]
  split
  · contradiction
  · omega
  · omega

theorem take_cost (hwork : c.work = .receiving) {frame : Frame} {tx : Channel Frame}
    (hqueue : c.outbound.tx.queue = frame :: tx.queue) :
    workCost (c.take config frame tx).work + queueCost config tx.queue <
      workCost c.work + queueCost config c.outbound.tx.queue := by
  rw [hwork, hqueue]
  have hcost : queueCost config (frame :: tx.queue) =
      (wire config.maxFrameSize [frame]).length + 2 + queueCost config tx.queue := by
    simp [queueCost]
  cases henc : encodeFrame frame config.maxFrameSize with
  | ok bytes =>
      have hlen : (wire config.maxFrameSize [frame]).length = bytes.length := by
        rw [wire_ok henc]
        simp [wire]
      simp only [Connection.take, henc, workCost]
      omega
  | error err =>
      simp only [Connection.take, henc, workCost]
      omega

/-- **With the senders gone, every step is the writer's and brings its end nearer.** -/
theorem step_measure (hdropped : c.sendersDropped = true) (hstep : c.step config label = some c') :
    measure config c' < measure config c ∧ c'.sendersDropped = true ∧ c'.history = c.history := by
  have hstop (hlive : c.writer ≠ .ended) : measure config c.stop < measure config c := measure_pos hlive
  cases step_moved hstep with
  | clone h | trySendFrame h | disconnect h | dropSender h =>
      rw [alive_of_dropped hdropped] at h
      cases h
  | recv hlive hwork hrecv =>
      exact ⟨measure_lt hlive rfl (take_cost hwork (Channel.recv_some hrecv).1), hdropped, rfl⟩
  | write hlive hwork hpos hle =>
      refine ⟨measure_lt hlive rfl ?_, hdropped, rfl⟩
      simp only [hwork, workCost, List.length_drop]
      omega
  | flush hlive hwork =>
      refine ⟨measure_lt hlive rfl ?_, hdropped, rfl⟩
      simp [hwork, workCost]
  | ioError hlive | finish hlive | abort hlive => exact ⟨hstop hlive, hdropped, rfl⟩
  | cancel hwriter | deadline hwriter => exact ⟨hstop (by simp [hwriter]), hdropped, rfl⟩
  | drain hwriter =>
      refine ⟨?_, hdropped, rfl⟩
      simp [measure, hwriter]

theorem step_enabled (h : c.Inv config) (hdropped : c.sendersDropped = true) (hlive : c.writer ≠ .ended) :
    ∃ label, label.cutsOff = false ∧ (c.step config label).isSome = true := by
  have hreceiver := h.receiver.mpr hlive
  cases hwork : c.work with
  | receiving =>
      cases hqueue : c.outbound.tx.queue with
      | nil =>
          refine ⟨.finish, rfl, ?_⟩
          cases hwriter : c.writer <;> simp_all [step]
      | cons frame queue =>
          refine ⟨.recv, rfl, ?_⟩
          cases hwriter : c.writer <;> simp_all [step, Channel.recv]
  | writing rest =>
      cases rest with
      | nil =>
          refine ⟨.flush, rfl, ?_⟩
          cases hwriter : c.writer <;> simp_all [step]
      | cons b rest =>
          refine ⟨.write 1, rfl, ?_⟩
          cases hwriter : c.writer <;> simp_all [step]

/-- A writer that ended by itself, on a connection that was not marked as gone, has written everything. -/
def Whole (config : ConnectionConfig) (c : Connection) : Prop :=
  c.outbound.disconnected = false → c.writer = .ended → c.socket = wire config.maxFrameSize (accepted c.history)

theorem step_whole (h : c.Inv config) (hwhole : c.Whole config) (hcut : label.cutsOff = false)
    (hstep : c.step config label = some c') : c'.Whole config := by
  intro hflag hended
  cases step_moved hstep with
  | clone | dropSender => exact hwhole hflag hended
  | @trySendFrame k frame _ _ hsent =>
      subst hsent
      obtain ⟨hclosed, hsent⟩ | ⟨hopen, hsent⟩ | ⟨hopen, hsent⟩ := c.outbound.trySendFrame_cases frame
      · rw [hsent] at hflag ⊢
        rw [accepted_concat]
        exact (hwhole hflag hended).trans (congrArg _ (List.append_nil _).symm)
      · rw [hsent] at hflag
        cases hflag
      · have hreceiver : c.outbound.tx.receiver = true := by simp_all [OutboundSender.isClosed]
        exact absurd hended (h.receiver.mp hreceiver)
  | disconnect => cases hflag
  | recv hlive | write hlive | flush hlive => exact absurd hended hlive
  | finish hlive hwork hdropped hempty =>
      have hspelled := h.spelled hlive
      rw [hwork, hempty] at hspelled
      exact (hspelled.trans (by simp [Work.rest, wire, Connection.stop])).symm
  | cancel hwriter hmarked =>
      rw [show c.stop.outbound.disconnected = c.outbound.disconnected from rfl, hmarked] at hflag
      cases hflag
  | drain => cases hended
  | ioError | deadline | abort => cases hcut

theorem run_whole {labels : List ConnectionLabel} (h : c.Inv config) (hwhole : c.Whole config)
    (hcut : ∀ label ∈ labels, label.cutsOff = false) (hrun : (system config).run c labels = some c') :
    c'.Whole config := by
  have hboth : c'.Inv config ∧ c'.Whole config :=
    TransitionSystem.run_induction (I := fun c => c.Inv config ∧ c.Whole config) (fun _ label => label.cutsOff = false)
      (fun s a s' hs hok hstep => ⟨step_inv hs.1 hstep, step_whole hs.1 hs.2 hok hstep⟩) ⟨h, hwhole⟩
      (TransitionSystem.along_of_forall (fun label hlabel _ => hcut label hlabel) c) hrun
  exact hboth.2

theorem run_measure {labels : List ConnectionLabel} (hdropped : c.sendersDropped = true)
    (hrun : (system config).run c labels = some c') :
    labels.length + measure config c' ≤ measure config c ∧ c'.sendersDropped = true ∧ c'.history = c.history := by
  induction labels generalizing c with
  | nil =>
      obtain rfl := Option.some.inj hrun
      simp [hdropped]
  | cons label labels ih =>
      obtain ⟨c₁, hstep, hrest⟩ := Option.bind_eq_some_iff.mp hrun
      obtain ⟨hlt, hdropped₁, hhistory⟩ := step_measure hdropped hstep
      obtain ⟨hle, hdropped', hhistory'⟩ := ih hdropped₁ hrest
      refine ⟨?_, hdropped', hhistory'.trans hhistory⟩
      rw [List.length_cons]
      omega

/-! ## Delivery -/

/-- The length of the frame fits the 32-bit prefix, or `encode_frame` rejects the frame. -/
def Fits (config : ConnectionConfig) (frame : Frame) : Prop :=
  frame.wireLen ≤ 2 ^ 32 - 1 ∨ config.maxFrameSize < frame.wireLen

theorem run_fits {labels : List ConnectionLabel}
    (hfits : ∀ k frame, .trySendFrame k frame ∈ labels → Fits config frame)
    (hrun : (system config).run (split config) labels = some c) : ∀ frame ∈ accepted c.history, Fits config frame := by
  have hlabels : ∀ label ∈ labels, ∀ k frame, label = .trySendFrame k frame → Fits config frame := by
    rintro label hlabel k frame rfl
    exact hfits k frame hlabel
  refine TransitionSystem.run_induction (I := fun c => ∀ frame ∈ accepted c.history, Fits config frame)
    (fun _ label => ∀ k frame, label = .trySendFrame k frame → Fits config frame) ?_ (by simp [split, accepted])
    (TransitionSystem.along_of_forall (fun label hlabel _ => hlabels label hlabel) _) hrun
  intro s label s' hs hok hstep
  cases step_moved hstep with
  | @trySendFrame k frame _ _ hsent =>
      intro f hf
      rw [accepted_concat] at hf
      rcases List.mem_append.mp hf with hold | hnew
      · exact hs f hold
      · obtain rfl := mem_accepted_trySendFrame hnew
        exact hok k f rfl
  | disconnect =>
      intro f hf
      rw [accepted_concat] at hf
      rcases List.mem_append.mp hf with hold | hnew
      · exact hs f hold
      · cases hnew
  | clone | dropSender | recv | write | flush | ioError | finish | cancel | drain | deadline | abort => exact hs

/-- **Outbound delivery.** After every run of a connection's senders and writer, for every part of the socket's bytes a
peer may have received:

1. the socket holds a front part of the encodings of the frames that were accepted, in their order, without those that
   do not encode; if every frame that was handed over fits the 32-bit prefix or is rejected by `encode_frame`, the
   frames the peer reads are a front part of the accepted ones that encode;
2. after a `QueueFull` or a `disconnect` every `try_send_frame` of every clone returned `Closed`;
3. once the senders are gone, without a `QueueFull` or `disconnect`, a writer that nothing cuts off takes a bounded
   number of steps, can go on until it has ended, and has then written every accepted frame that encodes. -/
theorem delivery {labels : List ConnectionLabel} (hrun : (system config).run (split config) labels = some c) :
    (c.socket <+: wire config.maxFrameSize (accepted c.history) ∧
      ((∀ k frame, .trySendFrame k frame ∈ labels → Fits config frame) →
        ∀ received, received <+: c.socket → ∀ limit reads fault,
          framesRead limit reads ⟨received, fault⟩ <+: encodable config.maxFrameSize (accepted c.history))) ∧
    (∀ before event after, c.history = before ++ event :: after → event.stops = true →
      ∀ k frame result, .trySendFrame k frame result ∈ after → result = .error .closed) ∧
    ((∀ label ∈ labels, label.cutsOff = false) → (∀ event ∈ c.history, event.stops = false) → c.sendersDropped = true →
      ∃ bound, ∀ rest c', (∀ label ∈ rest, label.cutsOff = false) → (system config).run c rest = some c' →
        rest.length ≤ bound ∧
        (c'.writer ≠ .ended → ∃ label, label.cutsOff = false ∧ (c'.step config label).isSome = true) ∧
        (c'.writer = .ended → c'.socket = wire config.maxFrameSize (accepted c.history))) := by
  have hinv := run_inv hrun
  refine ⟨⟨hinv.delivered, ?_⟩, ?_, ?_⟩
  · intro hfits received hreceived limit reads fault
    have haccepted := run_fits hfits hrun
    refine framesRead_wire config.maxFrameSize limit reads ?_ ?_ ?_
    · intro frame hframe
      obtain ⟨-, hok⟩ := List.mem_filter.mp hframe
      cases henc : encodeFrame frame config.maxFrameSize with
      | ok bytes => exact ⟨bytes, rfl⟩
      | error err =>
          rw [henc] at hok
          cases hok
    · intro frame hframe
      obtain ⟨hmem, hok⟩ := List.mem_filter.mp hframe
      obtain h32 | hbig := haccepted frame hmem
      · exact h32
      · rw [encodeFrame, if_pos hbig] at hok
        cases hok
    · rw [wire_encodable]
      exact hreceived.trans hinv.delivered
  · intro before event after hhistory hstops k frame result hmem
    have hpair := hinv.refused
    rw [hhistory] at hpair
    exact (List.pairwise_cons.mp (List.pairwise_append.mp hpair).2.1).1 _ hmem hstops
  · intro hcut hunmarked hdropped
    have hwhole : c.Whole config := run_whole (split_inv config) (fun _ hended => by cases hended) hcut hrun
    refine ⟨measure config c, fun rest c' hrest hrun' => ?_⟩
    obtain ⟨hle, hdropped', hhistory⟩ := run_measure hdropped hrun'
    have hinv' : c'.Inv config := TransitionSystem.run_invariant (fun _ _ _ => step_inv) hinv hrun'
    refine ⟨by omega, step_enabled hinv' hdropped', fun hended => ?_⟩
    rw [← hhistory]
    refine run_whole hinv hwhole hrest hrun' ?_ hended
    by_contra hflag
    obtain ⟨event, hevent, hstops⟩ := hinv'.marked.mp (by simpa using hflag)
    rw [hhistory] at hevent
    rw [hunmarked event hevent] at hstops
    cases hstops

/-- A frame, the drop of its sender, and a drain whose socket takes three bytes, then four. -/
theorem delivery_drained :
    ∃ c c', (system ⟨64, 2⟩).run (split ⟨64, 2⟩) [.trySendFrame 0 ⟨1, [7]⟩, .dropSender 0] = some c ∧
      (system ⟨64, 2⟩).run c [.recv, .write 3, .signal, .write 4, .flush, .finish] = some c' ∧
      c'.socket = wire 64 [⟨1, [7]⟩] ∧ framesRead 64 2 ⟨c'.socket, none⟩ = [⟨1, [7]⟩] := by
  refine ⟨_, _, rfl, rfl, ?_, rfl⟩
  have hrun : (system ⟨64, 2⟩).run (split ⟨64, 2⟩) [.trySendFrame 0 ⟨1, [7]⟩, .dropSender 0] = some _ := rfl
  obtain ⟨bound, hdrain⟩ := (delivery hrun).2.2 (by decide) (by simp [SenderEvent.stops, split, OutboundSender.trySendFrame,
    OutboundSender.isClosed, OutboundSender.new, Channel.new, Channel.trySend]) rfl
  exact (hdrain [.recv, .write 3, .signal, .write 4, .flush, .finish] _ (by decide) rfl).2.2 rfl

/-! ### Frames of four gibibytes -/

theorem encodeFrame_wraps {payload : List UInt8} (hlen : payload.length = 2 ^ 32) :
    encodeFrame ⟨1, payload⟩ (2 ^ 32 + 2) = .ok ([0, 0, 0, 2, 0, 1] ++ payload) := by
  have hwire : (⟨1, payload⟩ : Frame).wireLen = 2 ^ 32 + 2 := by
    rw [Frame.wireLen, opcodeBytes, hlen, Nat.add_comm]
  have hwraps : (UInt32.ofNat (2 ^ 32 + 2)).toNat = 2 := by
    rw [UInt32.toNat_ofNat', Nat.add_mod_left]
    rfl
  have hbytes : BigEndian.toBE lengthPrefixBytes 2 ++ BigEndian.toBE opcodeBytes (1 : UInt16).toNat = [0, 0, 0, 2, 0, 1] := by
    decide
  rw [encodeFrame_ok (by rw [hwire]), hwire, hwraps, hbytes]

theorem framesRead_empty : framesRead (2 ^ 32 + 2) 1 ⟨[0, 0, 0, 2, 0, 1], none⟩ = [⟨1, []⟩] := by
  have henc : encodeFrame ⟨1, []⟩ (2 ^ 32 + 2) = .ok [0, 0, 0, 2, 0, 1] := encodeFrame_mono (show encodeFrame ⟨1, []⟩ 2 = _ from rfl) (by omega)
  have hread := readFrame_encode (by decide) henc [] none
  rw [List.append_nil] at hread
  simp only [framesRead, hread]

theorem framesRead_wraps {payload : List UInt8} (hlen : payload.length = 2 ^ 32) :
    ∃ c, (system ⟨2 ^ 32 + 2, 1⟩).run (split ⟨2 ^ 32 + 2, 1⟩) [.trySendFrame 0 ⟨1, payload⟩, .recv, .write 6] = some c ∧
      accepted c.history = [⟨1, payload⟩] ∧ framesRead (2 ^ 32 + 2) 1 ⟨c.socket, none⟩ = [⟨1, []⟩] := by
  refine ⟨⟨⟨⟨1, [], true, [⟨1, payload⟩]⟩, false⟩, [true], [.trySendFrame 0 ⟨1, payload⟩ (.ok ())], .writing payload,
    .selecting, [0, 0, 0, 2, 0, 1]⟩, ?_, rfl, framesRead_empty⟩
  have henc : encodeFrame ⟨1, payload⟩ 4294967298 = .ok ([0, 0, 0, 2, 0, 1] ++ payload) := encodeFrame_wraps hlen
  simp [TransitionSystem.run, system, step, split, alive, OutboundSender.trySendFrame, OutboundSender.isClosed,
    OutboundSender.new, Channel.new, Channel.trySend, Channel.recv, take, henc]

/-- With `max_frame_size` at `2^32 + 2`, a frame with a payload of `2^32` bytes is accepted and encoded, and after its
first six bytes the peer has read an empty frame. -/
theorem huge_frame_misread :
    ∃ c, (system ⟨2 ^ 32 + 2, 1⟩).run (split ⟨2 ^ 32 + 2, 1⟩)
        [.trySendFrame 0 ⟨1, List.replicate (2 ^ 32) 0⟩, .recv, .write 6] = some c ∧
      ¬ framesRead (2 ^ 32 + 2) 1 ⟨c.socket, none⟩ <+: encodable (2 ^ 32 + 2) (accepted c.history) := by
  have hlen : (List.replicate (2 ^ 32) (0 : UInt8)).length = 2 ^ 32 := List.length_replicate
  obtain ⟨c, hrun, haccepted, hread⟩ := framesRead_wraps hlen
  refine ⟨c, hrun, fun hfront => ?_⟩
  rw [hread, haccepted, encodable] at hfront
  have hmem := List.mem_of_mem_filter (hfront.mem List.mem_cons_self)
  have hpayload : [] = List.replicate (2 ^ 32) (0 : UInt8) := congrArg Frame.payload (List.mem_singleton.mp hmem)
  have hzero := congrArg List.length hpayload
  rw [hlen] at hzero
  cases hzero

end Connection

end LongshipX.Net
