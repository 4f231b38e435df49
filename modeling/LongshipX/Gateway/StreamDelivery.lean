import LongshipX.Gateway.Exchange
import LongshipX.Gateway.Stream
import LongshipX.Protocol.GameProto

/-!
# What a client sees

* `Speaks`, `reader_speaks` : the read loop only adds messages of its own to the outbound queue, and no room event;
* `Told`, `Told.translator` : the translator forwards the events in the order in which it takes them;
* `step_simulated`, `run_simulated` : the outbound side runs as a connection of `Net.Connection`;
* `client_sees` : what a client decodes is a front part of what was queued, and the room events in it are a front part
  of those that the sink took.
-/

namespace LongshipX.Stream
open Protocol ReadLoop Gateway Broadcast
open Net (Frame OutboundSender Connection ConnectionConfig ConnectionLabel)

/-! ## What goes into the outbound queue -/

def notification : OutboundMessage → Option RoomEventNotification
  | .roomEvent notification => some notification
  | _ => none

/-- What a task does to the outbound queue. -/
inductive Op where
  | say (message : OutboundMessage)
  | disconnect

def Op.apply (sender : OutboundSender OutboundMessage) : Op → OutboundSender OutboundMessage
  | .say message => (sender.trySendFrame message).2
  | .disconnect => sender.disconnect

def Op.Plain : Op → Prop
  | .say message => notification message = none
  | .disconnect => True

def dequeued (log : List Event) : List RoomEvent := log.filterMap fun
  | .dequeued event => some event
  | _ => none

def forwarded (log : List Event) : List RoomEvent := log.filterMap fun
  | .forwarded event => some event
  | _ => none

theorem forwarded_append (log events : List Event) : forwarded (log ++ events) = forwarded log ++ forwarded events :=
  List.filterMap_append

theorem dequeued_append (log events : List Event) : dequeued (log ++ events) = dequeued log ++ dequeued events :=
  List.filterMap_append

section
variable {β : Type} {setup : Setup β} {c c' c'' : Conn β} {event : Event}

/-- **A part of the read loop**: it enqueues plain messages, and neither takes nor forwards an event. -/
structure Speaks (c c' : Conn β) : Prop where
  outbound : ∃ ops : List Op, (∀ op ∈ ops, op.Plain) ∧ c'.outbound = ops.foldl Op.apply c.outbound
  dequeued : dequeued c'.log = dequeued c.log
  forwarded : forwarded c'.log = forwarded c.log
  translator : c'.translator = c.translator

theorem Speaks.of_eq (houtbound : c'.outbound = c.outbound) (hlog : c'.log = c.log)
    (htranslator : c'.translator = c.translator) : Speaks c c' :=
  ⟨⟨[], by simp, houtbound⟩, by rw [hlog], by rw [hlog], htranslator⟩

theorem Speaks.refl (c : Conn β) : Speaks c c := .of_eq rfl rfl rfl

theorem Speaks.trans (h : Speaks c c') (h' : Speaks c' c'') : Speaks c c'' := by
  obtain ⟨ops, hplain, houtbound⟩ := h.outbound
  obtain ⟨ops', hplain', houtbound'⟩ := h'.outbound
  refine ⟨⟨ops ++ ops', List.forall_mem_append.mpr ⟨hplain, hplain'⟩, ?_⟩, h'.dequeued.trans h.dequeued,
    h'.forwarded.trans h.forwarded, h'.translator.trans h.translator⟩
  rw [List.foldl_append, ← houtbound, houtbound']

theorem speaks_note (hdequeued : dequeued [event] = []) (hforwarded : forwarded [event] = []) :
    Speaks c (c.note event) :=
  ⟨⟨[], by simp, rfl⟩, (dequeued_append _ _).trans (by rw [hdequeued, List.append_nil]),
    (forwarded_append _ _).trans (by rw [hforwarded, List.append_nil]), rfl⟩

theorem speaks_trySend {message : OutboundMessage} (h : notification message = none) : Speaks c (c.trySend message).2 :=
  ⟨⟨[.say message], by simpa [Op.Plain] using h, rfl⟩, rfl, rfl, rfl⟩

theorem notification_reply {uuids : Uuids} {auth auth' : AuthState} {exchange : Exchange}
    (h : exchange.Sound uuids auth auth') : ∀ message, exchange.reply = some message → notification message = none := by
  intro message hreply
  cases h with
  | replied _ hreplies => cases hreplies <;> cases hreply <;> rfl
  | binds | unrouted | bound => cases hreply; rfl
  | rejoins | joins | leaves | leavesAll | chats => cases hreply
  | @failed _ _ _ err =>
      obtain ⟨notice, hnotice⟩ := appErrorNotification_eq err
      obtain rfl := Option.some.inj hreply
      rw [hnotice]
      rfl

theorem speaks_piece {uuids : Uuids} {auth : AuthState} {request : InboundMessage} {before : List Handler}
    {outcomes : List Outcome} {r : Conn β × Progress} (h : Piece uuids auth request before outcomes c r) :
    Speaks c r.1 := by
  obtain ⟨acts, hconn, hinner, -, hleads⟩ := h
  obtain ⟨auth, heq⟩ := acts_eq c acts
  rw [← hconn] at heq
  have hplain : ∀ message ∈ said acts, notification message = none := by
    generalize r.2 = progress, said acts = messages, r.1.auth = stored at hleads
    cases hleads with
    | waits => exact List.forall_mem_nil _
    | @answered reply hsound => exact fun message hmem => notification_reply hsound message (Option.mem_toList.mp hmem)
    | unsent hsound => exact List.forall_mem_singleton.mpr (notification_reply hsound _ rfl)
    | refused => exact List.forall_mem_singleton.mpr rfl
  have hdequeued : dequeued (notes acts) = [] := List.filterMap_eq_nil_iff.mpr fun event hevent => by
    cases event <;> first | rfl | exact (hinner _ hevent).elim
  have hforwarded : forwarded (notes acts) = [] := List.filterMap_eq_nil_iff.mpr fun event hevent => by
    cases event <;> first | rfl | exact (hinner _ hevent).elim
  refine ⟨⟨(said acts).map .say, List.forall_mem_map.mpr hplain, ?_⟩, ?_, ?_, by rw [heq]⟩
  · rw [heq, List.foldl_map]
    rfl
  · rw [heq, dequeued_append, hdequeued, List.append_nil]
  · rw [heq, forwarded_append, hforwarded, List.append_nil]

theorem speaks_admitFrame (frame : Frame) : Speaks c (c.admitFrame setup frame).1 := by
  have hacquire : Speaks c (c.acquire setup).2 := by
    unfold Conn.acquire
    split
    · exact .refl c
    · exact .of_eq rfl rfl rfl
  refine hacquire.trans ?_
  obtain ⟨code, message, hreject⟩ | ⟨-, request, -, hpiece⟩ := @piece_admitFrame β setup c frame
  · rw [hreject]
    exact speaks_trySend rfl
  · exact speaks_piece hpiece

theorem speaks_resume {await : Await} {label : ReadLoop.Label} {r : Conn β × Progress}
    (h : c.resume setup await label = some r) : Speaks c r.1 := by
  obtain ⟨uuids, request, before, -, hpiece⟩ := exists_piece h
  exact speaks_piece hpiece

theorem speaks_proceed (limit : Option Instant) (r : Conn β × Progress) : Speaks r.1 (Conn.proceed limit r) := by
  obtain ⟨c, _ | _⟩ := r
  · next proceed => cases proceed <;> exact .of_eq rfl rfl rfl
  · exact .of_eq rfl rfl rfl

theorem speaks_farewell {message : OutboundMessage} (h : notification message = none) : Speaks c (c.farewell message) :=
  (speaks_trySend h).trans (.of_eq rfl rfl rfl)

theorem speaks_select {deadline : Instant} {label : ReadLoop.Label} (h : c.stepSelect setup deadline label = some c') :
    Speaks c c' := by
  unfold Conn.stepSelect at h
  split at h
  · split_ifs at h
    obtain rfl := Option.some.inj h
    exact .of_eq rfl rfl rfl
  · obtain rfl := Option.some.inj h
    exact ⟨⟨[.disconnect], by simp [Op.Plain], rfl⟩, rfl, rfl, rfl⟩
  · obtain rfl := Option.some.inj h
    exact speaks_farewell rfl
  · split_ifs at h
    · obtain rfl := Option.some.inj h
      exact speaks_farewell rfl
    · obtain rfl := Option.some.inj h
      exact ((speaks_note rfl rfl).trans (speaks_admitFrame _)).trans (speaks_proceed _ _)
  · obtain rfl := Option.some.inj h
    exact .of_eq rfl rfl rfl
  · split_ifs at h
    · obtain rfl := Option.some.inj h
      exact .of_eq rfl rfl rfl
    · split at h
      · obtain rfl := Option.some.inj h
        exact speaks_farewell rfl
      · obtain rfl := Option.some.inj h
        exact speaks_farewell rfl
  · split_ifs at h
    obtain rfl := Option.some.inj h
    exact speaks_farewell rfl
  · cases h

/-- **The read loop.** -/
theorem reader_speaks {label : ReadLoop.Label} (h : c.stepReader setup label = some c') : Speaks c c' := by
  unfold Conn.stepReader at h
  split at h
  · obtain rfl := Option.some.inj h
    exact .of_eq rfl rfl rfl
  · exact speaks_select h
  · split_ifs at h
    obtain rfl := Option.some.inj h
    exact speaks_farewell rfl
  · obtain ⟨r, hresume, rfl⟩ := Option.map_eq_some_iff.mp h
    exact (speaks_resume hresume).trans (speaks_proceed _ r)
  · cases h

/-! ## The translator -/

theorem Op.Plain.apply {op : Op} (h : op.Plain) (sender : OutboundSender OutboundMessage) :
    (op.apply sender).tx.enqueued.filterMap notification = sender.tx.enqueued.filterMap notification := by
  cases op with
  | disconnect => rfl
  | say message =>
      obtain ⟨-, hsent⟩ | ⟨-, hsent⟩ | ⟨-, hsent⟩ := sender.trySendFrame_cases message
      · simp only [Op.apply, hsent]
      · simp only [Op.apply, hsent]
        rfl
      · have hnone : notification message = none := h
        simp only [Op.apply, hsent, List.filterMap_append, List.filterMap_cons, hnone, List.filterMap_nil, List.append_nil]

theorem plain_foldl {ops : List Op} (h : ∀ op ∈ ops, op.Plain) (sender : OutboundSender OutboundMessage) :
    (ops.foldl Op.apply sender).tx.enqueued.filterMap notification = sender.tx.enqueued.filterMap notification := by
  induction ops generalizing sender with
  | nil => rfl
  | cons op ops ih =>
      rw [List.foldl_cons, ih (fun op' hop' => h op' (List.mem_cons_of_mem op hop'))]
      exact (h op List.mem_cons_self).apply sender

/-- **What was queued of the room events**: those that were forwarded, which are the ones taken, up to one in hand. -/
structure Told (uuids : Uuids) (c : Conn β) : Prop where
  queued : c.outbound.tx.enqueued.filterMap notification =
    (Stream.forwarded c.log).map (roomEventToNotification uuids)
  order : ∃ rest, Stream.dequeued c.log = Stream.forwarded c.log ++ rest ∧ (c.translator = .receiving → rest = []) ∧
    ∀ event player token expires, c.translator = .validating event player token expires → rest = [event]

theorem Told.speaks {uuids : Uuids} (h : Told uuids c) (hspeaks : Speaks c c') : Told uuids c' := by
  obtain ⟨ops, hplain, houtbound⟩ := hspeaks.outbound
  refine ⟨?_, ?_⟩
  · rw [houtbound, plain_foldl hplain, hspeaks.forwarded]
    exact h.queued
  · rw [hspeaks.dequeued, hspeaks.forwarded, hspeaks.translator]
    exact h.order

theorem Told.ends {uuids : Uuids} (h : Told uuids c) {taken : List RoomEvent}
    (hqueued : c'.outbound.tx.enqueued.filterMap notification = c.outbound.tx.enqueued.filterMap notification)
    (hdequeued : Stream.dequeued c'.log = Stream.dequeued c.log ++ taken)
    (hforwarded : Stream.forwarded c'.log = Stream.forwarded c.log) (hfinished : c'.translator = .finished) :
    Told uuids c' := by
  obtain ⟨hand, horder, -, -⟩ := h.order
  refine ⟨by rw [hqueued, hforwarded]; exact h.queued, hand ++ taken, ?_, ?_, ?_⟩
  · rw [hdequeued, hforwarded, horder, List.append_assoc]
  · rw [hfinished]
    exact fun heq => by cases heq
  · rw [hfinished]
    exact fun _ _ _ _ heq => by cases heq

theorem queued_unvalidated (c : Conn β) :
    c.unvalidated.outbound.tx.enqueued.filterMap notification = c.outbound.tx.enqueued.filterMap notification :=
  Op.Plain.apply (show (Op.say (errorNotification errNotAuthenticated "会话无效或已过期")).Plain from rfl) c.outbound

theorem Told.forward (h : Told setup.uuids c) {event : RoomEvent}
    (horder : Stream.dequeued c.log = Stream.forwarded c.log ++ [event]) : Told setup.uuids (c.forward setup event) := by
  have hsent := c.outbound.trySendFrame_cases (.roomEvent (roomEventToNotification setup.uuids event))
  unfold Conn.forward
  dsimp only
  obtain ⟨-, hsent⟩ | ⟨-, hsent⟩ | ⟨-, hsent⟩ := hsent
  · have hno : (c.trySend (.roomEvent (roomEventToNotification setup.uuids event))).1 = false := by
      rw [Conn.trySend, hsent]
      rfl
    rw [if_neg (by rw [hno]; exact Bool.false_ne_true)]
    refine h.ends ?_ (List.append_nil _).symm rfl rfl
    simp only [Conn.trySend, hsent]
  · have hno : (c.trySend (.roomEvent (roomEventToNotification setup.uuids event))).1 = false := by
      rw [Conn.trySend, hsent]
      rfl
    rw [if_neg (by rw [hno]; exact Bool.false_ne_true)]
    refine h.ends ?_ (List.append_nil _).symm rfl rfl
    simp only [Conn.trySend, hsent]
    rfl
  · have hyes : (c.trySend (.roomEvent (roomEventToNotification setup.uuids event))).1 = true := by
      rw [Conn.trySend, hsent]
      rfl
    rw [if_pos hyes]
    have hforwarded : Stream.forwarded (c.log ++ [.forwarded event]) = Stream.forwarded c.log ++ [event] :=
      forwarded_append _ _
    have hdequeued : Stream.dequeued (c.log ++ [.forwarded event]) = Stream.dequeued c.log :=
      (dequeued_append _ _).trans (List.append_nil _)
    refine ⟨?_, [], ?_, fun _ => rfl, fun _ _ _ _ heq => by cases heq⟩
    · simp only [Conn.note, Conn.trySend, hsent, hforwarded, List.filterMap_append, List.map_append, h.queued]
      rfl
    · simp only [Conn.note, Conn.trySend, hforwarded, hdequeued, List.append_nil]
      exact horder

/-- **The translator forwards what it takes, in that order.** -/
theorem Told.translator {label : ReadLoop.Label} (h : Told setup.uuids c) (hstep : c.stepTranslator setup label = some c') :
    Told setup.uuids c' := by
  obtain ⟨hand, horder, hreceiving, hvalidating⟩ := h.order
  unfold Conn.stepTranslator at hstep
  split at hstep
  · next event htranslator =>
    dsimp only at hstep
    split at hstep
    · obtain rfl := Option.some.inj hstep
      exact h.ends (queued_unvalidated _) (dequeued_append c.log [.dequeued event])
        ((forwarded_append c.log [.dequeued event]).trans (List.append_nil _)) rfl
    · next player token _ =>
      obtain rfl := Option.some.inj hstep
      obtain rfl := hreceiving htranslator
      have hforwarded : Stream.forwarded ((c.note (.dequeued event)).note (.resolve .translator token)).log =
          Stream.forwarded c.log := by
        simp [Conn.note, Stream.forwarded]
      refine ⟨h.queued.trans (congrArg _ hforwarded.symm), [event], ?_, fun heq => (by cases heq), ?_⟩
      · refine Eq.trans ?_ (congrArg (· ++ [event]) hforwarded.symm)
        rw [List.append_nil] at horder
        rw [← horder]
        simp [Conn.note, Stream.dequeued]
      · rintro event' player' token' expires' heq
        rw [(Translator.validating.inj heq).1]
  · obtain rfl := Option.some.inj hstep
    exact h.ends rfl (List.append_nil _).symm rfl rfl
  · next event player token expires answer htranslator =>
    obtain rfl := Option.some.inj hstep
    obtain rfl := hvalidating event player token expires htranslator
    have hdequeued : Stream.dequeued (c.note (.resolved .translator answer)).log = Stream.dequeued c.log :=
      (dequeued_append _ _).trans (List.append_nil _)
    have hforwarded : Stream.forwarded (c.note (.resolved .translator answer)).log = Stream.forwarded c.log :=
      (forwarded_append _ _).trans (List.append_nil _)
    split_ifs
    · refine Told.forward ⟨?_, ?_⟩ ?_
      · rw [hforwarded]
        exact h.queued
      · rw [hdequeued, hforwarded]
        exact h.order
      · rw [hdequeued, hforwarded]
        exact horder
    · exact h.ends (queued_unvalidated _) (hdequeued.trans (List.append_nil _).symm) hforwarded rfl
  · split_ifs at hstep
    obtain rfl := Option.some.inj hstep
    exact h.ends (queued_unvalidated _) (List.append_nil _).symm rfl rfl
  · cases hstep

theorem translator_ops {label : ReadLoop.Label} (hstep : c.stepTranslator setup label = some c') :
    ∃ ops : List Op, c'.outbound = ops.foldl Op.apply c.outbound := by
  obtain ⟨messages, -, houtbound, -, -, -⟩ := translator_offers hstep
  refine ⟨messages.map .say, ?_⟩
  rw [houtbound, List.foldl_map]
  rfl

/-! ## A step of the tasks -/

def ofTask : ReadLoop.Label → Bool
  | .written | .writerEnds | .broadcast _ | .disconnect => false
  | _ => true

def taken : ReadLoop.Label → List RoomEvent
  | .event event => [event]
  | _ => []

/-- What a step of a task does, as far as events and the outbound queue go. -/
structure TaskStep (setup : Setup β) (events : List RoomEvent) (c c' : Conn β) : Prop where
  ops : ∃ ops : List Op, c'.outbound = ops.foldl Op.apply c.outbound
  dequeued : Stream.dequeued c'.log = Stream.dequeued c.log ++ events
  told : Told setup.uuids c → Told setup.uuids c'

theorem Speaks.taskStep (h : Speaks c c') : TaskStep setup [] c c' := by
  obtain ⟨ops, -, houtbound⟩ := h.outbound
  exact ⟨⟨ops, houtbound⟩, h.dequeued.trans (List.append_nil _).symm, fun htold => htold.speaks h⟩

theorem translator_dequeued {label : ReadLoop.Label} (hstep : c.stepTranslator setup label = some c') :
    Stream.dequeued c'.log = Stream.dequeued c.log ++ taken label := by
  unfold Conn.stepTranslator at hstep
  split at hstep
  · next event _ =>
    dsimp only at hstep
    split at hstep
    · obtain rfl := Option.some.inj hstep
      exact dequeued_append c.log [.dequeued event]
    · next player token _ =>
      obtain rfl := Option.some.inj hstep
      simp [Conn.note, Stream.dequeued, taken]
  · obtain rfl := Option.some.inj hstep
    exact (List.append_nil _).symm
  · next event player token expires answer _ =>
    obtain rfl := Option.some.inj hstep
    unfold Conn.forward
    dsimp only
    split_ifs
    · simp [Conn.note, Conn.trySend, Stream.dequeued, taken]
    · exact dequeued_append c.log [.resolved .translator answer]
    · exact dequeued_append c.log [.resolved .translator answer]
  · split_ifs at hstep
    obtain rfl := Option.some.inj hstep
    exact (List.append_nil _).symm
  · cases hstep

theorem translator_taskStep {label : ReadLoop.Label} (hstep : c.stepTranslator setup label = some c') :
    TaskStep setup (taken label) c c' :=
  ⟨translator_ops hstep, translator_dequeued hstep, fun htold => htold.translator hstep⟩

theorem Told.dropped {uuids : Uuids} (h : Told uuids c) : Told uuids { c with translator := .finished } :=
  h.ends rfl (List.append_nil _).symm rfl rfl

theorem task_step {label : ReadLoop.Label} (hlabel : ofTask label = true) (hstep : c.step setup label = some c') :
    TaskStep setup (taken label) c c' := by
  have hreader : taken label = [] → c.stepReader setup label = some c' → TaskStep setup (taken label) c c' := by
    intro hnone hreader
    rw [hnone]
    exact (reader_speaks hreader).taskStep
  cases label with
  | written | writerEnds | broadcast | disconnect => cases hlabel
  | tick | dropReader =>
      obtain rfl := Option.some.inj hstep
      refine Speaks.taskStep ?_
      exact .of_eq rfl rfl rfl
  | dropTranslator =>
      obtain rfl := Option.some.inj hstep
      exact ⟨⟨[], rfl⟩, (List.append_nil _).symm, Told.dropped⟩
  | event | eventsClosed | eventResolved | eventTimeout => exact translator_taskStep hstep
  | loop | disconnected | roomTxFailed | shutdown | frame | peerClosed | readError | sleepUntil | resolved
  | resolveTimeout | found | rooms | profile | admissionTimeout => exact hreader rfl hstep

end

/-! ## The outbound side -/

section
variable {β : Type} {g : Generated} {setup : Setup β} {config : ConnectionConfig} {s s' : State β}
  {history : List Net.SenderEvent}

/-- What the writer leaves alone. -/
structure WriterKeeps (c c' : Connection) : Prop where
  queue : c'.outbound.tx.queue <:+ c.outbound.tx.queue
  capacity : c'.outbound.tx.capacity = c.outbound.tx.capacity
  enqueued : c'.outbound.tx.enqueued = c.outbound.tx.enqueued
  disconnected : c'.outbound.disconnected = c.outbound.disconnected
  clones : c'.clones = c.clones
  history : c'.history = c.history

theorem stop_keeps (c : Connection) : WriterKeeps c c.stop := ⟨List.nil_suffix, rfl, rfl, rfl, rfl, rfl⟩

theorem writer_keeps {c c' : Connection} {label : ConnectionLabel} (hwriter : ofWriter label = true)
    (hstep : c.step config label = some c') : WriterKeeps c c' := by
  cases Connection.step_moved hstep with
  | clone | trySendFrame | disconnect | dropSender => cases hwriter
  | @recv frame tx hlive hwork hrecv =>
      obtain ⟨rest, hqueue, -, rfl⟩ := Channel.recv_eq hrecv
      exact ⟨hqueue ▸ List.suffix_cons frame rest, rfl, rfl, rfl, rfl, rfl⟩
  | write | flush | drain => exact ⟨List.suffix_rfl, rfl, rfl, rfl, rfl, rfl⟩
  | ioError | finish | cancel | deadline | abort => exact stop_keeps c

theorem writer_history {c c' : Connection} {label : ConnectionLabel} (hwriter : ofWriter label = true)
    (hstep : c.step config label = some c') (history : List Net.SenderEvent) :
    Connection.step config { c with history := history } label = some { c' with history := history } := by
  cases Connection.step_moved hstep with
  | clone | trySendFrame | disconnect | dropSender => cases hwriter
  | recv hlive hwork hrecv =>
      cases hphase : c.writer <;> simp_all [Connection.step, Connection.take]
  | write hlive hwork hpos hle =>
      cases hphase : c.writer <;> simp_all [Connection.step]
  | flush hlive hwork =>
      cases hphase : c.writer <;> simp_all [Connection.step]
  | ioError hlive hwork =>
      cases hphase : c.writer <;> simp_all [Connection.step, Connection.stop]
  | finish hlive hwork hdropped hempty =>
      cases hphase : c.writer <;> simp_all [Connection.step, Connection.stop, Connection.sendersDropped]
  | cancel hphase hmarked => simp [Connection.step, Connection.onSignal, Connection.stop, hphase, hmarked]
  | drain hphase hmarked hdropped =>
      simp_all [Connection.step, Connection.onSignal, Connection.sendersDropped]
  | deadline hphase => simp [Connection.step, Connection.stop, hphase]
  | abort hlive =>
      cases hphase : c.writer <;> simp_all [Connection.step, Connection.stop]

theorem drop_of_suffix {queue : List OutboundMessage} {rest : List Frame} (h : rest <:+ queue.map (frameOf g)) :
    (queue.drop (queue.length - rest.length)).map (frameOf g) = rest := by
  have hdrop := List.suffix_iff_eq_drop.mp h
  rw [List.length_map] at hdrop
  rw [List.map_drop]
  exact hdrop.symm

/-- **The tasks' queue follows the writer's.** -/
theorem net_follow {c : Connection} (h : WriterKeeps (s.net g []) c) :
    State.net g history { s with conn := follow s.conn c, work := c.work, writer := c.writer, socket := c.socket } =
      { c with history := history } := by
  obtain ⟨⟨⟨capacity, queue, receiver, enqueued⟩, disconnected⟩, clones, past, work, writer, socket⟩ := c
  obtain ⟨hqueue, rfl, rfl, rfl, rfl, -⟩ := h
  simp only [State.net, follow, OutboundSender.map, Channel.map, drop_of_suffix hqueue]

def Label.cutsOff : Label → Bool
  | .writer label => label.cutsOff
  | _ => false

/-- Some steps of `Net.Connection` do to the outbound side what was done here. -/
def Simulated (g : Generated) (config : ConnectionConfig) (cut : Bool) (s s' : State β) : Prop :=
  ∀ history, ∃ labels history',
    (Connection.system config).run (s.net g history) labels = some (s'.net g history') ∧
    ∀ label ∈ labels, label.cutsOff = true → cut = true

theorem Simulated.of_eq {cut : Bool} (houtbound : s'.conn.outbound = s.conn.outbound) (hsenders : s'.senders = s.senders)
    (hwork : s'.work = s.work) (hwriter : s'.writer = s.writer) (hsocket : s'.socket = s.socket) :
    Simulated g config cut s s' := by
  intro history
  refine ⟨[], history, ?_, by simp⟩
  simp only [State.net, houtbound, hsenders, hwork, hwriter, hsocket]
  rfl

theorem Simulated.trans {cut : Bool} {s'' : State β} (h : Simulated g config cut s s')
    (h' : Simulated g config cut s' s'') : Simulated g config cut s s'' := by
  intro history
  obtain ⟨labels, history', hrun, hcut⟩ := h history
  obtain ⟨labels', history'', hrun', hcut'⟩ := h' history'
  refine ⟨labels ++ labels', history'', ?_, List.forall_mem_append.mpr ⟨hcut, hcut'⟩⟩
  rw [TransitionSystem.run_append, hrun]
  exact hrun'

theorem simulated_op {cut : Bool} (hsenders : s.senders = true) (op : Op) :
    Simulated g config cut s { s with conn := { s.conn with outbound := op.apply s.conn.outbound } } := by
  intro history
  have halive : (s.net g history).alive 0 = true := by simp [State.net, Connection.alive, hsenders]
  cases op with
  | disconnect =>
      refine ⟨[.disconnect 0], history ++ [.disconnect 0], ?_, by simp [ConnectionLabel.cutsOff]⟩
      simp only [TransitionSystem.run, Connection.system, Connection.step, halive, if_true, Option.bind_some]
      rfl
  | say message =>
      refine ⟨[.trySendFrame 0 (frameOf g message)], history ++ [.trySendFrame 0 (frameOf g message)
        (s.conn.outbound.trySendFrame message).1], ?_, by simp [ConnectionLabel.cutsOff]⟩
      have hsent : (s.net g history).outbound.trySendFrame (frameOf g message) =
          ((s.conn.outbound.trySendFrame message).1, (s.conn.outbound.trySendFrame message).2.map (frameOf g)) :=
        OutboundSender.trySendFrame_map s.conn.outbound message
      simp only [TransitionSystem.run, Connection.system, Connection.step, halive, if_true, Option.bind_some, hsent]
      rfl

theorem simulated_ops {cut : Bool} (hsenders : s.senders = true) (ops : List Op) :
    Simulated g config cut s { s with conn := { s.conn with outbound := ops.foldl Op.apply s.conn.outbound } } := by
  induction ops generalizing s with
  | nil => exact .of_eq rfl rfl rfl rfl rfl
  | cons op ops ih => exact (simulated_op hsenders op).trans (ih hsenders)

theorem simulated_task {cut : Bool} {conn : Conn β} (hsenders : s.senders = true) {ops : List Op}
    (houtbound : conn.outbound = ops.foldl Op.apply s.conn.outbound) : Simulated g config cut s { s with conn := conn } :=
  (simulated_ops hsenders ops).trans (.of_eq houtbound rfl rfl rfl rfl)

theorem settle_fields (s : State β) : s.settle.conn = s.conn ∧ s.settle.senders = s.senders ∧ s.settle.work = s.work ∧
    s.settle.writer = s.writer ∧ s.settle.socket = s.socket := by
  unfold State.settle
  split_ifs <;> exact ⟨rfl, rfl, rfl, rfl, rfl⟩

theorem simulated_settle {cut : Bool} (s : State β) : Simulated g config cut s s.settle := by
  obtain ⟨hconn, hsenders, hwork, hwriter, hsocket⟩ := settle_fields s
  exact .of_eq (congrArg Conn.outbound hconn) hsenders hwork hwriter hsocket

/-! ## One step -/

theorem ready_ofTask {label : ReadLoop.Label} (h : s.ready label = true) : ofTask label = true ∧ taken label = [] := by
  cases label with
  | event | written | writerEnds | broadcast | disconnect => cases h
  | tick | dropReader | dropTranslator | eventsClosed | eventResolved | eventTimeout | loop | disconnected | roomTxFailed
  | shutdown | frame | peerClosed | readError | sleepUntil | resolved | resolveTimeout | found | rooms | profile
  | admissionTimeout => exact ⟨rfl, rfl⟩

theorem broadcast_speaks (c : Conn β) (notice : ServerShutdownNotice) :
    Speaks c { c with outbound := (c.outbound.trySendFrame (.shutdown notice)).2 } :=
  ⟨⟨[.say (.shutdown notice)], by simp [Op.Plain, notification], rfl⟩, rfl, rfl, rfl⟩

/-- **The outbound side runs as a connection of its own.** -/
theorem step_simulated {label : Label} (hstep : s.step g setup config label = some s') :
    Simulated g config label.cutsOff s s' := by
  cases label with
  | room label =>
      obtain ⟨-, hmap⟩ := Option.ite_none_right_eq_some.mp hstep
      obtain ⟨room, -, rfl⟩ := Option.map_eq_some_iff.mp hmap
      exact .of_eq rfl rfl rfl rfl rfl
  | event =>
      simp only [State.step] at hstep
      split at hstep
      · next event tx hsenders hrecv =>
        obtain ⟨conn, hconn, rfl⟩ := Option.map_eq_some_iff.mp hstep
        obtain ⟨ops, houtbound⟩ := (task_step rfl hconn).ops
        refine Simulated.trans (simulated_task hsenders houtbound) (Simulated.trans ?_ (simulated_settle _))
        exact .of_eq rfl rfl rfl rfl rfl
      · cases hstep
  | task label =>
      obtain ⟨hguard, hmap⟩ := Option.ite_none_right_eq_some.mp hstep
      obtain ⟨hsenders, hready⟩ := Bool.and_eq_true_iff.mp hguard
      obtain ⟨conn, hconn, rfl⟩ := Option.map_eq_some_iff.mp hmap
      obtain ⟨ops, houtbound⟩ := (task_step (ready_ofTask hready).1 hconn).ops
      exact (simulated_task hsenders houtbound).trans (simulated_settle _)
  | broadcast notice =>
      obtain ⟨hsenders, hmap⟩ := Option.ite_none_right_eq_some.mp hstep
      obtain ⟨conn, hconn, rfl⟩ := Option.map_eq_some_iff.mp hmap
      obtain rfl := Option.some.inj hconn
      exact simulated_op hsenders (.say (.shutdown notice))
  | release =>
      obtain ⟨⟨-, -, hsenders⟩, hsome⟩ := Option.ite_none_right_eq_some.mp hstep
      obtain rfl := Option.some.inj hsome
      intro history
      have halive : (s.net g history).alive 0 = true := by simp [State.net, Connection.alive, hsenders]
      refine ⟨[.dropSender 0], history, ?_, by simp [ConnectionLabel.cutsOff]⟩
      simp only [TransitionSystem.run, Connection.system, Connection.step, halive, if_true, Option.bind_some]
      rfl
  | writer label =>
      obtain ⟨hwriter, hmap⟩ := Option.ite_none_right_eq_some.mp hstep
      obtain ⟨c, hc, rfl⟩ := Option.map_eq_some_iff.mp hmap
      intro history
      refine ⟨[label], history, ?_, by simp [Label.cutsOff]⟩
      rw [net_follow (writer_keeps hwriter hc)]
      simp only [TransitionSystem.run, Connection.system]
      rw [show s.net g history = { s.net g [] with history := history } from rfl, writer_history hwriter hc history]
      rfl

/-- What every run keeps. -/
structure Inv (setup : Setup β) (s : State β) : Prop where
  room : Overflow.Inv s.room
  told : Told setup.uuids s.conn
  taken : s.room.obtained = dequeued s.conn.log

theorem Inv.settle (h : Inv setup s) : Inv setup s.settle := by
  unfold State.settle
  split_ifs
  · exact ⟨h.room.step (show s.room.step .dropReceiver = some _ from rfl), h.told, h.taken⟩
  · exact h

theorem room_obtained {room room' : Overflow.State} {label : Overflow.Label} (hroom : ofRoom label = true)
    (hstep : room.step label = some room') : room'.obtained = room.obtained := by
  cases label with
  | clone k | dropClone k | trySend k event =>
      obtain ⟨-, hsome⟩ := Option.ite_none_right_eq_some.mp hstep
      obtain rfl := Option.some.inj hsome
      rfl
  | recv | dropReceiver => cases hroom

theorem Inv.step {label : Label} (h : Inv setup s) (hstep : s.step g setup config label = some s') : Inv setup s' := by
  cases label with
  | room label =>
      obtain ⟨hroom, hmap⟩ := Option.ite_none_right_eq_some.mp hstep
      obtain ⟨room, hsink, rfl⟩ := Option.map_eq_some_iff.mp hmap
      exact ⟨h.room.step hsink, h.told, (room_obtained hroom hsink).trans h.taken⟩
  | event =>
      simp only [State.step] at hstep
      split at hstep
      · next event tx hsenders hrecv =>
        obtain ⟨conn, hconn, rfl⟩ := Option.map_eq_some_iff.mp hstep
        have htask := task_step rfl hconn
        have hroom : s.room.step .recv = some { s.room with
            sink := { s.room.sink with tx := tx }, obtained := s.room.obtained ++ [event] } := by
          simp only [Overflow.State.step, hrecv, Option.map_some]
        refine Inv.settle ⟨h.room.step hroom, htask.told h.told, ?_⟩
        exact (congrArg (· ++ [event]) h.taken).trans htask.dequeued.symm
      · cases hstep
  | task label =>
      obtain ⟨hguard, hmap⟩ := Option.ite_none_right_eq_some.mp hstep
      obtain ⟨-, hready⟩ := Bool.and_eq_true_iff.mp hguard
      obtain ⟨conn, hconn, rfl⟩ := Option.map_eq_some_iff.mp hmap
      obtain ⟨htask, hnone⟩ := ready_ofTask hready
      have hdone := task_step htask hconn
      refine Inv.settle ⟨h.room, hdone.told h.told, h.taken.trans ?_⟩
      rw [hdone.dequeued, hnone, List.append_nil]
  | broadcast notice =>
      obtain ⟨-, hmap⟩ := Option.ite_none_right_eq_some.mp hstep
      obtain ⟨conn, hconn, rfl⟩ := Option.map_eq_some_iff.mp hmap
      obtain rfl := Option.some.inj hconn
      exact ⟨h.room, h.told.speaks (broadcast_speaks s.conn notice), h.taken⟩
  | release =>
      obtain ⟨-, hsome⟩ := Option.ite_none_right_eq_some.mp hstep
      obtain rfl := Option.some.inj hsome
      exact ⟨h.room, h.told, h.taken⟩
  | writer label =>
      obtain ⟨-, hmap⟩ := Option.ite_none_right_eq_some.mp hstep
      obtain ⟨c, -, rfl⟩ := Option.map_eq_some_iff.mp hmap
      exact ⟨h.room, ⟨h.told.queued, h.told.order⟩, h.taken⟩

/-! ## Every run -/

variable {roomEventCapacity : Nat} {now deadline : Instant} {utcNow : Int} {bucket : Option β} {labels : List Label}

theorem init_inv : Inv setup (init config roomEventCapacity now deadline utcNow bucket) where
  room := Overflow.init_inv roomEventCapacity
  told := ⟨rfl, [], rfl, fun _ => rfl, fun _ _ _ _ h => by cases h⟩
  taken := rfl

theorem run_simulated {start : State β} (hrun : (system g setup config start).run s labels = some s') :
    Simulated g config (labels.any Label.cutsOff) s s' := by
  induction labels generalizing s with
  | nil =>
      obtain rfl := Option.some.inj hrun
      exact .of_eq rfl rfl rfl rfl rfl
  | cons label labels ih =>
      obtain ⟨t, hstep, hrest⟩ := Option.bind_eq_some_iff.mp hrun
      intro history
      obtain ⟨first, history', hfirst, hcut⟩ := step_simulated hstep history
      obtain ⟨later, history'', hlater, hcut'⟩ := ih hrest history'
      refine ⟨first ++ later, history'', ?_, List.forall_mem_append.mpr ⟨fun l hl h => ?_, fun l hl h => ?_⟩⟩
      · rw [TransitionSystem.run_append, hfirst]
        exact hlater
      · rw [List.any_cons, hcut l hl h, Bool.true_or]
      · rw [List.any_cons, hcut' l hl h, Bool.or_true]

/-- The frame of a message is not too long for `encode_frame`, or the writer skips it. -/
def fits (g : Generated) (config : ConnectionConfig) (message : OutboundMessage) : Bool :=
  decide ((frameOf g message).wireLen ≤ config.maxFrameSize)

theorem encodable_frames (messages : List OutboundMessage) :
    Net.encodable config.maxFrameSize (messages.map (frameOf g)) = (messages.filter (fits g config)).map (frameOf g) := by
  have hiff : ∀ message, (Net.encodeFrame (frameOf g message) config.maxFrameSize).isOk = fits g config message := by
    intro message
    unfold fits
    by_cases hle : (frameOf g message).wireLen ≤ config.maxFrameSize
    · rw [Net.encodeFrame_ok hle, decide_eq_true hle]
      rfl
    · rw [Net.encodeFrame, if_pos (Nat.lt_of_not_le hle), decide_eq_false hle]
      rfl
  rw [Net.encodable, List.filter_map]
  exact congrArg _ (List.filter_congr fun message _ => hiff message)

theorem decode_frames (hprost : g.Inverts) (messages : List OutboundMessage) :
    (messages.map (frameOf g)).map (clientCodec g).decode = messages.map .ok := by
  rw [List.map_map]
  refine List.map_congr_left fun message _ => ?_
  obtain ⟨frame, hencode, hdecode⟩ := gameCodec_clientCodec hprost message
  obtain rfl := Except.ok.inj ((encode_eq g message).symm.trans hencode)
  exact hdecode

/-- The messages that went into the outbound queue and fit. -/
def sent (g : Generated) (config : ConnectionConfig) (s : State β) : List OutboundMessage :=
  s.conn.outbound.tx.enqueued.filter (fits g config)

theorem sent_frames (h32 : config.maxFrameSize ≤ 2 ^ 32 - 1) (s : State β) :
    (∀ frame ∈ (sent g config s).map (frameOf g), ∃ bytes, Net.encodeFrame frame config.maxFrameSize = .ok bytes) ∧
    ∀ frame ∈ (sent g config s).map (frameOf g), frame.wireLen ≤ 2 ^ 32 - 1 := by
  constructor
  all_goals
    intro frame hframe
    obtain ⟨message, hmessage, rfl⟩ := List.mem_map.mp hframe
    have hle : (frameOf g message).wireLen ≤ config.maxFrameSize := of_decide_eq_true (List.mem_filter.mp hmessage).2
  · exact ⟨_, Net.encodeFrame_ok hle⟩
  · exact hle.trans h32

theorem framesRead_all {limit : Nat} (hlimit : config.maxFrameSize ≤ limit) {frames : List Frame}
    (hencodes : ∀ frame ∈ frames, ∃ bytes, Net.encodeFrame frame config.maxFrameSize = .ok bytes)
    (h32 : ∀ frame ∈ frames, frame.wireLen ≤ 2 ^ 32 - 1) (fault : Option Net.IoErrorKind) :
    Net.framesRead limit frames.length ⟨Net.wire config.maxFrameSize frames, fault⟩ = frames := by
  induction frames with
  | nil => rfl
  | cons frame frames ih =>
      obtain ⟨bytes, hbytes⟩ := hencodes frame List.mem_cons_self
      have hread := Net.readFrame_encode (h32 frame List.mem_cons_self) (Net.encodeFrame_mono hbytes hlimit)
        (Net.wire config.maxFrameSize frames) fault
      rw [Net.wire_ok hbytes, List.length_cons, Net.framesRead, hread]
      dsimp only
      rw [ih (fun f hf => hencodes f (List.mem_cons_of_mem _ hf)) fun f hf => h32 f (List.mem_cons_of_mem _ hf)]

theorem run_wire
    (hrun : (system g setup config (init config roomEventCapacity now deadline utcNow bucket)).run
      (init config roomEventCapacity now deadline utcNow bucket) labels = some s) :
    ∃ netLabels history, (Connection.system config).run (Connection.split config) netLabels = some (s.net g history) ∧
      (∀ label ∈ netLabels, label.cutsOff = true → labels.any Label.cutsOff = true) ∧
      Net.wire config.maxFrameSize (Net.accepted history) =
        Net.wire config.maxFrameSize ((sent g config s).map (frameOf g)) := by
  obtain ⟨netLabels, history, hnet, hcut⟩ := run_simulated hrun []
  replace hnet : (Connection.system config).run (Connection.split config) netLabels = some (s.net g history) := hnet
  refine ⟨netLabels, history, hnet, hcut, ?_⟩
  have hframes : Net.accepted history = s.conn.outbound.tx.enqueued.map (frameOf g) := (Connection.run_inv hnet).enqueued.symm
  rw [hframes, ← Net.wire_encodable, encodable_frames]
  rfl

/-- **What a client decodes** of the bytes it received is a front part of what was queued and fits. -/
theorem seen_front (hprost : g.Inverts) (h32 : config.maxFrameSize ≤ 2 ^ 32 - 1)
    (hrun : (system g setup config (init config roomEventCapacity now deadline utcNow bucket)).run
      (init config roomEventCapacity now deadline utcNow bucket) labels = some s) {received : List UInt8}
    (hreceived : received <+: s.socket) (limit reads : ℕ) (fault : Option Net.IoErrorKind) :
    ∃ seen, (Net.framesRead limit reads ⟨received, fault⟩).map (clientCodec g).decode = seen.map .ok ∧
      seen <+: sent g config s := by
  obtain ⟨netLabels, history, hnet, -, hwire⟩ := run_wire hrun
  obtain ⟨hencodes, hshort⟩ := sent_frames (g := g) h32 s
  have hbytes : (Net.ByteStream.mk received fault).bytes <+: Net.wire config.maxFrameSize ((sent g config s).map (frameOf g)) :=
    hwire ▸ hreceived.trans (Connection.run_inv hnet).delivered
  obtain ⟨rest, hrest⟩ := Net.framesRead_wire config.maxFrameSize limit reads hencodes hshort hbytes
  obtain ⟨seen, later, hsplit, hseen, -⟩ := List.map_eq_append_iff.mp hrest.symm
  exact ⟨seen, by rw [← hseen, decode_frames hprost], later, hsplit.symm⟩

/-- **A client that reads to the end**, after the writer of an undisturbed connection has ended. -/
theorem seen_all (hprost : g.Inverts) (h32 : config.maxFrameSize ≤ 2 ^ 32 - 1)
    (hrun : (system g setup config (init config roomEventCapacity now deadline utcNow bucket)).run
      (init config roomEventCapacity now deadline utcNow bucket) labels = some s)
    (hgentle : ∀ label ∈ labels, label.cutsOff = false) (hopen : s.conn.outbound.disconnected = false)
    (hended : s.writer = .ended) {limit : ℕ} (hlimit : config.maxFrameSize ≤ limit) :
    ∃ reads, (Net.framesRead limit reads ⟨s.socket, none⟩).map (clientCodec g).decode = (sent g config s).map .ok := by
  obtain ⟨netLabels, history, hnet, hcut, hwire⟩ := run_wire hrun
  have hgentle' : ∀ label ∈ netLabels, label.cutsOff = false := by
    intro label hlabel
    by_contra hcuts
    obtain ⟨l, hl, hlcuts⟩ := List.any_eq_true.mp (hcut label hlabel (by simpa using hcuts))
    rw [hgentle l hl] at hlcuts
    cases hlcuts
  have hwhole : (s.net g history).Whole config :=
    Connection.run_whole (Connection.split_inv config) (fun _ h => by cases h) hgentle' hnet
  have hsocket : s.socket = Net.wire config.maxFrameSize ((sent g config s).map (frameOf g)) :=
    (hwhole hopen hended).trans hwire
  obtain ⟨hencodes, hshort⟩ := sent_frames (g := g) h32 s
  refine ⟨((sent g config s).map (frameOf g)).length, ?_⟩
  rw [hsocket, framesRead_all hlimit hencodes hshort, decode_frames hprost]

/-- The notifications of the events that the sink took, as far as they fit. -/
def offered (g : Generated) (uuids : Uuids) (config : ConnectionConfig) (s : State β) : List RoomEventNotification :=
  ((Overflow.accepted s.room.calls).map (roomEventToNotification uuids)).filter fun n => fits g config (.roomEvent n)

theorem Inv.events (h : Inv setup s) : (sent g config s).filterMap notification <+: offered g setup.uuids config s := by
  have hsent : (sent g config s).filterMap notification =
      ((forwarded s.conn.log).map (roomEventToNotification setup.uuids)).filter fun n => fits g config (.roomEvent n) := by
    rw [← h.told.queued, sent]
    generalize s.conn.outbound.tx.enqueued = messages
    induction messages with
    | nil => rfl
    | cons message messages ih =>
        cases hfits : fits g config message <;> cases message <;>
          simp_all [notification, List.filterMap_cons]
  obtain ⟨rest, horder, -⟩ := h.told.order
  have hforwarded : forwarded s.conn.log <+: Overflow.accepted s.room.calls :=
    List.IsPrefix.trans ⟨rest, (h.taken.trans horder).symm⟩ h.room.front
  rw [hsent]
  exact (hforwarded.map _).filter _

theorem Inv.accepted_all (h : Inv setup s) (hfailed : s.room.sink.failed = false) :
    Overflow.accepted s.room.calls = s.room.calls.map Prod.fst := by
  have hall : ∀ call ∈ s.room.calls, call.2 = true := by
    intro call hcall
    by_contra hlost
    rw [h.room.failed.mpr ⟨call, hcall, by simpa using hlost⟩] at hfailed
    cases hfailed
  rw [Overflow.accepted, List.filter_eq_self.mpr hall]

/-- **What a client sees of the rooms.** Whatever the rooms, the client, the token store and the socket do: what a client
decodes of the bytes it received is a front part of the messages that were queued and fit a frame, in their order; the
room events among these are a front part of the events that the sink took, which are all that the rooms sent unless the
sink has failed; and once a writer that was not cut off, on a connection that was not marked as gone, has ended, a client
that reads on to the end decodes every message that was queued and fits. -/
theorem client_sees (hprost : g.Inverts) (h32 : config.maxFrameSize ≤ 2 ^ 32 - 1)
    (hrun : (system g setup config (init config roomEventCapacity now deadline utcNow bucket)).run
      (init config roomEventCapacity now deadline utcNow bucket) labels = some s) :
    (∀ received, received <+: s.socket → ∀ limit reads fault, ∃ seen,
      (Net.framesRead limit reads ⟨received, fault⟩).map (clientCodec g).decode = seen.map .ok ∧
      seen <+: sent g config s ∧ seen.filterMap notification <+: offered g setup.uuids config s) ∧
    (s.room.sink.failed = false → Overflow.accepted s.room.calls = s.room.calls.map Prod.fst) ∧
    ((∀ label ∈ labels, label.cutsOff = false) → s.conn.outbound.disconnected = false → s.writer = .ended →
      ∀ limit, config.maxFrameSize ≤ limit → ∃ reads,
        (Net.framesRead limit reads ⟨s.socket, none⟩).map (clientCodec g).decode = (sent g config s).map .ok) := by
  have hinv : Inv setup s := TransitionSystem.run_invariant (fun _ _ _ h hstep => h.step hstep) init_inv hrun
  refine ⟨fun received hreceived limit reads fault => ?_, hinv.accepted_all, fun hgentle hopen hended limit hlimit => ?_⟩
  · obtain ⟨seen, hdecode, hfront⟩ := seen_front hprost h32 hrun hreceived limit reads fault
    exact ⟨seen, hdecode, hfront, (hfront.filterMap _).trans hinv.events⟩
  · exact seen_all hprost h32 hrun hgentle hopen hended hlimit

end

def visitSetup : Setup Unit where
  prost := gameProto.prost
  uuids := ⟨fun _ => none, fun _ => "id"⟩
  tryAcquire bucket _ := (true, bucket)
  heartbeatTimeout := 30
  roomTx := 0

def visitStart : State Unit := init ⟨64, 4⟩ 4 0 10 0 none

/-- A client binds, a room that it is in closes, and it goes away; the writer drains its queue. -/
def visitLabels : List Label :=
  [.task .loop, .task (.frame ⟨opC2sBind, gameProto.bindRequest.encodeToVec ⟨"tok"⟩⟩), .task (.resolved (.ok (some ⟨1⟩))),
    .task (.found (.ok (some "a"))), .room (.trySend 0 (.closed ⟨7⟩ "done")), .event, .writer .recv,
    .task (.eventResolved (.ok (some ⟨1⟩))), .writer (.write 15), .writer .flush, .writer .recv, .writer (.write 18),
    .writer .flush, .task .loop, .task .peerClosed, .task .dropTranslator, .release, .writer .signal, .writer .finish]

theorem client_sees_visit : ∃ s, (system gameProto visitSetup ⟨64, 4⟩ visitStart).run visitStart visitLabels = some s ∧
    ∃ reads, (Net.framesRead 64 reads ⟨s.socket, none⟩).map (clientCodec gameProto).decode =
      [.ok (bindOk "id" "a"), .ok (.roomEvent ⟨some (.roomClosed "id" "done")⟩)] := by
  let s := ((system gameProto visitSetup ⟨64, 4⟩ visitStart).run visitStart visitLabels).get (by decide +kernel)
  have hrun : (system gameProto visitSetup ⟨64, 4⟩ visitStart).run visitStart visitLabels = some s :=
    (Option.some_get _).symm
  have hsent : sent gameProto ⟨64, 4⟩ s = [bindOk "id" "a", .roomEvent ⟨some (.roomClosed "id" "done")⟩] := by
    decide +kernel
  obtain ⟨reads, hseen⟩ := (client_sees gameProto_inverts (by decide) hrun).2.2 (by decide +kernel) (by decide +kernel)
    (by decide +kernel) 64 (Nat.le_refl 64)
  refine ⟨s, hrun, reads, ?_⟩
  rw [hseen, hsent]
  rfl

end LongshipX.Stream
