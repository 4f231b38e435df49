import LongshipX.Gateway.StreamDelivery

/-!
# Requests and replies

A connection with both directions of its socket: the read loop takes its frames off the bytes that the client has sent,
and what it answers goes through the outbound queue and the writer of `Stream`.

* `Transcript` : the exchanges of a connection, and what it made of the last frame; `task_advances` : every step of the
  tasks continues it;
* `Queued` : what the outbound queue has of the replies;
* `State.step`, `system` : a connection with both directions; `Kept.step` : what every step keeps;
* `requests_answered` : the requests are answered in their order, as the client sees it.
-/

namespace LongshipX.Dialogue
open Protocol ReadLoop Gateway LongshipX.Stream
open Net (Frame OutboundSender ByteStream Connection ConnectionConfig ConnectionLabel NetError)

/-! ## The transcript of a connection -/

/-- What a read loop has done: the exchanges, the frame that it read last if there is no exchange for it, what was called
for that one and what the room service answered, and what was said to the client when the loop ended. -/
structure Transcript where
  exchanges : List Exchange
  last : List (Except ProtocolError InboundMessage)
  handlers : List Handler
  returned : List Outcome
  closing : List OutboundMessage

namespace Transcript

def decoded (t : Transcript) : List (Except ProtocolError InboundMessage) :=
  t.exchanges.map (fun exchange => .ok exchange.request) ++ t.last

def called (t : Transcript) : List Handler := t.exchanges.flatMap Exchange.handlers ++ t.handlers

def outcomes (t : Transcript) : List Outcome := t.exchanges.flatMap Exchange.outcomes ++ t.returned

def said (t : Transcript) : List OutboundMessage := t.exchanges.filterMap Exchange.reply ++ t.closing

/-- No frame is in hand. -/
structure Idle (t : Transcript) : Prop where
  last : t.last = []
  handlers : t.handlers = []
  returned : t.returned = []
  closing : t.closing = []

/-- There is at most one frame without an exchange; what was called for it is its own handler; one answer of the room
service and one message more. -/
structure Ended (t : Transcript) : Prop where
  last : t.last.length ≤ 1
  handlers : t.handlers = [] ∨ ∃ request, t.last = [.ok request] ∧ Called request t.handlers
  returned : t.returned.length ≤ 1
  closing : t.closing.length ≤ 1

theorem Idle.ended {t : Transcript} (h : t.Idle) : t.Ended := by
  refine ⟨?_, .inl h.handlers, ?_, ?_⟩
  · rw [h.last]
    exact Nat.zero_le 1
  · rw [h.returned]
    exact Nat.zero_le 1
  · rw [h.closing]
    exact Nat.zero_le 1

end Transcript

/-- A message that answers a request, or tells why the connection ends: no room event, no notice to all connections, and
not the one that both tasks give when the session has ended. -/
def isReply : OutboundMessage → Bool
  | .roomEvent _ => false
  | .shutdown _ => false
  | message => decide (message ≠ sessionLost)

/-- The request that the reader works on. -/
structure InHand (uuids : Uuids) (auth : AuthState) (t : Transcript) (request : InboundMessage) : Prop where
  chain : Chain uuids .empty t.exchanges auth
  last : t.last = [.ok request]
  gated : Gated auth request t.handlers
  returned : t.returned = []
  closing : t.closing = []

/-- Where the reader is with the frame that it read last. -/
def At (uuids : Uuids) (auth : AuthState) (t : Transcript) : Reader → Prop
  | .top => t.Idle ∧ Chain uuids .empty t.exchanges auth
  | .selecting _ => t.Idle ∧ Chain uuids .empty t.exchanges auth
  | .admitting _ await => ∃ request, InHand uuids auth t request ∧ await.Serves uuids request t.handlers
  | .returned => t.Ended ∧ ∃ auth, Chain uuids .empty t.exchanges auth

section
variable {β : Type} {setup : Setup β} {c c' : Conn β} {t t' : Transcript}
  {frames : List (Except ProtocolError InboundMessage)}

theorem At.ended {uuids : Uuids} {auth : AuthState} {reader : Reader} (h : At uuids auth t reader) :
    t.Ended ∧ ∃ auth, Chain uuids .empty t.exchanges auth := by
  cases reader with
  | top | selecting => exact ⟨h.1.ended, auth, h.2⟩
  | returned => exact h
  | admitting =>
      obtain ⟨request, hhand, hserves⟩ := h
      refine ⟨⟨?_, .inr ⟨request, hhand.last, hserves.called⟩, ?_, ?_⟩, auth, hhand.chain⟩
      · rw [hhand.last]
        exact Nat.le_refl 1
      · rw [hhand.returned]
        exact Nat.zero_le 1
      · rw [hhand.closing]
        exact Nat.zero_le 1

theorem At.chain {uuids : Uuids} {auth : AuthState} {reader : Reader} (h : At uuids auth t reader) :
    ∃ auth', Chain uuids .empty t.exchanges auth' ∧ (reader ≠ .returned → auth' = auth) := by
  cases reader with
  | top | selecting => exact ⟨auth, h.2, fun _ => rfl⟩
  | returned =>
      obtain ⟨-, auth', hchain⟩ := h
      exact ⟨auth', hchain, fun hrunning => absurd rfl hrunning⟩
  | admitting =>
      obtain ⟨request, hhand, -⟩ := h
      exact ⟨auth, hhand.chain, fun _ => rfl⟩

/-- **The transcript of a connection**: the exchanges are in order one after the other, and the handlers called are those
of the log. -/
structure Serving (uuids : Uuids) (t : Transcript) (c : Conn β) : Prop where
  called : called c.log = t.called
  reader : At uuids c.auth t c.reader

/-- The outbound queue was offered what the transcript has more, or what is no reply, or it was marked as gone. -/
inductive Offers (t t' : Transcript) (c c' : Conn β) : Prop
  | adds (messages : List OutboundMessage) : t'.said = t.said ++ messages →
    c'.outbound = offer c.outbound messages → Offers t t' c c'
  | others (messages : List OutboundMessage) : (∀ message ∈ messages, isReply message = false) → t'.said = t.said →
    c'.outbound = offer c.outbound messages → Offers t t' c c'
  | gone : t'.said = t.said → c'.outbound = c.outbound.disconnect → Offers t t' c c'

theorem Offers.of_eq {u : Transcript} {d : Conn β} (h : Offers t t' c c') (hsaid : t.said = u.said)
    (houtbound : c.outbound = d.outbound) : Offers u t' d c' := by
  cases h with
  | adds messages hadds hout => exact .adds messages (hsaid ▸ hadds) (houtbound ▸ hout)
  | others messages hother hsame hout => exact .others messages hother (hsaid ▸ hsame) (houtbound ▸ hout)
  | gone hsame hout => exact .gone (hsaid ▸ hsame) (houtbound ▸ hout)

/-- **A step of the read loop**, which has taken these frames and these answers of the room service. -/
structure Advances (uuids : Uuids) (frames : List (Except ProtocolError InboundMessage)) (outcomes : List Outcome)
    (t t' : Transcript) (c c' : Conn β) : Prop where
  serving : Serving uuids t' c'
  decoded : t'.decoded = t.decoded ++ frames
  outcomes : t'.outcomes = t.outcomes ++ outcomes
  offers : Offers t t' c c'

theorem Serving.returns {uuids : Uuids} (h : Serving uuids t c) (last : List (Except ProtocolError InboundMessage))
    (closing : List OutboundMessage) (hended : ({ t with last := last, closing := closing } : Transcript).Ended)
    (hlast : last = t.last ++ frames) (hopen : t.closing = []) (hlog : ReadLoop.called c'.log = ReadLoop.called c.log)
    (hreader : c'.reader = .returned) (houtbound : c'.outbound = offer c.outbound closing) :
    Advances uuids frames [] t { t with last := last, closing := closing } c c' := by
  refine ⟨⟨hlog.trans h.called, ?_⟩, ?_, (List.append_nil _).symm, .adds closing ?_ houtbound⟩
  · rw [hreader]
    exact ⟨hended, h.reader.ended.2⟩
  · rw [Transcript.decoded, hlast, ← List.append_assoc]
    rfl
  · rw [Transcript.said, Transcript.said, hopen, List.append_nil]

theorem proceed_fields (limit : Option Instant) (r : Conn β × Progress) :
    (Conn.proceed limit r).log = r.1.log ∧ (Conn.proceed limit r).outbound = r.1.outbound ∧
      (Conn.proceed limit r).auth = r.1.auth := by
  obtain ⟨c, _ | _⟩ := r
  · next proceed => cases proceed <;> exact ⟨rfl, rfl, rfl⟩
  · exact ⟨rfl, rfl, rfl⟩

/-- **A piece of the work on a request** ends its exchange, ends the loop, or waits. -/
theorem advances_piece {request : InboundMessage} {outcomes : List Outcome} {r : Conn β × Progress} (limit : Option Instant)
    (hhand : InHand setup.uuids c.auth t request) (hcalled : ReadLoop.called c.log = t.called)
    (hpiece : Piece setup.uuids c.auth request t.handlers outcomes c r) :
    ∃ t', Advances setup.uuids [] outcomes t t' c (Conn.proceed limit r) := by
  obtain ⟨acts, hconn, -, hgate, hleads⟩ := hpiece
  obtain ⟨auth, heq⟩ := acts_eq c acts
  rw [← hconn] at heq
  obtain ⟨hlog, houtbound, hauth⟩ := proceed_fields limit r
  rw [heq] at hlog houtbound
  have hcalled' : ReadLoop.called (Conn.proceed limit r).log =
      t.exchanges.flatMap Exchange.handlers ++ (t.handlers ++ ReadLoop.called (notes acts)) := by
    rw [hlog, called_append, hcalled, Transcript.called, List.append_assoc]
  have hgated : Gated c.auth request (t.handlers ++ ReadLoop.called (notes acts)) := fun hopcode hbound => by
    rw [hhand.gated hopcode hbound, hgate hopcode hbound, List.append_nil]
  have hdecoded : t.decoded = t.exchanges.map (fun exchange => .ok exchange.request) ++ [.ok request] := by
    rw [Transcript.decoded, hhand.last]
  have houtcomes : t.outcomes = t.exchanges.flatMap Exchange.outcomes := by
    rw [Transcript.outcomes, hhand.returned, List.append_nil]
  have hsaid : t.said = t.exchanges.filterMap Exchange.reply := by rw [Transcript.said, hhand.closing, List.append_nil]
  obtain ⟨conn, progress⟩ := r
  dsimp only at hleads houtbound hauth
  generalize said acts = messages at hleads houtbound
  generalize t.handlers ++ ReadLoop.called (notes acts) = handlers at hleads hcalled' hgated
  cases hleads with
  | waits hserves hsame hnone =>
      rw [hsame] at hauth
      refine ⟨{ t with handlers := handlers }, ⟨hcalled', request, ?_, hserves⟩, (List.append_nil _).symm, ?_,
        .adds [] (List.append_nil _).symm houtbound⟩
      · rw [hauth]
        exact ⟨hhand.chain, hhand.last, hgated, hhand.returned, hhand.closing⟩
      · rw [hnone, List.append_nil]
        rfl
  | @answered reply hdone =>
      refine ⟨⟨t.exchanges ++ [⟨request, handlers, outcomes, reply⟩], [], [], [], []⟩,
        ⟨?_, ⟨rfl, rfl, rfl, rfl⟩, hauth ▸ hhand.chain.concat hdone hgated⟩, ?_, ?_, .adds reply.toList ?_ houtbound⟩
      · rw [hcalled', Transcript.called, List.append_nil, List.flatMap_append, List.flatMap_singleton]
      · rw [hdecoded, Transcript.decoded, List.map_append, List.append_nil, List.append_nil, List.map_singleton]
      · rw [houtcomes, Transcript.outcomes, List.append_nil, List.flatMap_append, List.flatMap_singleton]
      · rw [hsaid, Transcript.said, List.append_nil, List.filterMap_append]
        cases reply <;> rfl
  | @unsent reply hdone =>
      refine ⟨{ t with handlers := handlers, returned := outcomes, closing := [reply] }, ⟨hcalled', ?_, _, hhand.chain⟩,
        (List.append_nil _).symm, ?_, .adds [reply] ?_ houtbound⟩
      · exact ⟨by rw [hhand.last]; rfl, .inr ⟨request, hhand.last, hdone.called⟩, hdone.outcomes_length, Nat.le_refl 1⟩
      · rw [houtcomes]
        rfl
      · rw [hsaid]
        rfl
  | @refused notification hnone hno =>
      refine ⟨{ t with handlers := handlers, closing := [.error notification] }, ⟨hcalled', ?_, _, hhand.chain⟩,
        (List.append_nil _).symm, ?_, .adds [.error notification] ?_ houtbound⟩
      · exact ⟨by rw [hhand.last]; rfl, .inl hnone, by rw [hhand.returned]; exact Nat.zero_le 1, Nat.le_refl 1⟩
      · rw [hno, List.append_nil]
        rfl
      · rw [hsaid]
        rfl

def received (setup : Setup β) : ReadLoop.Label → List (Except ProtocolError InboundMessage)
  | .frame frame => [decode setup.prost frame]
  | _ => []

theorem admitted_fields (c : Conn β) : ReadLoop.called ((c.note (.admitted c.now)).acquire setup).2.log =
    ReadLoop.called c.log ∧ ((c.note (.admitted c.now)).acquire setup).2.outbound = c.outbound ∧
      ((c.note (.admitted c.now)).acquire setup).2.auth = c.auth := by
  have hcalled : ReadLoop.called (c.note (.admitted c.now)).log = ReadLoop.called c.log :=
    (called_append _ _).trans (List.append_nil _)
  unfold Conn.acquire
  split
  · exact ⟨hcalled, rfl, rfl⟩
  · exact ⟨hcalled, rfl, rfl⟩

/-- **A frame is taken.** -/
theorem advances_frame (h : Serving setup.uuids t c) (hidle : t.Idle) (hchain : Chain setup.uuids .empty t.exchanges c.auth)
    (frame : Frame) (limit : Option Instant) :
    ∃ t', Advances setup.uuids (received setup (.frame frame)) [] t t' c
      (Conn.proceed limit ((c.note (.admitted c.now)).admitFrame setup frame)) := by
  obtain ⟨hcalled, houtbound, hauth⟩ := @admitted_fields β setup c
  have hlast : [decode setup.prost frame] = t.last ++ received setup (.frame frame) := by
    rw [hidle.last]
    rfl
  obtain ⟨code, message, hreject⟩ | ⟨-, request, hdecode, hpiece⟩ :=
    @piece_admitFrame β setup (c.note (.admitted c.now)) frame
  · rw [hreject]
    refine ⟨_, h.returns [decode setup.prost frame] [errorNotification code message] ?_ hlast hidle.closing hcalled rfl ?_⟩
    · exact ⟨Nat.le_refl 1, .inl hidle.handlers, hidle.ended.returned, Nat.le_refl 1⟩
    · rw [← houtbound]
      rfl
  · rw [← hauth] at hchain
    have hhand : InHand setup.uuids ((c.note (.admitted c.now)).acquire setup).2.auth { t with last := [.ok request] }
        request := ⟨hchain, rfl, fun _ _ => hidle.handlers, hidle.returned, hidle.closing⟩
    rw [← hidle.handlers] at hpiece
    obtain ⟨t', hserving, hdecoded, houtcomes, hoffers⟩ := advances_piece limit hhand (hcalled.trans h.called) hpiece
    refine ⟨t', hserving, ?_, houtcomes, hoffers.of_eq rfl houtbound⟩
    rw [hdecoded, List.append_nil, Transcript.decoded, Transcript.decoded, hidle.last, List.append_nil, ← hdecode]
    rfl

theorem advances_select (h : Serving setup.uuids t c) (hidle : t.Idle) (hchain : Chain setup.uuids .empty t.exchanges c.auth)
    {deadline : Instant} {label : ReadLoop.Label} (hstep : c.stepSelect setup deadline label = some c') :
    ∃ t', Advances setup.uuids (received setup label) (answerOf label) t t' c c' := by
  have hends : ∀ closing, closing.length ≤ 1 →
      ({ t with last := t.last, closing := closing } : Transcript).Ended := fun closing hone =>
    ⟨hidle.ended.last, hidle.ended.handlers, hidle.ended.returned, hone⟩
  have hlast : t.last = t.last ++ [] := (List.append_nil _).symm
  unfold Conn.stepSelect at hstep
  split at hstep
  · split_ifs at hstep
    obtain rfl := Option.some.inj hstep
    exact ⟨_, h.returns t.last [] (hends _ (Nat.zero_le 1)) hlast hidle.closing rfl rfl rfl⟩
  · obtain rfl := Option.some.inj hstep
    exact ⟨t, ⟨h.called, hidle.ended, _, hchain⟩, (List.append_nil _).symm, (List.append_nil _).symm, .gone rfl rfl⟩
  · obtain rfl := Option.some.inj hstep
    exact ⟨_, h.returns t.last [_] (hends _ (Nat.le_refl 1)) hlast hidle.closing rfl rfl rfl⟩
  · next frame =>
    split_ifs at hstep
    · obtain rfl := Option.some.inj hstep
      refine ⟨_, h.returns [decode setup.prost frame] [timedOut] ?_ ?_ hidle.closing rfl rfl rfl⟩
      · exact ⟨Nat.le_refl 1, .inl hidle.handlers, hidle.ended.returned, Nat.le_refl 1⟩
      · rw [hidle.last]
        rfl
    · obtain rfl := Option.some.inj hstep
      exact advances_frame h hidle hchain frame (c.limit deadline)
  · obtain rfl := Option.some.inj hstep
    exact ⟨_, h.returns t.last [] (hends _ (Nat.zero_le 1)) hlast hidle.closing rfl rfl rfl⟩
  · split_ifs at hstep
    · obtain rfl := Option.some.inj hstep
      exact ⟨_, h.returns t.last [] (hends _ (Nat.zero_le 1)) hlast hidle.closing rfl rfl rfl⟩
    · split at hstep
      · obtain rfl := Option.some.inj hstep
        exact ⟨_, h.returns t.last [_] (hends _ (Nat.le_refl 1)) hlast hidle.closing rfl rfl rfl⟩
      · obtain rfl := Option.some.inj hstep
        exact ⟨_, h.returns t.last [_] (hends _ (Nat.le_refl 1)) hlast hidle.closing rfl rfl rfl⟩
  · split_ifs at hstep
    obtain rfl := Option.some.inj hstep
    exact ⟨_, h.returns t.last [timedOut] (hends _ (Nat.le_refl 1)) hlast hidle.closing rfl rfl rfl⟩
  · cases hstep

theorem received_resume {await : Await} {label : ReadLoop.Label} {r : Conn β × Progress}
    (hresume : c.resume setup await label = some r) : received setup label = [] := by
  unfold Conn.resume at hresume
  split at hresume
  all_goals
    first
    | rfl
    | cases hresume

/-- **Every step of the read loop continues the transcript.** -/
theorem reader_advances (h : Serving setup.uuids t c) {label : ReadLoop.Label}
    (hstep : c.stepReader setup label = some c') :
    ∃ t', Advances setup.uuids (received setup label) (answerOf label) t t' c c' := by
  have hreader := h.reader
  unfold Conn.stepReader at hstep
  split at hstep
  · next htop =>
    obtain rfl := Option.some.inj hstep
    rw [htop] at hreader
    exact ⟨t, ⟨h.called, hreader⟩, (List.append_nil _).symm, (List.append_nil _).symm, .adds [] (List.append_nil _).symm rfl⟩
  · next hselecting =>
    rw [hselecting] at hreader
    exact advances_select h hreader.1 hreader.2 hstep
  · next hadmitting =>
    split_ifs at hstep
    obtain rfl := Option.some.inj hstep
    rw [hadmitting] at hreader
    obtain ⟨hended, -⟩ := At.ended hreader
    obtain ⟨request, hhand, -⟩ := hreader
    refine ⟨_, h.returns t.last [timedOut] ?_ (List.append_nil _).symm hhand.closing rfl rfl rfl⟩
    exact ⟨hended.last, hended.handlers, hended.returned, Nat.le_refl 1⟩
  · next limit await hadmitting _ =>
    rw [hadmitting] at hreader
    obtain ⟨request, hhand, hserves⟩ := hreader
    obtain ⟨r, hresume, rfl⟩ := Option.map_eq_some_iff.mp hstep
    rw [received_resume hresume]
    exact advances_piece limit hhand h.called (piece_resume hserves hresume)
  · cases hstep

theorem translator_advances (h : Serving setup.uuids t c) {label : ReadLoop.Label}
    (hstep : c.stepTranslator setup label = some c') : Advances setup.uuids [] [] t t c c' := by
  obtain ⟨messages, hmessages, houtbound, hreader, hauth, hcalled⟩ := translator_offers hstep
  refine ⟨⟨hcalled.trans h.called, hauth ▸ hreader ▸ h.reader⟩, (List.append_nil _).symm, (List.append_nil _).symm,
    .others messages (fun message hmem => ?_) rfl houtbound⟩
  obtain rfl | ⟨notification, rfl⟩ := hmessages message hmem
  · rfl
  · rfl

theorem Serving.unchanged {uuids : Uuids} (h : Serving uuids t c) (hlog : c'.log = c.log)
    (houtbound : c'.outbound = c.outbound) (hreader : At uuids c'.auth t c'.reader) : Advances uuids [] [] t t c c' :=
  ⟨⟨hlog ▸ h.called, hreader⟩, (List.append_nil _).symm, (List.append_nil _).symm,
    .adds [] (List.append_nil _).symm houtbound⟩

/-- **Every step of the tasks continues the transcript.** -/
theorem task_advances (h : Serving setup.uuids t c) {label : ReadLoop.Label} (hlabel : ofTask label = true)
    (hstep : c.step setup label = some c') :
    ∃ t', Advances setup.uuids (received setup label) (answerOf label) t t' c c' := by
  cases label with
  | written | writerEnds | broadcast | disconnect => cases hlabel
  | tick | dropTranslator =>
      obtain rfl := Option.some.inj hstep
      exact ⟨t, h.unchanged rfl rfl h.reader⟩
  | dropReader =>
      obtain rfl := Option.some.inj hstep
      exact ⟨t, h.unchanged rfl rfl h.reader.ended⟩
  | event | eventsClosed | eventResolved | eventTimeout => exact ⟨t, translator_advances h hstep⟩
  | loop | disconnected | roomTxFailed | shutdown | frame | peerClosed | readError | sleepUntil | resolved
  | resolveTimeout | found | rooms | profile | admissionTimeout => exact reader_advances h hstep

/-- Only a running loop takes a step, and one that gets no frame from the socket ends. -/
theorem reader_running {label : ReadLoop.Label} (hstep : c.stepReader setup label = some c') : c.reader ≠ .returned := by
  intro hreturned
  simp [Conn.stepReader, hreturned] at hstep

/-! ## What the outbound queue has of it -/

def replies (messages : List OutboundMessage) : List OutboundMessage := messages.filter isReply

/-- **What was queued of the replies**: a front part of what was said, and all of it on a connection that is not marked as
gone while the receiver is there, or if nothing cuts the writer off. -/
structure Queued (gentle : Prop) (senders : Bool) (sender : OutboundSender OutboundMessage) (said : List OutboundMessage) :
    Prop where
  front : replies sender.tx.enqueued <+: replies said
  whole : sender.disconnected = false → sender.tx.receiver = true ∨ gentle → replies sender.tx.enqueued = replies said
  alive : gentle → sender.disconnected = false → senders = true → sender.tx.receiver = true

section
variable {gentle : Prop} {senders : Bool} {sender : OutboundSender OutboundMessage} {said : List OutboundMessage}

theorem Queued.say (h : Queued gentle true sender said) (message : OutboundMessage) :
    Queued gentle true (sender.trySendFrame message).2 (said ++ [message]) := by
  have hsplit : replies (said ++ [message]) = replies said ++ replies [message] := List.filter_append ..
  obtain ⟨hclosed, hsent⟩ | ⟨-, hsent⟩ | ⟨hopen, hsent⟩ := sender.trySendFrame_cases message
  · rw [hsent]
    refine ⟨h.front.trans (hsplit ▸ List.prefix_append _ _), fun hflag hreceiver => ?_, h.alive⟩
    have hreceiver' : sender.tx.receiver = true := hreceiver.elim id fun hgentle => h.alive hgentle hflag rfl
    rw [OutboundSender.isClosed, hflag, hreceiver'] at hclosed
    cases hclosed
  · rw [hsent]
    refine ⟨h.front.trans (hsplit ▸ List.prefix_append _ _), fun hflag => ?_, fun _ hflag => ?_⟩
    · cases hflag
    · cases hflag
  · have hflag : sender.disconnected = false ∧ sender.tx.receiver = true := by simp_all [OutboundSender.isClosed]
    have hall : replies (sender.tx.enqueued ++ [message]) = replies (said ++ [message]) := by
      rw [hsplit, ← h.whole hflag.1 (.inl hflag.2)]
      exact List.filter_append ..
    rw [hsent]
    exact ⟨hall ▸ List.prefix_rfl, fun _ _ => hall, h.alive⟩

theorem Queued.offer (h : Queued gentle true sender said) (messages : List OutboundMessage) :
    Queued gentle true (ReadLoop.offer sender messages) (said ++ messages) := by
  induction messages generalizing sender said with
  | nil => rwa [List.append_nil]
  | cons message messages ih =>
      have hrest := ih (h.say message)
      rwa [List.append_assoc, List.singleton_append] at hrest

theorem Queued.of_replies {said' : List OutboundMessage} (h : Queued gentle senders sender said)
    (hsaid : replies said' = replies said) : Queued gentle senders sender said' :=
  ⟨hsaid ▸ h.front, fun hflag hor => (h.whole hflag hor).trans hsaid.symm, h.alive⟩

theorem Queued.disconnect (h : Queued gentle senders sender said) : Queued gentle senders sender.disconnect said :=
  ⟨h.front, fun hflag => (by cases hflag), fun _ hflag => (by cases hflag)⟩

theorem replies_none {messages : List OutboundMessage} (h : ∀ message ∈ messages, isReply message = false) :
    replies (said ++ messages) = replies said := by
  have hnone : replies messages = [] := List.filter_eq_nil_iff.mpr fun message hmem => by
    rw [h message hmem]
    exact Bool.false_ne_true
  rw [replies, List.filter_append, ← replies, ← replies, hnone, List.append_nil]

/-- **The queue follows the transcript.** -/
theorem Queued.advances (h : Queued gentle true c.outbound t.said) (hoffers : Offers t t' c c') :
    Queued gentle true c'.outbound t'.said := by
  cases hoffers with
  | adds messages hsaid houtbound =>
      rw [hsaid, houtbound]
      exact h.offer messages
  | others messages hother hsaid houtbound =>
      rw [hsaid, houtbound]
      exact (h.offer messages).of_replies (replies_none hother).symm
  | gone hsaid houtbound =>
      rw [hsaid, houtbound]
      exact h.disconnect

end

end

/-! ## Both directions -/

/-- `read_frame` has given these frames, one after the other, and left the rest of the stream. -/
inductive Consumed (maxFrameSize : ℕ) : ByteStream → List Frame → ByteStream → Prop
  | nil {s : ByteStream} : Consumed maxFrameSize s [] s
  | cons {s mid rest : ByteStream} {frame : Frame} {frames : List Frame} :
    Net.readFrame maxFrameSize s = (.ok (some frame), mid) → Consumed maxFrameSize mid frames rest →
    Consumed maxFrameSize s (frame :: frames) rest

section
variable {maxFrameSize : ℕ} {input mid rest : ByteStream} {frame : Frame} {frames : List Frame}

theorem Consumed.concat (h : Consumed maxFrameSize input frames mid)
    (hread : Net.readFrame maxFrameSize mid = (.ok (some frame), rest)) :
    Consumed maxFrameSize input (frames ++ [frame]) rest := by
  induction h with
  | nil => exact .cons hread .nil
  | cons hfirst _ ih => exact .cons hfirst (ih hread)

theorem Consumed.framesRead (h : Consumed maxFrameSize input frames rest) :
    Net.framesRead maxFrameSize frames.length input = frames := by
  induction h with
  | nil => rfl
  | cons hfirst _ ih =>
      rw [List.length_cons, Net.framesRead, hfirst]
      dsimp only
      rw [ih]

end

/-- A connection with the bytes that its client has sent and the loop has not read. -/
structure State (β : Type) where
  stream : Stream.State β
  input : ByteStream

inductive Label where
  /-- `read_frame` returns to the `select!`; `text` is what an error prints. -/
  | read (text : String)
  | other (label : Stream.Label)

/-- What the loop makes of the result of `read_frame`. -/
def arrival (text : String) : Except NetError (Option Frame) → ReadLoop.Label
  | .ok (some frame) => .frame frame
  | .ok none => .peerClosed
  | .error err => .readError err text

/-- The step is one of the `read_frame` branch. -/
def ofRead : Stream.Label → Bool
  | .task (.frame _) | .task .peerClosed | .task (.readError _ _) => true
  | _ => false

section
variable {β : Type}

def State.step (g : Generated) (setup : Setup β) (config : ConnectionConfig) (s : State β) : Label → Option (State β)
  | .read text =>
    let (result, rest) := Net.readFrame config.maxFrameSize s.input
    (s.stream.step g setup config (.task (arrival text result))).map fun stream => ⟨stream, rest⟩
  | .other label =>
    if ofRead label then none else (s.stream.step g setup config label).map fun stream => { s with stream := stream }

def system (g : Generated) (setup : Setup β) (config : ConnectionConfig) (start : State β) :
    TransitionSystem (State β) Label where
  init := start
  step := State.step g setup config

/-- What the room service answers. -/
def Label.answers : Label → List Outcome
  | .other (.task label) => answerOf label
  | _ => []

def Label.cutsOff : Label → Bool
  | .read _ => false
  | .other label => label.cutsOff

variable {g : Generated} {setup : Setup β} {config : ConnectionConfig} {gentle : Prop} {input : ByteStream}
  {s s' : State β} {t t' : Transcript} {frames : List Frame} {outcomes : List Outcome}

/-- **What every run keeps**: a transcript of the frames that were read and of what the room service answered. -/
structure Kept (setup : Setup β) (config : ConnectionConfig) (gentle : Prop) (input : ByteStream) (t : Transcript)
    (frames : List Frame) (outcomes : List Outcome) (s : State β) : Prop where
  serving : Serving setup.uuids t s.stream.conn
  queued : Queued gentle s.stream.senders s.stream.conn.outbound t.said
  decoded : t.decoded = frames.map (decode setup.prost)
  outcomes : t.outcomes = outcomes
  consumed : ∃ rest, Consumed config.maxFrameSize input frames rest ∧ (s.stream.conn.reader ≠ .returned → rest = s.input)

theorem Kept.other {answers : List Outcome} (h : Kept setup config gentle input t frames outcomes s)
    (hinput : s'.input = s.input) (hadvances : Advances setup.uuids [] answers t t' s.stream.conn s'.stream.conn)
    (hqueued : Queued gentle s'.stream.senders s'.stream.conn.outbound t'.said)
    (hreturned : s.stream.conn.reader = .returned → s'.stream.conn.reader = .returned) :
    Kept setup config gentle input t' frames (outcomes ++ answers) s' := by
  obtain ⟨rest, hconsumed, hrest⟩ := h.consumed
  refine ⟨hadvances.serving, hqueued, ?_, hadvances.outcomes.trans (by rw [h.outcomes]), rest, hconsumed, fun hrunning => ?_⟩
  · rw [hadvances.decoded, List.append_nil, h.decoded]
  · rw [hinput]
    exact hrest fun hended => hrunning (hreturned hended)

theorem step_returned {c c' : Conn β} {label : ReadLoop.Label} (hlabel : ofTask label = true)
    (hstep : c.step setup label = some c') (hreturned : c.reader = .returned) : c'.reader = .returned := by
  have hnone : ∀ label, c.stepReader setup label = some c' → c'.reader = .returned := fun label hreader =>
    absurd hreturned (reader_running hreader)
  have htranslator : ∀ label, c.stepTranslator setup label = some c' → c'.reader = .returned := fun label htranslator => by
    obtain ⟨-, -, -, hreader, -, -⟩ := translator_offers htranslator
    rw [hreader, hreturned]
  cases label with
  | written | writerEnds | broadcast | disconnect => cases hlabel
  | tick | dropTranslator =>
      obtain rfl := Option.some.inj hstep
      exact hreturned
  | dropReader =>
      obtain rfl := Option.some.inj hstep
      rfl
  | event | eventsClosed | eventResolved | eventTimeout => exact htranslator _ hstep
  | loop | disconnected | roomTxFailed | shutdown | frame | peerClosed | readError | sleepUntil | resolved
  | resolveTimeout | found | rooms | profile | admissionTimeout => exact hnone _ hstep

theorem resume_read {c : Conn β} {await : Await} {label : ReadLoop.Label} (hlabel : ofRead (.task label) = true) :
    c.resume setup await label = none := by
  unfold Conn.resume
  split
  all_goals
    first
    | cases hlabel
    | rfl

/-- `read_frame` is called from the `select!`, and the loop ends if it gives no frame. -/
theorem read_selecting {c c' : Conn β} {label : ReadLoop.Label} (hlabel : ofRead (.task label) = true)
    (hstep : c.stepReader setup label = some c') : ∃ deadline, c.stepSelect setup deadline label = some c' := by
  unfold Conn.stepReader at hstep
  split at hstep
  · cases hlabel
  · exact ⟨_, hstep⟩
  · cases hlabel
  · rw [resume_read hlabel] at hstep
    cases hstep
  · cases hstep

theorem select_returned {c c' : Conn β} {deadline : Instant} {text : String} {result : Except NetError (Option Frame)}
    (hstep : c.stepSelect setup deadline (arrival text result) = some c') :
    (∃ frame, result = .ok (some frame)) ∨ c'.reader = .returned := by
  match result with
  | .ok (some frame) => exact .inl ⟨frame, rfl⟩
  | .ok none =>
    obtain rfl := Option.some.inj hstep
    exact .inr rfl
  | .error err =>
    simp only [arrival, Conn.stepSelect] at hstep
    split_ifs at hstep
    · obtain rfl := Option.some.inj hstep
      exact .inr rfl
    · split at hstep
      · obtain rfl := Option.some.inj hstep
        exact .inr rfl
      · obtain rfl := Option.some.inj hstep
        exact .inr rfl

/-- **The loop reads.** -/
theorem Kept.read (h : Kept setup config gentle input t frames outcomes s) {text : String}
    (hstep : s.step g setup config (.read text) = some s') :
    ∃ t' frames', Kept setup config gentle input t' frames' outcomes s' := by
  simp only [State.step] at hstep
  generalize hread : Net.readFrame config.maxFrameSize s.input = read at hstep
  obtain ⟨result, rest⟩ := read
  obtain ⟨stream, hstream, rfl⟩ := Option.map_eq_some_iff.mp hstep
  obtain ⟨hguard, hmap⟩ := Option.ite_none_right_eq_some.mp hstream
  obtain ⟨hsenders, -⟩ := Bool.and_eq_true_iff.mp hguard
  obtain ⟨conn, hconn, rfl⟩ := Option.map_eq_some_iff.mp hmap
  obtain ⟨hlabel, hreader⟩ : ofRead (.task (arrival text result)) = true ∧
      s.stream.conn.stepReader setup (arrival text result) = some conn := by
    match result with
    | .ok (some frame) => exact ⟨rfl, hconn⟩
    | .ok none => exact ⟨rfl, hconn⟩
    | .error err => exact ⟨rfl, hconn⟩
  obtain ⟨t', hadvances⟩ := reader_advances h.serving hreader
  obtain ⟨deadline, hselect⟩ := read_selecting hlabel hreader
  obtain ⟨left, hconsumed, hleft⟩ := h.consumed
  obtain rfl := hleft (reader_running hreader)
  obtain ⟨hsettled, hsettled', -⟩ := settle_fields { s.stream with conn := conn }
  have hqueued : Queued gentle s.stream.senders conn.outbound t'.said := by
    have hbefore := h.queued
    rw [hsenders] at hbefore ⊢
    exact hbefore.advances hadvances.offers
  have hdecoded : t'.decoded = frames.map (decode setup.prost) ++ received setup (arrival text result) := by
    rw [hadvances.decoded, h.decoded]
  have houtcomes : t'.outcomes = outcomes := by
    rw [hadvances.outcomes, h.outcomes, show answerOf (arrival text result) = [] by rcases result with _ | _ | _ <;> rfl,
      List.append_nil]
  by_cases hframe : ∃ frame, result = .ok (some frame)
  · obtain ⟨frame, rfl⟩ := hframe
    refine ⟨t', frames ++ [frame], hsettled ▸ hadvances.serving, ?_, ?_, houtcomes, rest, hconsumed.concat hread, fun _ => rfl⟩
    · rw [hsettled, hsettled']
      exact hqueued
    · rw [hdecoded, List.map_append]
      rfl
  · have hreturned : conn.reader = .returned := (select_returned hselect).resolve_left hframe
    have hnone : received setup (arrival text result) = [] := by
      match result with
      | .ok (some frame) => exact absurd ⟨frame, rfl⟩ hframe
      | .ok none => rfl
      | .error err => rfl
    refine ⟨t', frames, hsettled ▸ hadvances.serving, ?_, ?_, houtcomes, s.input, hconsumed, fun hrunning => ?_⟩
    · rw [hsettled, hsettled']
      exact hqueued
    · rw [hdecoded, hnone, List.append_nil]
    · rw [hsettled] at hrunning
      exact absurd hreturned hrunning

theorem writer_receiver {c c' : Connection} {label : ConnectionLabel} (hwriter : ofWriter label = true)
    (hstep : c.step config label = some c') : c'.outbound.tx.receiver = c.outbound.tx.receiver ∨
      c'.outbound.tx.receiver = false ∧
        (label.cutsOff = true ∨ c.outbound.disconnected = true ∨ c.sendersDropped = true) := by
  cases Connection.step_moved hstep with
  | clone | trySendFrame | disconnect | dropSender => cases hwriter
  | @recv frame tx hlive hwork hrecv =>
      obtain ⟨rest, -, -, rfl⟩ := Channel.recv_eq hrecv
      exact .inl rfl
  | write | flush | drain => exact .inl rfl
  | ioError | deadline | abort => exact .inr ⟨rfl, .inl rfl⟩
  | finish hlive hwork hdropped hempty => exact .inr ⟨rfl, .inr (.inr hdropped)⟩
  | cancel hphase hmarked => exact .inr ⟨rfl, .inr (.inl hmarked)⟩

theorem Queued.writer {said : List OutboundMessage} {c : Connection} {label : ConnectionLabel}
    (h : Queued gentle s.stream.senders s.stream.conn.outbound said) (hwriter : ofWriter label = true)
    (hstep : (s.stream.net g []).step config label = some c) (hgentle : label.cutsOff = true → ¬ gentle) :
    Queued gentle s.stream.senders (follow s.stream.conn c).outbound said := by
  have hreceiver : c.outbound.tx.receiver = true → s.stream.conn.outbound.tx.receiver = true := by
    intro hlive
    obtain hsame | ⟨hdropped, -⟩ := writer_receiver hwriter hstep
    · exact hsame.symm.trans hlive
    · rw [hdropped] at hlive
      cases hlive
  refine ⟨h.front, fun hflag hor => h.whole hflag (hor.imp_left hreceiver), fun hyes hflag hsenders => ?_⟩
  obtain hsame | ⟨-, hcut | hmarked | hdropped⟩ := writer_receiver hwriter hstep
  · exact hsame.trans (h.alive hyes hflag hsenders)
  · exact absurd hyes (hgentle hcut)
  · have hmarked' : s.stream.conn.outbound.disconnected = true := hmarked
    rw [show (follow s.stream.conn c).outbound.disconnected = s.stream.conn.outbound.disconnected from rfl, hmarked'] at hflag
    cases hflag
  · simp [State.net, Connection.sendersDropped, hsenders] at hdropped

theorem settled (stream : Stream.State β) (h : Kept setup config gentle input t frames outcomes { s with stream := stream }) :
    Kept setup config gentle input t frames outcomes { s with stream := stream.settle } := by
  obtain ⟨hconn, hsenders, -⟩ := settle_fields stream
  refine ⟨?_, ?_, h.decoded, h.outcomes, ?_⟩
  · rw [hconn]
    exact h.serving
  · rw [hconn, hsenders]
    exact h.queued
  · rw [hconn]
    exact h.consumed

/-- **Every step keeps a transcript.** -/
theorem Kept.step (h : Kept setup config gentle input t frames outcomes s) {label : Label}
    (hgentle : label.cutsOff = true → ¬ gentle) (hstep : s.step g setup config label = some s') :
    ∃ t' frames', Kept setup config gentle input t' frames' (outcomes ++ label.answers) s' := by
  cases label with
  | read text =>
      rw [show (Label.read text).answers = [] from rfl, List.append_nil]
      exact h.read hstep
  | other label =>
      obtain ⟨hlabel, hmap⟩ := Option.ite_none_left_eq_some.mp hstep
      obtain ⟨stream, hstream, rfl⟩ := Option.map_eq_some_iff.mp hmap
      have hsame := h.serving.unchanged rfl rfl h.serving.reader
      cases label with
      | room label =>
          obtain ⟨-, hroom⟩ := Option.ite_none_right_eq_some.mp hstream
          obtain ⟨room, -, rfl⟩ := Option.map_eq_some_iff.mp hroom
          exact ⟨t, frames, h.other rfl hsame h.queued id⟩
      | event =>
          simp only [Stream.State.step] at hstream
          split at hstream
          · next event tx hsenders hrecv =>
            obtain ⟨conn, hconn, rfl⟩ := Option.map_eq_some_iff.mp hstream
            have hadvances := translator_advances h.serving hconn
            have hqueued := h.queued
            rw [hsenders] at hqueued
            refine ⟨t, frames, settled _ (h.other rfl hadvances ?_ (step_returned rfl hconn))⟩
            exact hsenders.symm ▸ hqueued.advances hadvances.offers
          · cases hstream
      | task label =>
          obtain ⟨hguard, htasks⟩ := Option.ite_none_right_eq_some.mp hstream
          obtain ⟨hsenders, hready⟩ := Bool.and_eq_true_iff.mp hguard
          obtain ⟨conn, hconn, rfl⟩ := Option.map_eq_some_iff.mp htasks
          obtain ⟨htask, -⟩ := ready_ofTask hready
          obtain ⟨t', hadvances⟩ := task_advances h.serving htask hconn
          have hnone : received setup label = [] := by
            cases label with
            | frame frame => exact absurd rfl hlabel
            | _ => rfl
          rw [hnone] at hadvances
          have hqueued := h.queued
          rw [hsenders] at hqueued
          refine ⟨t', frames, settled _ (h.other rfl hadvances ?_ (step_returned htask hconn))⟩
          exact hsenders.symm ▸ hqueued.advances hadvances.offers
      | broadcast notice =>
          obtain ⟨hsenders, hsent⟩ := Option.ite_none_right_eq_some.mp hstream
          obtain ⟨conn, hconn, rfl⟩ := Option.map_eq_some_iff.mp hsent
          obtain rfl := Option.some.inj hconn
          have hqueued := h.queued
          rw [hsenders] at hqueued
          have hadvances : Advances setup.uuids [] [] t t s.stream.conn
              { s.stream.conn with outbound := (s.stream.conn.outbound.trySendFrame (.shutdown notice)).2 } :=
            ⟨⟨h.serving.called, h.serving.reader⟩, (List.append_nil _).symm, (List.append_nil _).symm,
              .others [.shutdown notice] (List.forall_mem_singleton.mpr rfl) rfl rfl⟩
          refine ⟨t, frames, h.other rfl hadvances ?_ id⟩
          exact hsenders.symm ▸ hqueued.advances hadvances.offers
      | release =>
          obtain ⟨-, hsome⟩ := Option.ite_none_right_eq_some.mp hstream
          obtain rfl := Option.some.inj hsome
          exact ⟨t, frames, h.other rfl hsame ⟨h.queued.front, h.queued.whole, fun _ _ hno => by cases hno⟩ id⟩
      | writer label =>
          obtain ⟨hwriter, hnet⟩ := Option.ite_none_right_eq_some.mp hstream
          obtain ⟨c, hc, rfl⟩ := Option.map_eq_some_iff.mp hnet
          have hanswers : t.outcomes = outcomes ++ [] := h.outcomes.trans (List.append_nil _).symm
          exact ⟨t, frames, ⟨h.serving.called, h.serving.reader⟩, h.queued.writer hwriter hc hgentle, h.decoded, hanswers,
            h.consumed⟩

/-! ## Every run -/

variable {roomEventCapacity : ℕ} {now deadline : Instant} {utcNow : Int} {bucket : Option β} {labels : List Label}

def start (config : ConnectionConfig) (roomEventCapacity : ℕ) (now deadline : Instant) (utcNow : Int) (bucket : Option β)
    (input : ByteStream) : State β := ⟨init config roomEventCapacity now deadline utcNow bucket, input⟩

theorem start_kept : Kept setup config gentle input ⟨[], [], [], [], []⟩ [] []
    (start config roomEventCapacity now deadline utcNow bucket input) where
  serving := ⟨rfl, ⟨rfl, rfl, rfl, rfl⟩, rfl⟩
  queued := ⟨List.prefix_rfl, fun _ _ => rfl, fun _ _ _ => rfl⟩
  decoded := rfl
  outcomes := rfl
  consumed := ⟨input, .nil, fun _ => rfl⟩

theorem run_kept (gentle : Prop) {first : State β} (hgentle : ∀ label ∈ labels, label.cutsOff = true → ¬ gentle)
    (h : Kept setup config gentle input t frames outcomes s) (hrun : (system g setup config first).run s labels = some s') :
    ∃ t' frames', Kept setup config gentle input t' frames' (outcomes ++ labels.flatMap Label.answers) s' := by
  induction labels generalizing s t frames outcomes with
  | nil =>
      obtain rfl := Option.some.inj hrun
      exact ⟨t, frames, by rwa [List.flatMap_nil, List.append_nil]⟩
  | cons label labels ih =>
      obtain ⟨mid, hstep, hrest⟩ := Option.bind_eq_some_iff.mp hrun
      obtain ⟨t₁, frames₁, h₁⟩ := h.step (hgentle label List.mem_cons_self) hstep
      obtain ⟨t', frames', h'⟩ := ih (fun l hl => hgentle l (List.mem_cons_of_mem label hl)) h₁ hrest
      exact ⟨t', frames', by rwa [List.flatMap_cons, ← List.append_assoc]⟩

theorem run_stream {first : State β} (hrun : (system g setup config first).run s labels = some s') :
    ∃ streamLabels, (Stream.system g setup config first.stream).run s.stream streamLabels = some s'.stream ∧
      ((∀ label ∈ labels, label.cutsOff = false) → ∀ label ∈ streamLabels, label.cutsOff = false) := by
  induction labels generalizing s with
  | nil =>
      obtain rfl := Option.some.inj hrun
      exact ⟨[], rfl, fun _ => List.forall_mem_nil _⟩
  | cons label labels ih =>
      obtain ⟨mid, hstep, hrest⟩ := Option.bind_eq_some_iff.mp hrun
      obtain ⟨streamLabels, hstream, hcut⟩ := ih hrest
      obtain ⟨first', hfirst, hsame⟩ : ∃ first', s.stream.step g setup config first' = some mid.stream ∧
          first'.cutsOff = label.cutsOff := by
        cases label with
        | read text =>
            obtain ⟨stream, hread, rfl⟩ := Option.map_eq_some_iff.mp hstep
            exact ⟨_, hread, rfl⟩
        | other label =>
            obtain ⟨-, hmap⟩ := Option.ite_none_left_eq_some.mp hstep
            obtain ⟨stream, hother, rfl⟩ := Option.map_eq_some_iff.mp hmap
            exact ⟨label, hother, rfl⟩
      refine ⟨first' :: streamLabels, ?_, fun hgentle => List.forall_mem_cons.mpr ⟨?_, ?_⟩⟩
      · rw [TransitionSystem.run, show (Stream.system g setup config first.stream).step = Stream.State.step g setup config from rfl,
          hfirst]
        exact hstream
      · exact hsame.trans (hgentle label List.mem_cons_self)
      · exact hcut fun l hl => hgentle l (List.mem_cons_of_mem label hl)

/-- What a client writes with its codec is a wire of frames that decode to its requests. -/
theorem sendAll_wire (hprost : g.Inverts) {clientMax : ℕ} {requests : List InboundMessage} {bytes : List UInt8}
    (hsend : (clientCodec g).sendAll clientMax requests = .ok bytes) :
    ∃ frames, frames.map (decode g.prost) = requests.map .ok ∧ bytes = Net.wire clientMax frames ∧
      ∀ frame ∈ frames, ∃ bytes, Net.encodeFrame frame clientMax = .ok bytes := by
  induction requests generalizing bytes with
  | nil =>
      obtain rfl := Except.ok.inj hsend
      exact ⟨[], rfl, rfl, List.forall_mem_nil _⟩
  | cons request requests ih =>
      rw [Net.Codec.sendAll] at hsend
      split at hsend
      · next front back hfront hback =>
        obtain rfl := Except.ok.inj hsend
        obtain ⟨frames, hdecode, rfl, hencodes⟩ := ih hback
        rw [Net.Codec.send] at hfront
        split at hfront
        · next frame hencode =>
          have hknown : ∀ opcode, request ≠ .unknown opcode := by
            rintro opcode rfl
            cases hencode
          obtain ⟨frame', hencode', hdecode'⟩ := clientCodec_gameCodec hprost hknown
          obtain rfl := Except.ok.inj (hencode.symm.trans hencode')
          cases hbytes : Net.encodeFrame frame clientMax with
          | error err =>
              rw [hbytes] at hfront
              cases hfront
          | ok encoded =>
              rw [hbytes] at hfront
              obtain rfl := Except.ok.inj hfront
              refine ⟨frame :: frames, ?_, (Net.wire_ok hbytes frames).symm, List.forall_mem_cons.mpr ⟨⟨_, hbytes⟩, hencodes⟩⟩
              rw [List.map_cons, List.map_cons, hdecode]
              exact congrArg (· :: requests.map .ok) hdecode'
        · cases hfront
      · cases hsend
      · cases hsend

theorem Kept.in_order (h : Kept setup config gentle input t frames outcomes s) (hprost : g.Inverts) (hsetup : setup.prost = g.prost)
    {clientMax : ℕ} (h32 : clientMax ≤ 2 ^ 32 - 1) {requests : List InboundMessage} {bytes : List UInt8}
    (hsend : (clientCodec g).sendAll clientMax requests = .ok bytes) (hinput : input.bytes <+: bytes) :
    t.exchanges.map Exchange.request <+: requests := by
  obtain ⟨written, hdecode, rfl, hencodes⟩ := sendAll_wire hprost hsend
  have hshort : ∀ frame ∈ written, frame.wireLen ≤ 2 ^ 32 - 1 := by
    intro frame hframe
    obtain ⟨encoded, hencoded⟩ := hencodes frame hframe
    exact (Net.wireLen_le_of_encodeFrame hencoded).trans h32
  obtain ⟨rest, hconsumed, -⟩ := h.consumed
  have hfront : frames <+: written := by
    have hread := Net.framesRead_wire clientMax config.maxFrameSize frames.length hencodes hshort hinput
    rwa [hconsumed.framesRead] at hread
  have hdecoded : t.decoded <+: requests.map .ok := by
    rw [h.decoded, hsetup, ← hdecode]
    exact hfront.map _
  have hinjective : Function.Injective (Except.ok : InboundMessage → Except ProtocolError InboundMessage) :=
    fun _ _ heq => Except.ok.inj heq
  refine (List.prefix_map_iff_of_injective hinjective).mp ?_
  rw [List.map_map]
  exact (List.prefix_append _ t.last).trans hdecoded

theorem replies_sent (stream : Stream.State β) :
    replies (sent g config stream) = (replies stream.conn.outbound.tx.enqueued).filter (fits g config) := by
  rw [replies, replies, sent, List.filter_filter, List.filter_filter]
  exact List.filter_congr fun message _ => Bool.and_comm _ _

/-- **Requests are answered in order.** Whatever the client, its bytes, the rooms, the token store and the socket do: the
loop works through the requests that it reads, one after the other, each in the authentication state to which those before
it have led. The router has called for each exactly the handler of its opcode, if any, but none for a `BIND` on a bound
connection; what the room service has answered are the answers that it gave in the run, in this order; and the reply is one
that this request may get after that answer, an error for an error, and none only for a success. Only the last one that was
read may lack its exchange, and the loop may say one thing more when it ends. A client that writes with its codec finds the
exchanges to be those of the first requests that it sent. What it decodes of the bytes it received contains a front part of
these replies (those that fit a frame), in this order, and nothing else but room events and notices; while the loop waits
for a frame, all that it read is answered, and queued if the queue is open; and once the writer of an undisturbed
connection has ended, a client that reads to the end gets all of them. -/
theorem requests_answered (hprost : g.Inverts) (hsetup : setup.prost = g.prost) (h32 : config.maxFrameSize ≤ 2 ^ 32 - 1)
    (hrun : (system g setup config (start config roomEventCapacity now deadline utcNow bucket input)).run
      (start config roomEventCapacity now deadline utcNow bucket input) labels = some s) :
    ∃ t : Transcript,
      (∃ auth, Chain setup.uuids .empty t.exchanges auth ∧ (s.stream.conn.reader ≠ .returned → auth = s.stream.conn.auth)) ∧
      t.Ended ∧ called s.stream.conn.log = t.called ∧ labels.flatMap Label.answers = t.outcomes ∧
      (∃ reads, (Net.framesRead config.maxFrameSize reads input).map (gameCodec g).decode = t.decoded) ∧
      (∀ clientMax ≤ 2 ^ 32 - 1, ∀ requests bytes, (clientCodec g).sendAll clientMax requests = .ok bytes →
        input.bytes <+: bytes → t.exchanges.map Exchange.request <+: requests) ∧
      (∀ received, received <+: s.stream.socket → ∀ limit reads fault, ∃ seen,
        (Net.framesRead limit reads ⟨received, fault⟩).map (clientCodec g).decode = seen.map .ok ∧
        replies seen <+: (replies t.said).filter (fits g config)) ∧
      ((s.stream.conn.reader = .top ∨ ∃ deadline, s.stream.conn.reader = .selecting deadline) → t.Idle ∧
        (s.stream.conn.outbound.isClosed = false → replies s.stream.conn.outbound.tx.enqueued = replies t.said)) ∧
      ((∀ label ∈ labels, label.cutsOff = false) → s.stream.conn.outbound.disconnected = false → s.stream.writer = .ended →
        ∀ limit, config.maxFrameSize ≤ limit → ∃ reads seen,
          (Net.framesRead limit reads ⟨s.stream.socket, none⟩).map (clientCodec g).decode = seen.map .ok ∧
          replies seen = (replies t.said).filter (fits g config)) := by
  obtain ⟨t, frames, hkept⟩ := run_kept (∀ label ∈ labels, label.cutsOff = false)
    (fun label hlabel hcut hgentle => by rw [hgentle label hlabel] at hcut; cases hcut) start_kept hrun
  obtain ⟨streamLabels, hstream, hcut⟩ := run_stream hrun
  obtain ⟨rest, hconsumed, -⟩ := hkept.consumed
  have hqueued := hkept.queued
  refine ⟨t, hkept.serving.reader.chain, hkept.serving.reader.ended.1, hkept.serving.called, hkept.outcomes.symm,
    ⟨frames.length, ?_⟩, fun clientMax hmax requests bytes hsend hinput => hkept.in_order hprost hsetup hmax hsend hinput,
    fun received hreceived limit reads fault => ?_, fun hwaits => ⟨?_, fun hopen => ?_⟩,
    fun hgentle hopen hended limit hlimit => ?_⟩
  · rw [hconsumed.framesRead, hkept.decoded, hsetup]
    rfl
  · obtain ⟨seen, hdecode, hfront⟩ := seen_front hprost h32 hstream hreceived limit reads fault
    refine ⟨seen, hdecode, (hfront.filter isReply).trans ?_⟩
    rw [← replies, replies_sent]
    exact hqueued.front.filter _
  · have hreader := hkept.serving.reader
    obtain htop | ⟨deadline, hselecting⟩ := hwaits
    · rw [htop] at hreader
      exact hreader.1
    · rw [hselecting] at hreader
      exact hreader.1
  · have hlive : s.stream.conn.outbound.disconnected = false ∧ s.stream.conn.outbound.tx.receiver = true := by
      simp_all [OutboundSender.isClosed]
    exact hqueued.whole hlive.1 (.inl hlive.2)
  · obtain ⟨reads, hseen⟩ := seen_all hprost h32 hstream (hcut hgentle) hopen hended hlimit
    refine ⟨reads, sent g config s.stream, hseen, ?_⟩
    rw [replies_sent, hqueued.whole hopen (.inr hgentle)]

end

def askRequests : List InboundMessage := [.bind ⟨"tok"⟩, .joinRoom ⟨none⟩, .bind ⟨"tok"⟩, .joinRoom ⟨none⟩]

def askBytes : List UInt8 :=
  [0, 0, 0, 7, 0, 1, 10, 3, 116, 111, 107, 0, 0, 0, 2, 0, 16, 0, 0, 0, 7, 0, 1, 10, 3, 116, 111, 107, 0, 0, 0, 2, 0, 16]

def askStart : State Unit := start ⟨64, 4⟩ 4 0 10 7 none ⟨askBytes, none⟩

/-- The room service is busy the first time; at the end the client hangs up, and the writer drains its queue. -/
def askLabels : List Label :=
  [.other (.task .loop), .read "", .other (.task (.resolved (.ok (some ⟨1⟩)))), .other (.task (.found (.ok (some "a")))),
    .other (.task .loop), .read "", .other (.task (.resolved (.ok (some ⟨1⟩)))), .other (.task (.rooms (.error .busy))),
    .other (.task .loop), .read "", .other (.task (.resolved (.ok (some ⟨1⟩)))),
    .other (.task .loop), .read "", .other (.task (.resolved (.ok (some ⟨1⟩)))), .other (.task (.rooms (.ok (some ⟨7⟩)))),
    .other (.task .loop), .read "", .other (.task .dropTranslator), .other .release, .other (.writer .signal),
    .other (.writer .recv), .other (.writer (.write 15)), .other (.writer .flush), .other (.writer .recv),
    .other (.writer (.write 39)), .other (.writer .flush), .other (.writer .recv), .other (.writer (.write 32)),
    .other (.writer .flush), .other (.writer .finish)]

theorem requests_answered_ask : ∃ s, (system gameProto visitSetup ⟨64, 4⟩ askStart).run askStart askLabels = some s ∧
    ∃ t : Transcript, (∃ auth, Chain visitSetup.uuids .empty t.exchanges auth) ∧ t.called = [.bind, .joinRoom, .joinRoom] ∧
      t.outcomes = [.error .busy, .ok (some ⟨7⟩)] ∧ t.exchanges.map Exchange.request <+: askRequests ∧ ∃ reads seen,
        (Net.framesRead 64 reads ⟨s.stream.socket, none⟩).map (clientCodec gameProto).decode = seen.map .ok ∧
        replies seen = (replies t.said).filter (fits gameProto ⟨64, 4⟩) := by
  let s := ((system gameProto visitSetup ⟨64, 4⟩ askStart).run askStart askLabels).get (by decide +kernel)
  have hrun : (system gameProto visitSetup ⟨64, 4⟩ askStart).run askStart askLabels = some s := (Option.some_get _).symm
  have hcalled : called s.stream.conn.log = [.bind, .joinRoom, .joinRoom] := by decide +kernel
  have hsend : (clientCodec gameProto).sendAll 64 askRequests = .ok askBytes := by decide +kernel
  obtain ⟨t, ⟨auth, hchain, -⟩, -, hlog, hanswers, -, horder, -, -, hall⟩ :=
    requests_answered gameProto_inverts rfl (by decide) hrun
  refine ⟨s, hrun, t, ⟨auth, hchain⟩, hlog.symm.trans hcalled, hanswers.symm,
    horder 64 (by decide) askRequests askBytes hsend List.prefix_rfl, ?_⟩
  exact hall (by decide +kernel) (by decide +kernel) (by decide +kernel) 64 (Nat.le_refl 64)

end LongshipX.Dialogue
