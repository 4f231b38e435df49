import LongshipX.Gateway.ReadLoop

/-!
# What the read loop does with a request

One account of every piece of `admit_frame`, from one await to the next: the events it notes, the messages it offers to
the outbound queue, and what it makes of the request in hand. What other modules need of these pieces follows from it.

* `Act`, `Conn.acts` : what a piece does to the connection, in its order; `acts_eq` : the fields that this changes;
* `Exchange.Sound` : the reply that a request gets, from which handler, after which answer of the room service, and the
authentication state before and after; `Chain` : one exchange after the other;
* `Piece` : a piece of the work on one request; `piece_admitFrame`, `piece_resume` : `admit_frame` consists of them.
-/

namespace LongshipX.ReadLoop
open Protocol Gateway
open Net (Frame OutboundSender)
open Service (Op)

/-! ## What a piece does -/

/-- What a task does to its connection between two awaits. -/
inductive Act where
  | note (event : Event)
  | say (message : OutboundMessage)
  | store (auth : AuthState)

variable {β : Type}

def Conn.act (c : Conn β) : Act → Conn β
  | .note event => c.note event
  | .say message => (c.trySend message).2
  | .store auth => { c with auth := auth }

def Conn.acts (c : Conn β) (acts : List Act) : Conn β := acts.foldl Conn.act c

def notes (acts : List Act) : List Event := acts.filterMap fun
  | .note event => some event
  | _ => none

def said (acts : List Act) : List OutboundMessage := acts.filterMap fun
  | .say message => some message
  | _ => none

/-- The outbound queue after these messages were offered to it. -/
def offer (sender : OutboundSender OutboundMessage) (messages : List OutboundMessage) : OutboundSender OutboundMessage :=
  messages.foldl (fun sender message => (sender.trySendFrame message).2) sender

def called (log : List Event) : List Handler := log.filterMap fun
  | .dispatched handler => some handler
  | _ => none

theorem called_append (log events : List Event) : called (log ++ events) = called log ++ called events :=
  List.filterMap_append

/-- **What a piece leaves alone**, and what becomes of the rest. -/
theorem acts_eq (c : Conn β) (acts : List Act) : ∃ auth, c.acts acts =
    { c with auth := auth, log := c.log ++ notes acts, outbound := offer c.outbound (said acts) } := by
  induction acts generalizing c with
  | nil => exact ⟨c.auth, by rw [show notes [] = [] from rfl, List.append_nil]; rfl⟩
  | cons act acts ih =>
      obtain ⟨auth, hacts⟩ := ih (c.act act)
      refine ⟨auth, hacts.trans ?_⟩
      cases act with
      | note event =>
          rw [show notes (.note event :: acts) = [event] ++ notes acts from rfl, ← List.append_assoc]
          rfl
      | say message => rfl
      | store auth => rfl

/-- An event within a piece: none that opens or ends a task's work. -/
def Event.Inner : Event → Prop
  | .resolve _ _ | .resolved _ _ | .dispatched _ | .authed _ _ => True
  | .admitted _ | .dequeued _ | .forwarded _ => False

/-! ## Requests and replies -/

abbrev Outcome := Except AppError (Option RoomId)

/-- What the handler of a request may reply without the room service. -/
inductive Replies : InboundMessage → OutboundMessage → Prop
  | bind {request : BindRequest} {text : String} : Replies (.bind request) (bindRejected text)
  | heartbeat {ping : HeartbeatPing} {ack : HeartbeatAck} : Replies (.heartbeat ping) (.heartbeatAck ack)
  | profile {request : GetProfileRequest} {response : ProfileResponse} : Replies (.getProfile request) (.profile response)
  | error {request : InboundMessage} {notification : ErrorNotification} : Replies request (.error notification)

/-- The calls of the room service that a request may lead to, and the handler that makes them. -/
inductive RoomCall (uuids : Uuids) : InboundMessage → Handler → Op → Prop
  | join {request : JoinRoomRequest} {target : Option RoomId} {player : PlayerId} {nickname : String} {sink : SinkId} :
    RoomCall uuids (.joinRoom request) .joinRoom (.joinOrCreate target player nickname sink)
  | leave {request : LeaveRoomRequest} {room : RoomId} {player : PlayerId} {reason : String} :
    parseOptionalRoomId uuids request.roomId = .ok (some room) →
    RoomCall uuids (.leaveRoom request) .leaveRoom (.leave room player reason)
  | leaveAll {request : LeaveRoomRequest} {player : PlayerId} {reason : String} :
    parseOptionalRoomId uuids request.roomId = .ok none →
    RoomCall uuids (.leaveRoom request) .leaveRoom (.leaveAll player reason)
  | chat {request : RoomChatRequest} {room : RoomId} {player : PlayerId} {text : String} :
    RoomCall uuids (.roomChat request) .roomChat (.chat room player text)

/-- A request, the handlers that were called for it, what the room service answered them, and the reply. -/
structure Exchange where
  request : InboundMessage
  handlers : List Handler
  outcomes : List Outcome
  reply : Option OutboundMessage
  deriving DecidableEq

/-- **An exchange that is in order**, with the authentication state before and after it. Only a request of rooms that
succeeds has no reply: a join of the room that the connection is in, or one that the room service has answered. -/
inductive Exchange.Sound (uuids : Uuids) (auth : AuthState) : Exchange → AuthState → Prop
  | replied {request : InboundMessage} {handler : Handler} {message : OutboundMessage} : route request = .ok handler →
    Replies request message → Sound uuids auth ⟨request, [handler], [], some message⟩ auth
  | binds {request : BindRequest} {player : AuthedPlayer} {token : String} : Sound uuids auth
      ⟨.bind request, [.bind], [], some (bindOk (uuids.toText player.playerId.uuid) player.nickname)⟩
      (auth.setAuthed player token)
  | rejoins {request : JoinRoomRequest} {room : RoomId} : parseOptionalRoomId uuids request.roomId = .ok (some room) →
    auth.currentRoom = some room → Sound uuids auth ⟨.joinRoom request, [.joinRoom], [], none⟩ auth
  | joins {request : JoinRoomRequest} {room : RoomId} : Sound uuids auth
      ⟨.joinRoom request, [.joinRoom], [.ok (some room)], none⟩ (auth.setCurrentRoom (some room))
  | leaves {request : LeaveRoomRequest} {room : RoomId} : parseOptionalRoomId uuids request.roomId = .ok (some room) →
    Sound uuids auth ⟨.leaveRoom request, [.leaveRoom], [.ok none], none⟩
      (if auth.currentRoom = some room then auth.setCurrentRoom none else auth)
  | leavesAll {request : LeaveRoomRequest} : parseOptionalRoomId uuids request.roomId = .ok none →
    Sound uuids auth ⟨.leaveRoom request, [.leaveRoom], [.ok none], none⟩ (auth.setCurrentRoom none)
  | chats {request : RoomChatRequest} : Sound uuids auth ⟨.roomChat request, [.roomChat], [.ok none], none⟩ auth
  | failed {request : InboundMessage} {handler : Handler} {op : Op} {err : AppError} : RoomCall uuids request handler op →
    Sound uuids auth ⟨request, [handler], [.error err], some (appErrorNotification err)⟩ auth
  | unrouted {request : InboundMessage} {err : ProtocolError} {notification : ErrorNotification} :
    route request = .error err → Sound uuids auth ⟨request, [], [], some (.error notification)⟩ auth
  | bound {request : InboundMessage} : request.opcode = opC2sBind → auth.isAuthenticated = true →
    Sound uuids auth ⟨request, [], [], some (errorNotification errAlreadyBound "连接已完成绑定")⟩ auth

/-- The gate before the router: no handler for a `BIND` on a connection that is bound. -/
def Gated (auth : AuthState) (request : InboundMessage) (handlers : List Handler) : Prop :=
  request.opcode = opC2sBind → auth.isAuthenticated = true → handlers = []

/-- **One exchange after the other**, each in order after those before it. -/
def Chain (uuids : Uuids) (auth : AuthState) : List Exchange → AuthState → Prop
  | [], auth' => auth' = auth
  | exchange :: rest, auth' => ∃ next, exchange.Sound uuids auth next ∧ Gated auth exchange.request exchange.handlers ∧
    Chain uuids next rest auth'

theorem Chain.concat {uuids : Uuids} {auth mid auth' : AuthState} {exchanges : List Exchange} {exchange : Exchange}
    (h : Chain uuids auth exchanges mid) (hsound : exchange.Sound uuids mid auth')
    (hgated : Gated mid exchange.request exchange.handlers) : Chain uuids auth (exchanges ++ [exchange]) auth' := by
  induction exchanges generalizing auth with
  | nil =>
      obtain rfl := h
      exact ⟨auth', hsound, hgated, rfl⟩
  | cons first rest ih =>
      obtain ⟨next, hfirst, hgate, hrest⟩ := h
      exact ⟨next, hfirst, hgate, ih hrest⟩

/-- No handler was called for the request, or its own. -/
def Called (request : InboundMessage) (handlers : List Handler) : Prop :=
  handlers = [] ∨ ∃ handler, route request = .ok handler ∧ handlers = [handler]

theorem Called.length_le {request : InboundMessage} {handlers : List Handler} (h : Called request handlers) :
    handlers.length ≤ 1 := by
  obtain rfl | ⟨handler, -, rfl⟩ := h
  · exact Nat.zero_le 1
  · exact Nat.le_refl 1

section
variable {uuids : Uuids} {auth auth' : AuthState} {request : InboundMessage} {handler : Handler} {op : Op}

theorem RoomCall.route (h : RoomCall uuids request handler op) : route request = .ok handler := by
  cases h <;> rfl

theorem Exchange.Sound.called {exchange : Exchange} (h : exchange.Sound uuids auth auth') :
    Called exchange.request exchange.handlers := by
  cases h with
  | replied hroute _ => exact .inr ⟨_, hroute, rfl⟩
  | binds | rejoins | joins | leaves | leavesAll | chats => exact .inr ⟨_, rfl, rfl⟩
  | failed hcall => exact .inr ⟨_, hcall.route, rfl⟩
  | unrouted | bound => exact .inl rfl

theorem Exchange.Sound.outcomes_length {exchange : Exchange} (h : exchange.Sound uuids auth auth') :
    exchange.outcomes.length ≤ 1 := by
  cases h <;> simp

theorem appErrorNotification_eq (err : AppError) : ∃ notification, appErrorNotification err = .error notification := by
  cases err <;> exact ⟨_, rfl⟩

def reply : Answer → Option OutboundMessage
  | .ok message => message
  | .error err => some (appErrorNotification (.internal err.toText))

theorem replies_appError (err : AppError) : Replies request (appErrorNotification err) := by
  obtain ⟨notification, heq⟩ := appErrorNotification_eq err
  rw [heq]
  exact .error

theorem sound_error (hroute : Protocol.route request = .ok handler) (err : ProtocolError) :
    Exchange.Sound uuids auth ⟨request, [handler], [], reply (.error err)⟩ auth :=
  .replied hroute (replies_appError _)

def Begins (uuids : Uuids) (auth : AuthState) (request : InboundMessage) (handler : Handler) : Begun → Prop
  | .inl answer => Exchange.Sound uuids auth ⟨request, [handler], [], reply answer⟩ auth
  | .inr op => RoomCall uuids request handler op

theorem beginJoinRoom_begins (roomTx : SinkId) (hroute : Protocol.route request = .ok .joinRoom) :
    Begins uuids auth request .joinRoom (beginJoinRoom uuids roomTx auth request) := by
  unfold beginJoinRoom
  split
  · split
    · exact .replied hroute .error
    · split
      · exact .replied hroute .error
      · next target htarget =>
        split
        · next room hroom =>
          split_ifs with hsame
          · exact .rejoins (hsame ▸ htarget) hroom
          · exact .replied hroute .error
        · exact .join
  · exact sound_error hroute _

theorem beginLeaveRoom_begins (hroute : Protocol.route request = .ok .leaveRoom) :
    Begins uuids auth request .leaveRoom (beginLeaveRoom uuids auth request) := by
  unfold beginLeaveRoom
  split
  · split
    · exact .replied hroute .error
    · split
      · exact .replied hroute .error
      · next hroom => exact .leave hroom
      · next hroom => exact .leaveAll hroom
  · exact sound_error hroute _

theorem beginRoomChat_begins (hroute : Protocol.route request = .ok .roomChat) :
    Begins uuids auth request .roomChat (beginRoomChat auth request) := by
  unfold beginRoomChat
  split
  · split
    · exact .replied hroute .error
    · split
      · exact .replied hroute .error
      · exact .chat
  · exact sound_error hroute _

/-- **The answer of the room service decides** what is replied, and which room the connection is in. -/
theorem resumeRooms_sound {outcome : Outcome} {answer : Answer} (hcall : RoomCall uuids request handler op)
    (h : resumeRooms auth op outcome = some (auth', answer)) :
    Exchange.Sound uuids auth ⟨request, [handler], [outcome], reply answer⟩ auth' := by
  cases outcome with
  | error err =>
      have hanswer : (auth', answer) = (auth, .ok (some (appErrorNotification err))) := by
        cases hcall <;> exact (Option.some.inj h).symm
      obtain ⟨rfl, rfl⟩ := Prod.mk.inj hanswer
      exact .failed hcall
  | ok room =>
      cases hcall with
      | join =>
          cases room with
          | none => cases h
          | some room =>
              obtain ⟨rfl, rfl⟩ := Prod.mk.inj (Option.some.inj h)
              exact .joins
      | leave hroom =>
          cases room with
          | some => cases h
          | none =>
              obtain ⟨rfl, rfl⟩ := Prod.mk.inj (Option.some.inj h)
              exact .leaves hroom
      | leaveAll hroom =>
          cases room with
          | some => cases h
          | none =>
              obtain ⟨rfl, rfl⟩ := Prod.mk.inj (Option.some.inj h)
              exact .leavesAll hroom
      | chat =>
          cases room with
          | some => cases h
          | none =>
              obtain ⟨rfl, rfl⟩ := Prod.mk.inj (Option.some.inj h)
              exact .chats

theorem exists_roomCall {outcome : Outcome} {x : AuthState × Answer} (h : resumeRooms auth op outcome = some x) :
    ∃ uuids request handler, RoomCall uuids request handler op := by
  cases op with
  | joinOrCreate => exact ⟨noUuids, .joinRoom ⟨none⟩, .joinRoom, .join⟩
  | leave room =>
      have htext : (Text.trim "-").isEmpty = false := by decide
      refine ⟨⟨fun _ => some room.uuid, fun _ => ""⟩, .leaveRoom ⟨some "-"⟩, .leaveRoom, .leave ?_⟩
      simp [parseOptionalRoomId, htext]
  | leaveAll => exact ⟨noUuids, .leaveRoom ⟨none⟩, .leaveRoom, .leaveAll rfl⟩
  | chat => exact ⟨noUuids, .roomChat ⟨""⟩, .roomChat, .chat⟩
  | closeAll => simp [resumeRooms] at h

end

/-! ## The pieces of `admit_frame` -/

/-- What a suspended `admit_frame` has called for the request. -/
def Await.Serves (uuids : Uuids) (request : InboundMessage) (handlers : List Handler) : Await → Prop
  | .session message _ _ _ => message = request ∧ handlers = []
  | .bindToken _ => (∃ bind, request = .bind bind) ∧ handlers = [.bind]
  | .bindPlayer _ _ => (∃ bind, request = .bind bind) ∧ handlers = [.bind]
  | .rooms op => ∃ handler, RoomCall uuids request handler op ∧ handlers = [handler]
  | .profile _ => (∃ get, request = .getProfile get) ∧ handlers = [.getProfile]

/-- What a piece makes of the request, with what was called for it, what the room service has answered, and what was said
last. -/
inductive Leads (uuids : Uuids) (auth auth' : AuthState) (request : InboundMessage) (handlers : List Handler)
    (outcomes : List Outcome) : List OutboundMessage → Progress → Prop
  | waits {await : Await} : await.Serves uuids request handlers → auth' = auth → outcomes = [] →
    Leads uuids auth auth' request handlers outcomes [] (.awaits await)
  | answered {reply : Option OutboundMessage} : Exchange.Sound uuids auth ⟨request, handlers, outcomes, reply⟩ auth' →
    Leads uuids auth auth' request handlers outcomes reply.toList (.done true)
  | unsent {reply : OutboundMessage} : Exchange.Sound uuids auth ⟨request, handlers, outcomes, some reply⟩ auth' →
    Leads uuids auth auth' request handlers outcomes [reply] (.done false)
  | refused {notification : ErrorNotification} : handlers = [] → outcomes = [] →
    Leads uuids auth auth' request handlers outcomes [.error notification] (.done false)

variable {setup : Setup β} {uuids : Uuids} {auth : AuthState} {c : Conn β} {r : Conn β × Progress}
  {request : InboundMessage} {before : List Handler} {outcomes : List Outcome}

/-- **A piece of the work on a request** on a connection in this state, for which `before` was called. -/
def Piece (uuids : Uuids) (auth : AuthState) (request : InboundMessage) (before : List Handler) (outcomes : List Outcome)
    (c : Conn β) (r : Conn β × Progress) : Prop :=
  ∃ acts, r.1 = c.acts acts ∧ (∀ event ∈ notes acts, event.Inner) ∧ Gated auth request (called (notes acts)) ∧
    Leads uuids auth r.1.auth request (before ++ called (notes acts)) outcomes (said acts) r.2

theorem Await.Serves.called {await : Await} (h : await.Serves uuids request before) : Called request before := by
  cases await with
  | session => exact .inl h.2
  | bindToken | bindPlayer =>
      obtain ⟨⟨bind, rfl⟩, hbefore⟩ := h
      exact .inr ⟨.bind, rfl, hbefore⟩
  | rooms =>
      obtain ⟨handler, hcall, hbefore⟩ := h
      exact .inr ⟨handler, hcall.route, hbefore⟩
  | profile =>
      obtain ⟨⟨get, rfl⟩, hbefore⟩ := h
      exact .inr ⟨.getProfile, rfl, hbefore⟩

theorem Piece.after_note (event : Event) (hinner : event.Inner) (hgated : Gated auth request (called [event]))
    (h : Piece uuids auth request (before ++ called [event]) outcomes (c.note event) r) :
    Piece uuids auth request before outcomes c r := by
  obtain ⟨acts, hconn, hevents, hgate, hleads⟩ := h
  have hcalled : called (notes (.note event :: acts)) = called [event] ++ called (notes acts) := called_append [event] _
  refine ⟨.note event :: acts, hconn, ?_, fun hopcode hbound => ?_, ?_⟩
  · exact List.forall_mem_cons.mpr ⟨hinner, hevents⟩
  · rw [hcalled, hgated hopcode hbound, hgate hopcode hbound, List.append_nil]
  · rw [hcalled, ← List.append_assoc]
    exact hleads

theorem Piece.after_store {stored : AuthState}
    (h : Piece uuids auth request before outcomes { c with auth := stored } r) :
    Piece uuids auth request before outcomes c r := by
  obtain ⟨acts, hconn, hevents, hgate, hleads⟩ := h
  exact ⟨.store stored :: acts, hconn, hevents, hgate, hleads⟩

theorem gated_nil : Gated auth request [] := fun _ _ => rfl

theorem piece_waits {await : Await} (h : await.Serves uuids request before) :
    Piece uuids c.auth request before [] c (c, .awaits await) :=
  ⟨[], rfl, List.forall_mem_nil _, gated_nil, .waits (by rwa [show called (notes []) = [] from rfl, List.append_nil]) rfl rfl⟩

theorem piece_reject {code : UInt32} {message : String} (h : before = []) :
    Piece uuids auth request before [] c (c.reject code message) :=
  ⟨[.say (errorNotification code message)], rfl, List.forall_mem_nil _, gated_nil, .refused (by rw [h]; rfl) rfl⟩

theorem piece_answer {answer : Answer} (h : Exchange.Sound uuids auth ⟨request, before, outcomes, reply answer⟩ c.auth) :
    Piece uuids auth request before outcomes c (c.answer answer) := by
  have hsay : ∀ message, Exchange.Sound uuids auth ⟨request, before, outcomes, some message⟩ c.auth →
      Piece uuids auth request before outcomes c ((c.trySend message).2, .done (c.trySend message).1) := by
    intro message hsound
    refine ⟨[.say message], rfl, List.forall_mem_nil _, gated_nil, ?_⟩
    rw [show called (notes [.say message]) = [] from rfl, List.append_nil]
    cases (c.trySend message).1 with
    | true => exact .answered hsound
    | false => exact .unsent hsound
  match answer with
  | .ok (some message) => exact hsay message h
  | .ok none =>
    refine ⟨[], rfl, List.forall_mem_nil _, gated_nil, ?_⟩
    rw [show called (notes []) = [] from rfl, List.append_nil]
    exact @Leads.answered uuids auth c.auth request before outcomes none h
  | .error err => exact hsay _ h

theorem piece_begun {handler : Handler} {begun : Begun} (h : Begins uuids c.auth request handler begun) :
    Piece uuids c.auth request [handler] [] c (c.begun begun) := by
  cases begun with
  | inl answer => exact piece_answer h
  | inr op => exact piece_waits ⟨handler, h, rfl⟩

theorem piece_handleBind (hroute : route request = .ok .bind) :
    Piece uuids c.auth request [.bind] [] c (c.handleBind request) := by
  unfold Conn.handleBind
  split
  · next bind =>
    dsimp only
    split_ifs
    · exact piece_answer (.replied hroute .error)
    · exact piece_answer (.replied hroute .bind)
    · exact Piece.after_note (.resolve .reader _) trivial gated_nil (piece_waits ⟨⟨bind, rfl⟩, rfl⟩)
  · exact piece_answer (sound_error hroute _)

theorem piece_handleGetProfile (hroute : route request = .ok .getProfile) :
    Piece uuids c.auth request [.getProfile] [] c (c.handleGetProfile request) := by
  unfold Conn.handleGetProfile
  split
  · next get =>
    split
    · exact piece_answer (.replied hroute .error)
    · exact piece_waits ⟨⟨get, rfl⟩, rfl⟩
  · exact piece_answer (sound_error hroute _)

theorem handleHeartbeat_sound (utcNow : Int) (hroute : route request = .ok .heartbeat) :
    Exchange.Sound uuids auth ⟨request, [.heartbeat], [], reply (handleHeartbeat utcNow request)⟩ auth := by
  unfold handleHeartbeat
  split
  · exact .replied hroute .heartbeat
  · exact sound_error hroute _

/-- **`Router::dispatch`** calls the handler of the request, and no other. -/
theorem piece_dispatch (hunbound : ¬ (c.auth.isAuthenticated = true ∧ request.opcode = opC2sBind)) :
    Piece setup.uuids c.auth request [] [] c (c.dispatch setup request) := by
  unfold Conn.dispatch
  split
  · next err herr =>
    obtain ⟨notification, heq⟩ := appErrorNotification_eq (.internal err.toText)
    refine piece_answer ?_
    rw [show reply (.error err) = some (.error notification) from congrArg some heq]
    exact .unrouted herr
  · next handler hroute =>
    refine Piece.after_note (.dispatched handler) trivial (fun hopcode hbound => absurd ⟨hbound, hopcode⟩ hunbound) ?_
    cases handler with
    | bind => exact piece_handleBind hroute
    | heartbeat => exact piece_answer (handleHeartbeat_sound _ hroute)
    | joinRoom => exact piece_begun (beginJoinRoom_begins _ hroute)
    | leaveRoom => exact piece_begun (beginLeaveRoom_begins hroute)
    | roomChat => exact piece_begun (beginRoomChat_begins hroute)
    | getProfile => exact piece_handleGetProfile hroute

theorem piece_validated : Piece setup.uuids c.auth request [] [] c (c.validated setup request) := by
  unfold Conn.validated
  split_ifs with hbound
  · obtain ⟨hbound, hopcode⟩ := Bool.and_eq_true_iff.mp hbound
    exact ⟨[.say _], rfl, List.forall_mem_nil _, gated_nil, .answered (.bound (beq_iff_eq.mp hopcode) hbound)⟩
  · exact piece_dispatch fun hboth => hbound (Bool.and_eq_true_iff.mpr ⟨hboth.1, beq_iff_eq.mpr hboth.2⟩)

theorem piece_admitMessage : Piece setup.uuids c.auth request [] [] c (c.admitMessage setup request) := by
  unfold Conn.admitMessage
  split_ifs
  · exact piece_reject rfl
  · split
    · exact piece_reject rfl
    · exact Piece.after_note (.resolve .reader _) trivial gated_nil (piece_waits ⟨rfl, rfl⟩)
  · exact piece_validated

/-- **`admit_frame`** turns the frame down unread, or begins to work on what it decodes to. -/
theorem piece_admitFrame (frame : Frame) :
    (∃ code message, c.admitFrame setup frame = (c.acquire setup).2.reject code message) ∨
    ((c.acquire setup).1 = true ∧ ∃ request, decode setup.prost frame = .ok request ∧
      Piece setup.uuids (c.acquire setup).2.auth request [] [] (c.acquire setup).2 (c.admitFrame setup frame)) := by
  unfold Conn.admitFrame
  split_ifs with hrefused
  · exact .inl ⟨_, _, rfl⟩
  · split
    · exact .inl ⟨_, _, rfl⟩
    · next request hdecode => exact .inr ⟨by simpa using hrefused, request, hdecode, piece_admitMessage⟩

/-- What the room service answers with this label. -/
def answerOf : Label → List Outcome
  | .rooms answer => [answer]
  | _ => []

theorem piece_resumeRooms {op : Op} {outcome : Outcome} {x : AuthState × Answer} (hserves : (Await.rooms op).Serves uuids request before)
    (h : resumeRooms c.auth op outcome = some x) :
    Piece uuids c.auth request before [outcome] c ({ c with auth := x.1 }.answer x.2) := by
  obtain ⟨handler, hcall, rfl⟩ := hserves
  exact Piece.after_store (piece_answer (resumeRooms_sound hcall h))

/-- **A suspended `admit_frame` goes on** with the request that it served. -/
theorem piece_resume {await : Await} {label : Label} (hserves : await.Serves setup.uuids request before)
    (h : c.resume setup await label = some r) : Piece setup.uuids c.auth request before (answerOf label) c r := by
  unfold Conn.resume at h
  split at h
  · next answer =>
    obtain ⟨rfl, rfl⟩ := hserves
    obtain rfl := Option.some.inj h
    refine Piece.after_note (.resolved .reader answer) trivial gated_nil ?_
    split_ifs
    · exact piece_validated
    · exact piece_reject rfl
  · obtain ⟨rfl, rfl⟩ := hserves
    split_ifs at h
    obtain rfl := Option.some.inj h
    exact piece_reject rfl
  · next answer =>
    obtain ⟨⟨bind, rfl⟩, rfl⟩ := hserves
    obtain rfl := Option.some.inj h
    refine Piece.after_note (.resolved .reader answer) trivial gated_nil ?_
    unfold Conn.resumeBindToken
    split
    · exact piece_waits ⟨⟨bind, rfl⟩, rfl⟩
    · exact piece_answer (.replied rfl .bind)
    · exact piece_answer (sound_error rfl _)
  · next token player _ =>
    obtain ⟨⟨bind, rfl⟩, rfl⟩ := hserves
    obtain rfl := Option.some.inj h
    unfold Conn.resumeBindPlayer
    split
    · next nickname =>
      refine Piece.after_store (Piece.after_note (.authed _ _) trivial gated_nil (piece_answer ?_))
      exact @Exchange.Sound.binds setup.uuids c.auth bind ⟨player, nickname⟩ token
    · exact piece_answer (sound_error rfl _)
    · exact piece_answer (sound_error rfl _)
  · obtain ⟨x, hrooms, rfl⟩ := Option.map_eq_some_iff.mp h
    exact piece_resumeRooms hserves hrooms
  · obtain ⟨⟨get, rfl⟩, rfl⟩ := hserves
    obtain rfl := Option.some.inj h
    refine piece_answer ?_
    unfold resumeGetProfile
    split
    · exact .replied rfl .profile
    · exact .replied rfl (replies_appError _)
  · cases h

theorem exists_piece {await : Await} {label : Label} (h : c.resume setup await label = some r) :
    ∃ uuids request before, await.Serves uuids request before ∧
      Piece uuids c.auth request before (answerOf label) c r := by
  have hpiece : ∀ request before, await.Serves setup.uuids request before → ∃ uuids request before,
      await.Serves uuids request before ∧ Piece uuids c.auth request before (answerOf label) c r :=
    fun request before hserves => ⟨setup.uuids, request, before, hserves, piece_resume hserves h⟩
  cases await with
  | session message => exact hpiece message [] ⟨rfl, rfl⟩
  | bindToken | bindPlayer => exact hpiece (.bind ⟨""⟩) [.bind] ⟨⟨⟨""⟩, rfl⟩, rfl⟩
  | profile => exact hpiece (.getProfile ⟨⟩) [.getProfile] ⟨⟨⟨⟩, rfl⟩, rfl⟩
  | rooms op =>
      cases label with
      | rooms answer =>
          obtain ⟨x, hrooms, rfl⟩ := Option.map_eq_some_iff.mp h
          obtain ⟨uuids, request, handler, hcall⟩ := exists_roomCall hrooms
          have hserves : (Await.rooms op).Serves uuids request [handler] := ⟨handler, hcall, rfl⟩
          exact ⟨uuids, request, [handler], hserves, piece_resumeRooms hserves hrooms⟩
      | _ => cases h

/-! ## The translator -/

def sessionLost : OutboundMessage := errorNotification errNotAuthenticated "会话无效或已过期"

/-- **What the translator does to the read loop's part**: it offers room events, or that the session has ended. -/
theorem translator_offers {c' : Conn β} {label : Label} (hstep : c.stepTranslator setup label = some c') :
    ∃ messages, (∀ message ∈ messages, message = sessionLost ∨ ∃ notification, message = .roomEvent notification) ∧
      c'.outbound = offer c.outbound messages ∧ c'.reader = c.reader ∧ c'.auth = c.auth ∧
      called c'.log = called c.log := by
  have hnote : ∀ (log : List Event) event, called [event] = [] → called (log ++ [event]) = called log :=
    fun log event hnone => (called_append log [event]).trans (by rw [hnone, List.append_nil])
  have hlost : ∀ message ∈ [sessionLost], message = sessionLost ∨ ∃ notification, message = .roomEvent notification :=
    List.forall_mem_singleton.mpr (.inl rfl)
  unfold Conn.stepTranslator at hstep
  split at hstep
  · next event _ =>
    dsimp only at hstep
    split at hstep
    · obtain rfl := Option.some.inj hstep
      exact ⟨[sessionLost], hlost, rfl, rfl, rfl, hnote c.log (.dequeued event) rfl⟩
    · next player token _ =>
      obtain rfl := Option.some.inj hstep
      refine ⟨[], List.forall_mem_nil _, rfl, rfl, rfl, ?_⟩
      exact (hnote _ (.resolve .translator token) rfl).trans (hnote c.log (.dequeued event) rfl)
  · obtain rfl := Option.some.inj hstep
    exact ⟨[], List.forall_mem_nil _, rfl, rfl, rfl, rfl⟩
  · next event player token expires answer _ =>
    obtain rfl := Option.some.inj hstep
    have hresolved := hnote c.log (.resolved .translator answer) rfl
    split_ifs
    · refine ⟨[.roomEvent (roomEventToNotification setup.uuids event)], List.forall_mem_singleton.mpr (.inr ⟨_, rfl⟩), ?_⟩
      unfold Conn.forward
      dsimp only
      split_ifs
      · exact ⟨rfl, rfl, rfl, (hnote _ (.forwarded event) rfl).trans hresolved⟩
      · exact ⟨rfl, rfl, rfl, hresolved⟩
    · exact ⟨[sessionLost], hlost, rfl, rfl, rfl, hresolved⟩
  · split_ifs at hstep
    obtain rfl := Option.some.inj hstep
    exact ⟨[sessionLost], hlost, rfl, rfl, rfl, rfl⟩
  · cases hstep

end LongshipX.ReadLoop
