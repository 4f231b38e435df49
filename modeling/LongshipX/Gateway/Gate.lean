import LongshipX.Gateway.ReadLoop
import LongshipX.Lib.History

/-!
# The authentication gate of a connection

What holds of every run of a connection's two tasks, whatever the client sends and whatever the token store, the
player repository and the room service answer.

* `Rule` : which event may follow which history;
* `Base`, `Inv` : the log obeys the rule and agrees with the authentication state; each task keeps this
  (`Inv.reader_step`, `Inv.translator_step`), so every run does (`run_inv`);
* `auth_gate` : the gate.
-/

namespace LongshipX.ReadLoop
open Protocol Gateway History
open Net (Frame)
open Service (Op)

/-! ## The rule -/

def Event.task : Event → Task
  | .admitted _ => .reader
  | .resolve task _ => task
  | .resolved task _ => task
  | .dispatched _ => .reader
  | .authed _ _ => .reader
  | .dequeued _ => .translator
  | .forwarded _ => .translator

/-- The event neither opens a piece of the task's work (a frame, a room event) nor carries it out. -/
def Quiet : Task → Event → Prop
  | .reader, .admitted _ => False
  | .reader, .dispatched _ => False
  | .translator, .dequeued _ => False
  | .translator, .forwarded _ => False
  | _, _ => True

def Event.IsAdmission : Event → Prop
  | .admitted _ => True
  | _ => False

/-- `set_authed` has been called. -/
def Bound (log : List Event) : Prop := ∃ player token, .authed player token ∈ log

/-- Since its current piece of work opened, the task has called `resolve` with this token and was answered with
this player, and has carried nothing out. -/
def Checked (task : Task) (opening : Event → Prop) (token : String) (player : PlayerId) : List Event → Prop :=
  InOrder (Quiet task) [(· = .resolved task (.ok (some player))), (· = .resolve task token), opening]

/-- Since the last frame was admitted, `handle_bind` was called. -/
def Binding : List Event → Prop := InOrder (Quiet .reader) [(· = .dispatched .bind), Event.IsAdmission]

/-- Since the last frame was admitted, no handler was called. -/
def Undispatched : List Event → Prop := InOrder (Quiet .reader) [Event.IsAdmission]

def Rule (deadline : Instant) (before : List Event) : Event → Prop
  | .admitted time => ¬ Bound before → time < deadline
  | .dispatched handler => (¬ Bound before → handler = .bind) ∧ ∀ player token, .authed player token ∈ before →
      Checked .reader Event.IsAdmission token player.playerId before
  | .authed _ _ => ¬ Bound before ∧ Binding before
  | .forwarded event => ∃ player token, .authed player token ∈ before ∧
      Checked .translator (· = .dequeued event) token player.playerId before
  | _ => True

/-! ## The invariant -/

variable {β : Type} {setup : Setup β} {deadline : Instant} {c c' : Conn β}

/-- The log obeys the rule and agrees with the authentication state. -/
structure Base (deadline : Instant) (c : Conn β) : Prop where
  fixed : c.admissionDeadline = deadline
  lawful : Lawful (Rule deadline) c.log
  stored : ∀ player token, .authed player token ∈ c.log →
    c.auth.player = some player ∧ c.auth.sessionToken = some token
  bound : c.auth.isAuthenticated = true → Bound c.log

/-- What has happened when `admit_frame` awaits this. -/
def Await.At (auth : AuthState) (log : List Event) : Await → Prop
  | .session _ player token _ => storedSession auth = some (player, token) ∧
      InOrder (Quiet .reader) [(· = .resolve .reader token), Event.IsAdmission] log
  | .bindToken _ => auth.isAuthenticated = false ∧ Binding log
  | .bindPlayer _ _ => auth.isAuthenticated = false ∧ Binding log
  | .rooms _ => True
  | .profile _ => True

def Progress.At (auth : AuthState) (log : List Event) : Progress → Prop
  | .done _ => True
  | .awaits await => await.At auth log

def Reader.At (deadline : Instant) (auth : AuthState) (log : List Event) : Reader → Prop
  | .selecting limit => auth.isAuthenticated = false → limit = deadline
  | .admitting _ await => await.At auth log
  | _ => True

def Translator.At (auth : AuthState) (log : List Event) : Translator → Prop
  | .validating event player token _ => storedSession auth = some (player, token) ∧
      InOrder (Quiet .translator) [(· = .resolve .translator token), (· = .dequeued event)] log
  | _ => True

structure Inv (deadline : Instant) (c : Conn β) : Prop where
  base : Base deadline c
  reader : c.reader.At deadline c.auth c.log
  translator : c.translator.At c.auth c.log

/-- What a step of one task leaves to the other: the session it has read, and a log with events of the first task
only added. -/
structure Grows (task : Task) (c c' : Conn β) : Prop where
  session : ∀ x, storedSession c.auth = some x → storedSession c'.auth = some x
  log : ∃ events, c'.log = c.log ++ events ∧ ∀ e ∈ events, e.task = task

theorem Grows.refl (task : Task) (c : Conn β) : Grows task c c := ⟨fun _ h => h, [], by simp, by simp⟩

theorem Grows.trans {task : Task} {c c' c'' : Conn β} (h : Grows task c c') (h' : Grows task c' c'') :
    Grows task c c'' := by
  obtain ⟨events, hlog, hevents⟩ := h.log
  obtain ⟨events', hlog', hevents'⟩ := h'.log
  refine ⟨fun x hx => h'.session x (h.session x hx), events ++ events', ?_, fun e he => ?_⟩
  · rw [hlog', hlog, List.append_assoc]
  · rcases List.mem_append.mp he with he | he
    · exact hevents e he
    · exact hevents' e he

theorem grows_note {task : Task} {event : Event} (h : event.task = task) : Grows task c (c.note event) := by
  refine ⟨fun _ hx => hx, [event], rfl, fun e he => ?_⟩
  rw [List.mem_singleton.mp he]
  exact h

theorem quiet_of_task {task other : Task} {event : Event} (h : event.task = other) (hne : task ≠ other) :
    Quiet task event := by
  subst h
  cases task <;> cases event <;> trivial

theorem Translator.At.grows {translator : Translator} (h : translator.At c.auth c.log) (hgrows : Grows .reader c c') :
    translator.At c'.auth c'.log := by
  obtain ⟨events, hlog, hevents⟩ := hgrows.log
  cases translator with
  | receiving => trivial
  | finished => trivial
  | validating event player token expires =>
      refine ⟨hgrows.session _ h.1, ?_⟩
      rw [hlog]
      exact h.2.append fun e he => quiet_of_task (hevents e he) (by decide)

theorem Await.At.append {await : Await} {auth : AuthState} {log events : List Event} (h : await.At auth log)
    (hevents : ∀ e ∈ events, e.task = .translator) : await.At auth (log ++ events) := by
  have hquiet : ∀ e ∈ events, Quiet .reader e := fun e he => quiet_of_task (hevents e he) (by decide)
  cases await with
  | session => exact ⟨h.1, h.2.append hquiet⟩
  | bindToken => exact ⟨h.1, h.2.append hquiet⟩
  | bindPlayer => exact ⟨h.1, h.2.append hquiet⟩
  | rooms => trivial
  | profile => trivial

theorem Reader.At.append {reader : Reader} {auth : AuthState} {log events : List Event}
    (h : reader.At deadline auth log) (hevents : ∀ e ∈ events, e.task = .translator) :
    reader.At deadline auth (log ++ events) := by
  cases reader with
  | top => trivial
  | selecting => exact h
  | admitting => exact Await.At.append h hevents
  | returned => trivial

/-! ## What the pieces of `admit_frame` do -/

theorem Base.note {event : Event} (h : Base deadline c) (hrule : Rule deadline c.log event)
    (hauthed : ∀ player token, event ≠ .authed player token) : Base deadline (c.note event) where
  fixed := h.fixed
  lawful := h.lawful.concat hrule
  stored player token hmem := by
    rcases List.mem_append.mp hmem with hmem | hmem
    · exact h.stored player token hmem
    · exact absurd (List.mem_singleton.mp hmem).symm (hauthed player token)
  bound hauth := by
    obtain ⟨player, token, hmem⟩ := h.bound hauth
    exact ⟨player, token, List.mem_append_left _ hmem⟩

theorem Base.trySend (h : Base deadline c) (message : OutboundMessage) : Base deadline (c.trySend message).2 :=
  ⟨h.fixed, h.lawful, h.stored, h.bound⟩

theorem Base.translatorTo {translator : Translator} (h : Base deadline c) :
    Base deadline { c with translator := translator } :=
  ⟨h.fixed, h.lawful, h.stored, h.bound⟩

theorem Base.not_bound (h : Base deadline c) (hauth : c.auth.isAuthenticated = false) : ¬ Bound c.log := by
  rintro ⟨player, token, hmem⟩
  rw [AuthState.isAuthenticated, (h.stored player token hmem).1] at hauth
  cases hauth

theorem Base.authed_of_session {player : PlayerId} {token : String} (h : Base deadline c)
    (hsession : storedSession c.auth = some (player, token)) :
    ∃ authed : AuthedPlayer, authed.playerId = player ∧ .authed authed token ∈ c.log := by
  unfold storedSession at hsession
  split at hsession
  · next authed stored hplayer htoken =>
      obtain ⟨rfl, rfl⟩ := Prod.mk.inj (Option.some.inj hsession)
      obtain ⟨authed', token', hmem⟩ := h.bound (by rw [AuthState.isAuthenticated, hplayer, Option.isSome_some])
      obtain ⟨hplayer', htoken'⟩ := h.stored authed' token' hmem
      rw [hplayer] at hplayer'
      rw [htoken] at htoken'
      obtain rfl := Option.some.inj hplayer'
      obtain rfl := Option.some.inj htoken'
      exact ⟨authed, rfl, hmem⟩
  · cases hsession

/-- What a piece of `admit_frame` does before it ends or waits. -/
structure Admits (deadline : Instant) (c : Conn β) (r : Conn β × Progress) : Prop where
  base : Base deadline r.1
  progress : r.2.At r.1.auth r.1.log
  grows : Grows .reader c r.1
  translator : r.1.translator = c.translator

theorem Admits.after {r : Conn β × Progress} (h : Admits deadline c' r) (hgrows : Grows .reader c c')
    (htranslator : c'.translator = c.translator) : Admits deadline c r :=
  ⟨h.base, h.progress, hgrows.trans h.grows, h.translator.trans htranslator⟩

theorem Base.reject (h : Base deadline c) (code : UInt32) (message : String) : Admits deadline c (c.reject code message) :=
  ⟨h.trySend _, trivial, ⟨fun _ hx => hx, [], by simp [Conn.reject, Conn.trySend], by simp⟩, rfl⟩

theorem Base.answer (h : Base deadline c) (reply : Answer) : Admits deadline c (c.answer reply) := by
  have hsent : ∀ message, Grows .reader c (c.trySend message).2 := fun message =>
    ⟨fun _ hx => hx, [], by simp [Conn.trySend], by simp⟩
  match reply with
  | .ok (some message) => exact ⟨h.trySend message, trivial, hsent message, rfl⟩
  | .ok none => exact ⟨h, trivial, .refl _ c, rfl⟩
  | .error err => exact ⟨h.trySend _, trivial, hsent _, rfl⟩

theorem Base.begun (h : Base deadline c) (begun : Begun) : Admits deadline c (c.begun begun) := by
  cases begun with
  | inl reply => exact h.answer reply
  | inr op => exact ⟨h, trivial, .refl _ c, rfl⟩

theorem Base.handleGetProfile (h : Base deadline c) (message : InboundMessage) :
    Admits deadline c (c.handleGetProfile message) := by
  unfold Conn.handleGetProfile
  split
  · split
    · exact h.answer _
    · exact ⟨h, trivial, .refl _ c, rfl⟩
  · exact h.answer _

theorem Base.handleBind (h : Base deadline c) (hbinding : Binding c.log) (message : InboundMessage) :
    Admits deadline c (c.handleBind message) := by
  unfold Conn.handleBind
  split
  · dsimp only
    split_ifs with hauth
    · exact h.answer _
    · exact h.answer _
    · have hauth : c.auth.isAuthenticated = false := Bool.eq_false_iff.mpr hauth
      refine ⟨h.note trivial (by simp), ⟨hauth, hbinding.append ?_⟩, grows_note rfl, rfl⟩
      simp [Quiet]
  · exact h.answer _

theorem Base.resumeBindToken (h : Base deadline c) {token : String}
    (hat : c.auth.isAuthenticated = false ∧ Binding c.log) (answer : Resolved) :
    Admits deadline c (c.resumeBindToken token answer) := by
  unfold Conn.resumeBindToken
  split
  · exact ⟨h, hat, .refl _ c, rfl⟩
  · exact h.answer _
  · exact h.answer _

theorem Base.resumeBindPlayer (h : Base deadline c) {token : String} {player : PlayerId} {uuids : Uuids}
    (hat : c.auth.isAuthenticated = false ∧ Binding c.log) (answer : Except RepoError (Option String)) :
    Admits deadline c (c.resumeBindPlayer uuids token player answer) := by
  unfold Conn.resumeBindPlayer
  split
  · next nickname =>
      have hnone : ¬ Bound c.log := h.not_bound hat.1
      refine Admits.after (Base.answer ?_ _) ?_ rfl
      · refine ⟨h.fixed, h.lawful.concat ⟨hnone, hat.2⟩, fun player' token' hmem => ?_, fun _ => ?_⟩
        · rcases List.mem_append.mp hmem with hmem | hmem
          · exact absurd ⟨player', token', hmem⟩ hnone
          · obtain ⟨rfl, rfl⟩ := Event.authed.inj (List.mem_singleton.mp hmem)
            exact ⟨rfl, rfl⟩
        · exact ⟨_, _, List.mem_append_right _ (List.mem_singleton_self _)⟩
      · refine ⟨?_, [_], rfl, by simp [Event.task]⟩
        rintro ⟨player', token'⟩ hsession
        obtain ⟨authed, -, hmem⟩ := h.authed_of_session hsession
        exact absurd ⟨_, _, hmem⟩ hnone
  · exact h.answer _
  · exact h.answer _

/-- The message has passed the checks before the router. -/
structure Cleared (c : Conn β) (message : InboundMessage) : Prop where
  gate : c.auth.isAuthenticated = false → message.opcode = opC2sBind
  checked : ∀ player token, .authed player token ∈ c.log →
    Checked .reader Event.IsAdmission token player.playerId c.log
  undispatched : Undispatched c.log

theorem Base.dispatch {message : InboundMessage} (h : Base deadline c) (hcleared : Cleared c message) :
    Admits deadline c (c.dispatch setup message) := by
  unfold Conn.dispatch
  split
  · exact h.answer _
  · next handler hroute =>
      have hgate : ¬ Bound c.log → handler = .bind := by
        intro hbound
        apply (route_bind hroute).mpr
        apply hcleared.gate
        exact Bool.eq_false_iff.mpr fun hauth => hbound (h.bound hauth)
      have hnoted : Base deadline (c.note (.dispatched handler)) := h.note ⟨hgate, hcleared.checked⟩ (by simp)
      have hgrows : Grows .reader c (c.note (.dispatched handler)) := grows_note rfl
      refine Admits.after ?_ hgrows rfl
      cases handler with
      | bind => exact hnoted.handleBind (hcleared.undispatched.concat rfl) message
      | heartbeat => exact hnoted.answer _
      | joinRoom => exact hnoted.begun _
      | leaveRoom => exact hnoted.begun _
      | roomChat => exact hnoted.begun _
      | getProfile => exact hnoted.handleGetProfile message

theorem Base.validated {message : InboundMessage} (h : Base deadline c) (hcleared : Cleared c message) :
    Admits deadline c (c.validated setup message) := by
  unfold Conn.validated
  split_ifs
  · exact ⟨h.trySend _, trivial, ⟨fun _ hx => hx, [], by simp [Conn.trySend], by simp⟩, rfl⟩
  · exact h.dispatch hcleared

theorem Base.admitMessage {message : InboundMessage} (h : Base deadline c) (hundispatched : Undispatched c.log) :
    Admits deadline c (c.admitMessage setup message) := by
  unfold Conn.admitMessage
  split_ifs with hgate hauth
  · exact h.reject _ _
  · split
    · exact h.reject _ _
    · next player token hsession =>
        exact ⟨h.note trivial (by simp), ⟨hsession, hundispatched.concat rfl⟩, grows_note rfl, rfl⟩
  · -- nobody is bound, so there is no session to check
    have hauth : c.auth.isAuthenticated = false := Bool.eq_false_iff.mpr hauth
    refine h.validated ⟨fun _ => ?_, fun player token hmem => ?_, hundispatched⟩
    · by_contra hopcode
      exact hgate (by simp [hauth, hopcode])
    · exact absurd ⟨player, token, hmem⟩ (h.not_bound hauth)

theorem Base.acquire (h : Base deadline c) : Base deadline (c.acquire setup).2 := by
  unfold Conn.acquire
  split
  · exact h
  · exact ⟨h.fixed, h.lawful, h.stored, h.bound⟩

theorem acquire_fields : (c.acquire setup).2.auth = c.auth ∧ (c.acquire setup).2.log = c.log ∧
    (c.acquire setup).2.translator = c.translator := by
  unfold Conn.acquire
  split <;> exact ⟨rfl, rfl, rfl⟩

theorem acquire_note {event : Event} : ((c.note event).acquire setup).1 = (c.acquire setup).1 := by
  show (Conn.acquire setup { c with log := c.log ++ [event] }).1 = _
  unfold Conn.acquire
  cases c.bucket <;> rfl

theorem Base.admitFrame (h : Base deadline c) (hundispatched : Undispatched c.log) (frame : Frame) :
    Admits deadline c (c.admitFrame setup frame) := by
  obtain ⟨hauth, hlog, htranslator⟩ := @acquire_fields β setup c
  have hacquired : Base deadline (c.acquire setup).2 := h.acquire
  have hgrows : Grows .reader c (c.acquire setup).2 := ⟨fun _ hx => hauth ▸ hx, [], by simp [hlog], by simp⟩
  refine Admits.after ?_ hgrows htranslator
  unfold Conn.admitFrame
  split_ifs
  · exact hacquired.reject _ _
  · split
    · exact hacquired.reject _ _
    · exact hacquired.admitMessage (hlog ▸ hundispatched)

theorem accepts_iff {player : PlayerId} {answer : Resolved} : accepts player answer = true ↔ answer = .ok (some player) := by
  unfold accepts
  split
  · simp
  · next hne => exact ⟨nofun, fun h => absurd h (hne player)⟩

theorem resumeRooms_session {auth auth' : AuthState} {op : Op} {answer : Except AppError (Option RoomId)}
    {reply : Answer} (h : resumeRooms auth op answer = some (auth', reply)) :
    auth'.player = auth.player ∧ auth'.sessionToken = auth.sessionToken := by
  have hjoin : ∀ outcome, (resumeJoinRoom auth outcome).1.player = auth.player ∧
      (resumeJoinRoom auth outcome).1.sessionToken = auth.sessionToken := by
    intro outcome
    cases outcome <;> exact ⟨rfl, rfl⟩
  have hleave : ∀ target outcome, (resumeLeaveRoom auth target outcome).1.player = auth.player ∧
      (resumeLeaveRoom auth target outcome).1.sessionToken = auth.sessionToken := by
    intro target outcome
    unfold resumeLeaveRoom
    split
    · split
      · dsimp only
        split_ifs <;> exact ⟨rfl, rfl⟩
      · exact ⟨rfl, rfl⟩
    · exact ⟨rfl, rfl⟩
  have hchat : ∀ outcome, (resumeRoomChat auth outcome).1.player = auth.player ∧
      (resumeRoomChat auth outcome).1.sessionToken = auth.sessionToken := by
    intro outcome
    cases outcome <;> exact ⟨rfl, rfl⟩
  unfold resumeRooms at h
  split at h
  all_goals
    first
    | obtain rfl := congrArg Prod.fst (Option.some.inj h)
      first | exact hjoin _ | exact hleave _ _ | exact hchat _
    | cases h

/-- `validate_session` is answered with the stored player: the message has passed all checks. -/
theorem Base.cleared {message : InboundMessage} {player : PlayerId} {token : String} (h : Base deadline c)
    (hsession : storedSession c.auth = some (player, token))
    (hasked : InOrder (Quiet .reader) [(· = .resolve .reader token), Event.IsAdmission] c.log) :
    Cleared (c.note (.resolved .reader (.ok (some player)))) message := by
  have hnoted : Base deadline (c.note (.resolved .reader (.ok (some player)))) := h.note trivial (by simp)
  have hchecked : Checked .reader Event.IsAdmission token player (c.note (.resolved .reader (.ok (some player)))).log :=
    hasked.concat rfl
  obtain ⟨authed, rfl, hmem⟩ := h.authed_of_session hsession
  have hmem : .authed authed token ∈ (c.note (.resolved .reader (.ok (some authed.playerId)))).log :=
    List.mem_append_left _ hmem
  refine ⟨fun hauth => ?_, fun player' token' hmem' => ?_, ?_⟩
  · exact absurd ⟨_, _, hmem⟩ (hnoted.not_bound hauth)
  · obtain ⟨hplayer, htoken⟩ := hnoted.stored _ _ hmem
    obtain ⟨hplayer', htoken'⟩ := hnoted.stored _ _ hmem'
    obtain rfl := Option.some.inj (hplayer.symm.trans hplayer')
    obtain rfl := Option.some.inj (htoken.symm.trans htoken')
    exact hchecked
  · exact (hchecked.tail (by rintro _ rfl; trivial)).tail (by rintro _ rfl; trivial)

theorem Base.resume {await : Await} {label : Label} {r : Conn β × Progress} (h : Base deadline c)
    (hat : await.At c.auth c.log) (hresume : c.resume setup await label = some r) : Admits deadline c r := by
  unfold Conn.resume at hresume
  split at hresume
  · next message player token expires answer =>
      obtain rfl := Option.some.inj hresume
      have hnoted : Base deadline (c.note (.resolved .reader answer)) := h.note trivial (by simp)
      have hgrows : Grows .reader c (c.note (.resolved .reader answer)) := grows_note rfl
      refine Admits.after ?_ hgrows rfl
      split_ifs with haccepts
      · obtain rfl := accepts_iff.mp haccepts
        exact hnoted.validated (h.cleared hat.1 hat.2)
      · exact hnoted.reject _ _
  · split_ifs at hresume
    obtain rfl := Option.some.inj hresume
    exact h.reject _ _
  · next token answer =>
      obtain rfl := Option.some.inj hresume
      have hnoted : Base deadline (c.note (.resolved .reader answer)) := h.note trivial (by simp)
      have hbinding : Binding (c.note (.resolved .reader answer)).log := hat.2.append (by simp [Quiet])
      exact (hnoted.resumeBindToken ⟨hat.1, hbinding⟩ answer).after (grows_note rfl) rfl
  · obtain rfl := Option.some.inj hresume
    exact h.resumeBindPlayer hat _
  · next op answer =>
      obtain ⟨⟨auth, reply⟩, hrooms, rfl⟩ := Option.map_eq_some_iff.mp hresume
      obtain ⟨hplayer, htoken⟩ := resumeRooms_session hrooms
      refine Admits.after (Base.answer ?_ reply) ?_ rfl
      · refine ⟨h.fixed, h.lawful, fun player token hmem => ?_, fun hauth => h.bound ?_⟩
        · rw [hplayer, htoken]
          exact h.stored player token hmem
        · rwa [AuthState.isAuthenticated, hplayer] at hauth
      · refine ⟨fun x hx => ?_, [], by simp, by simp⟩
        rw [storedSession, hplayer, htoken]
        exact hx
  · obtain rfl := Option.some.inj hresume
    exact h.answer _
  · cases hresume

/-! ## The steps -/

/-- A step of this task, or one that adds nothing to the log. -/
structure Moves (deadline : Instant) (task : Task) (c c' : Conn β) : Prop where
  inv : Inv deadline c'
  grows : Grows task c c'

theorem Inv.proceed {limit : Option Instant} {r : Conn β × Progress} (h : Inv deadline c)
    (hadmits : Admits deadline c r) : Moves deadline .reader c (Conn.proceed limit r) := by
  have htranslator : r.1.translator.At r.1.auth r.1.log := by
    rw [hadmits.translator]
    exact h.translator.grows hadmits.grows
  obtain ⟨hbase, hprogress, hgrows, -⟩ := hadmits
  have hbase' : ∀ permit reader, Base deadline { r.1 with permit := permit, reader := reader } := fun _ _ =>
    ⟨hbase.fixed, hbase.lawful, hbase.stored, hbase.bound⟩
  have hgrows' : ∀ permit reader, Grows .reader c { r.1 with permit := permit, reader := reader } := fun _ _ =>
    ⟨hgrows.session, hgrows.log⟩
  obtain ⟨c', progress⟩ := r
  match progress with
  | .done true => exact ⟨⟨hbase' _ _, trivial, htranslator⟩, hgrows' _ _⟩
  | .done false => exact ⟨⟨hbase' _ _, trivial, htranslator⟩, hgrows' _ _⟩
  | .awaits await => exact ⟨⟨hbase' _ _, hprogress, htranslator⟩, hgrows' _ _⟩

theorem Inv.returns (h : Inv deadline c) (task : Task) (outbound : Net.OutboundSender OutboundMessage) :
    Moves deadline task c { c with outbound := outbound, reader := .returned } :=
  ⟨⟨⟨h.base.fixed, h.base.lawful, h.base.stored, h.base.bound⟩, trivial, h.translator⟩, fun _ hx => hx, [], by simp, by simp⟩

theorem Inv.select_step {limit : Instant} {label : Label} (h : Inv deadline c) (hreader : c.reader = .selecting limit)
    (hstep : c.stepSelect setup limit label = some c') : Moves deadline .reader c c' := by
  unfold Conn.stepSelect at hstep
  split at hstep
  · split_ifs at hstep
    exact Option.some.inj hstep ▸ h.returns .reader _
  · exact Option.some.inj hstep ▸ h.returns .reader _
  · exact Option.some.inj hstep ▸ h.returns .reader _
  · next frame =>
      split_ifs at hstep with htime
      · exact Option.some.inj hstep ▸ h.returns .reader _
      · obtain rfl := Option.some.inj hstep
        -- before the binding, the deadline of the `select!` is the admission deadline
        have hrule : Rule deadline c.log (.admitted c.now) := by
          intro hbound
          have hat : c.auth.isAuthenticated = false → limit = deadline := by
            have := h.reader
            rwa [hreader] at this
          rw [← hat (Bool.eq_false_iff.mpr fun hauth => hbound (h.base.bound hauth))]
          exact Nat.lt_of_not_le htime
        have hnoted : Base deadline (c.note (.admitted c.now)) := h.base.note hrule (by simp)
        have hopened : Undispatched (c.note (.admitted c.now)).log := inOrder_last trivial
        exact h.proceed ((hnoted.admitFrame hopened frame).after (grows_note rfl) rfl)
  · exact Option.some.inj hstep ▸ h.returns .reader _
  · split_ifs at hstep
    · exact Option.some.inj hstep ▸ h.returns .reader _
    · split at hstep
      · exact Option.some.inj hstep ▸ h.returns .reader _
      · exact Option.some.inj hstep ▸ h.returns .reader _
  · split_ifs at hstep
    exact Option.some.inj hstep ▸ h.returns .reader _
  · cases hstep

theorem Inv.reader_step {label : Label} (h : Inv deadline c) (hstep : c.stepReader setup label = some c') :
    Moves deadline .reader c c' := by
  unfold Conn.stepReader at hstep
  split at hstep
  · obtain rfl := Option.some.inj hstep
    refine ⟨⟨⟨h.base.fixed, h.base.lawful, h.base.stored, h.base.bound⟩, fun hauth => ?_, h.translator⟩,
      fun _ hx => hx, [], by simp, by simp⟩
    have hauth : c.auth.isAuthenticated = false := hauth
    rw [if_neg (by simp [hauth])]
    exact h.base.fixed
  · next limit label hreader => exact h.select_step hreader hstep
  · split_ifs at hstep
    exact Option.some.inj hstep ▸ h.returns .reader _
  · next _ limit await hreader _ =>
      obtain ⟨r, hresume, rfl⟩ := Option.map_eq_some_iff.mp hstep
      have hat : await.At c.auth c.log := by
        have := h.reader
        rwa [hreader] at this
      exact h.proceed (h.base.resume hat hresume)
  · cases hstep

/-- A step of the translator, seen from the reader: the log grows by events of the translator. -/
theorem Inv.translated {events : List Event} (h : Inv deadline c) (hbase : Base deadline c')
    (htranslator : c'.translator.At c'.auth c'.log) (hauth : c'.auth = c.auth) (hreader : c'.reader = c.reader)
    (hlog : c'.log = c.log ++ events) (hevents : ∀ e ∈ events, e.task = .translator) :
    Moves deadline .translator c c' ∧ c'.reader = c.reader := by
  refine ⟨⟨⟨hbase, ?_, htranslator⟩, fun _ hx => hauth ▸ hx, events, hlog, hevents⟩, hreader⟩
  rw [hauth, hreader, hlog]
  exact h.reader.append hevents

theorem Inv.translator_step {label : Label} (h : Inv deadline c) (hstep : c.stepTranslator setup label = some c') :
    Moves deadline .translator c c' ∧ c'.reader = c.reader := by
  unfold Conn.stepTranslator at hstep
  split at hstep
  · next event _ =>
      have hnoted : Base deadline (c.note (.dequeued event)) := h.base.note trivial (by simp)
      dsimp only at hstep
      split at hstep
      · obtain rfl := Option.some.inj hstep
        exact h.translated (hnoted.trySend _).translatorTo trivial rfl rfl rfl (by simp [Event.task])
      · next player token hsession =>
          obtain rfl := Option.some.inj hstep
          have hasked : Base deadline ((c.note (.dequeued event)).note (.resolve .translator token)) :=
            hnoted.note trivial (by simp)
          have hopened : InOrder (Quiet .translator) [(· = .dequeued event)] (c.note (.dequeued event)).log :=
            inOrder_last rfl
          refine h.translated hasked.translatorTo ⟨hsession, hopened.concat rfl⟩ rfl rfl (List.append_assoc _ _ _) ?_
          simp [Event.task]
  · obtain rfl := Option.some.inj hstep
    exact h.translated h.base.translatorTo trivial rfl rfl (List.append_nil _).symm (by simp)
  · next event player token expires answer htranslator =>
      have hat : storedSession c.auth = some (player, token) ∧
          InOrder (Quiet .translator) [(· = .resolve .translator token), (· = .dequeued event)] c.log := by
        have := h.translator
        rwa [htranslator] at this
      have hnoted : Base deadline (c.note (.resolved .translator answer)) := h.base.note trivial (by simp)
      obtain rfl := Option.some.inj hstep
      split_ifs with haccepts
      · obtain rfl := accepts_iff.mp haccepts
        unfold Conn.forward
        dsimp only
        split_ifs
        · obtain ⟨authed, rfl, hmem⟩ := h.base.authed_of_session hat.1
          have hrule : Rule deadline (c.note (.resolved .translator (.ok (some authed.playerId)))).log (.forwarded event) :=
            ⟨authed, token, List.mem_append_left _ hmem, hat.2.concat rfl⟩
          have hforwarded := (hnoted.trySend (.roomEvent (roomEventToNotification setup.uuids event))).note hrule (by simp)
          refine h.translated hforwarded.translatorTo trivial rfl rfl (List.append_assoc _ _ _) ?_
          simp [Event.task]
        · exact h.translated (hnoted.trySend _).translatorTo trivial rfl rfl rfl (by simp [Event.task])
      · exact h.translated (hnoted.trySend _).translatorTo trivial rfl rfl rfl (by simp [Event.task])
  · split_ifs at hstep
    obtain rfl := Option.some.inj hstep
    exact h.translated (h.base.trySend _).translatorTo trivial rfl rfl (List.append_nil _).symm (by simp)
  · cases hstep

theorem stepReader_selecting {limit : Instant} {label : Label} (h : c.reader = .selecting limit) :
    c.stepReader setup label = c.stepSelect setup limit label := by
  unfold Conn.stepReader
  split
  all_goals simp_all

theorem stepReader_admitting {limit : Option Instant} {await : Await} {label : Label}
    (h : c.reader = .admitting limit await) (hlabel : label ≠ .admissionTimeout) :
    c.stepReader setup label = (c.resume setup await label).map (Conn.proceed limit) := by
  unfold Conn.stepReader
  split
  all_goals simp_all

theorem stepReader_returned {label : Label} (h : c.reader = .returned) : c.stepReader setup label = none := by
  unfold Conn.stepReader
  split
  all_goals simp_all

/-- **One step** keeps the invariant and adds to the log; once the read loop has returned, the events it adds are
the translator's. -/
theorem Inv.step {label : Label} (h : Inv deadline c) (hstep : c.step setup label = some c') :
    ∃ task, Moves deadline task c c' ∧ (c.reader = .returned → task = .translator ∧ c'.reader = .returned) := by
  have hkeep : ∀ now utcNow outbound, Moves deadline .translator c { c with now := now, utcNow := utcNow, outbound := outbound } :=
    fun _ _ _ => ⟨⟨⟨h.base.fixed, h.base.lawful, h.base.stored, h.base.bound⟩, h.reader, h.translator⟩,
      fun _ hx => hx, [], by simp, by simp⟩
  have htranslator : c.stepTranslator setup label = some c' →
      ∃ task, Moves deadline task c c' ∧ (c.reader = .returned → task = .translator ∧ c'.reader = .returned) := by
    intro hstep
    obtain ⟨hmoves, hreader⟩ := h.translator_step hstep
    exact ⟨.translator, hmoves, fun hreturned => ⟨rfl, hreader.trans hreturned⟩⟩
  unfold Conn.step at hstep
  split at hstep
  · obtain rfl := Option.some.inj hstep
    exact ⟨.translator, hkeep _ _ _, fun hreturned => ⟨rfl, hreturned⟩⟩
  · obtain rfl := Option.some.inj hstep
    exact ⟨.translator, h.returns _ c.outbound, fun _ => ⟨rfl, rfl⟩⟩
  · obtain rfl := Option.some.inj hstep
    exact ⟨.translator, ⟨⟨h.base.translatorTo, h.reader, trivial⟩, fun _ hx => hx, [], by simp, by simp⟩,
      fun hreturned => ⟨rfl, hreturned⟩⟩
  · obtain ⟨x, -, rfl⟩ := Option.map_eq_some_iff.mp hstep
    exact ⟨.translator, hkeep _ _ _, fun hreturned => ⟨rfl, hreturned⟩⟩
  · obtain rfl := Option.some.inj hstep
    exact ⟨.translator, hkeep _ _ _, fun hreturned => ⟨rfl, hreturned⟩⟩
  · obtain rfl := Option.some.inj hstep
    exact ⟨.translator, hkeep _ _ _, fun hreturned => ⟨rfl, hreturned⟩⟩
  · obtain rfl := Option.some.inj hstep
    exact ⟨.translator, hkeep _ _ _, fun hreturned => ⟨rfl, hreturned⟩⟩
  · exact htranslator hstep
  · exact htranslator hstep
  · exact htranslator hstep
  · exact htranslator hstep
  · refine ⟨.reader, h.reader_step hstep, fun hreturned => ?_⟩
    rw [stepReader_returned hreturned] at hstep
    cases hstep

/-! ## Runs -/

variable {init : Conn β} {labels : List Label}

theorem inv_accept (now deadline : Instant) (utcNow : Int) (bucket : Option β) (capacity : Nat) :
    Inv deadline (Conn.accept now deadline utcNow bucket capacity) where
  base := ⟨rfl, lawful_nil, by simp [Conn.accept], nofun⟩
  reader := trivial
  translator := trivial

theorem Inv.run (h : Inv deadline c) (hrun : (system setup init).run c labels = some c') :
    Inv deadline c' ∧ c.log <+: c'.log := by
  refine TransitionSystem.run_invariant (I := fun d => Inv deadline d ∧ c.log <+: d.log) ?_ ⟨h, List.prefix_rfl⟩ hrun
  rintro d label d' ⟨hd, hlog⟩ hstep
  obtain ⟨task, hmoves, -⟩ := hd.step hstep
  obtain ⟨events, hgrown, -⟩ := hmoves.grows.log
  exact ⟨hmoves.inv, hlog.trans ⟨events, hgrown.symm⟩⟩

theorem Inv.run_returned (h : Inv deadline c) (hreturned : c.reader = .returned)
    (hrun : (system setup init).run c labels = some c') :
    c'.reader = .returned ∧ ∃ events, c'.log = c.log ++ events ∧ ∀ e ∈ events, e.task = .translator := by
  have hend : Inv deadline c' ∧ c'.reader = .returned ∧ Grows .translator c c' := by
    refine TransitionSystem.run_invariant (I := fun d => Inv deadline d ∧ d.reader = .returned ∧ Grows .translator c d) ?_
      ⟨h, hreturned, .refl _ c⟩ hrun
    rintro d label d' ⟨hd, hreader, hgrows⟩ hstep
    obtain ⟨task, hmoves, hstays⟩ := hd.step hstep
    obtain ⟨rfl, hreader'⟩ := hstays hreader
    exact ⟨hmoves.inv, hreader', hgrows.trans hmoves.grows⟩
  exact ⟨hend.2.1, hend.2.2.log⟩

/-- The label makes a check of `admit_frame` fail: the rate limit, the decoding, the gate or the session. -/
def Conn.Fails (setup : Setup β) (c : Conn β) : Label → Prop
  | .frame frame => (∃ limit, c.reader = .selecting limit ∧ c.now < limit) ∧
      ((c.acquire setup).1 = false ∨ (∃ err, decode setup.prost frame = .error err) ∨
        ∃ message, decode setup.prost frame = .ok message ∧
          ((c.auth.isAuthenticated = false ∧ message.opcode ≠ opC2sBind) ∨
            (c.auth.isAuthenticated = true ∧ storedSession c.auth = none)))
  | .resolved answer => ∃ limit message player token expires,
      c.reader = .admitting limit (.session message player token expires) ∧ answer ≠ .ok (some player)
  | .resolveTimeout => ∃ limit message player token expires,
      c.reader = .admitting limit (.session message player token expires)
  | _ => False

theorem admitFrame_rejects {frame : Frame} (hfails : (c.acquire setup).1 = false ∨
    (∃ err, decode setup.prost frame = .error err) ∨ ∃ message, decode setup.prost frame = .ok message ∧
      ((c.auth.isAuthenticated = false ∧ message.opcode ≠ opC2sBind) ∨
        (c.auth.isAuthenticated = true ∧ storedSession c.auth = none))) :
    (c.admitFrame setup frame).2 = .done false ∧ (c.admitFrame setup frame).1.log = c.log := by
  obtain ⟨hauth, hlog, -⟩ := @acquire_fields β setup c
  have hreject : ∀ code message, ((c.acquire setup).2.reject code message).2 = .done false ∧
      ((c.acquire setup).2.reject code message).1.log = c.log := fun _ _ => ⟨rfl, hlog⟩
  unfold Conn.admitFrame
  split_ifs with hrate
  · exact hreject _ _
  · split
    · exact hreject _ _
    · next message hdecode =>
        rcases hfails with hrate' | ⟨err, herr⟩ | ⟨message', hdecode', hgate⟩
        · exact absurd (by rw [hrate']; rfl) hrate
        · rw [hdecode] at herr
          cases herr
        · rw [hdecode] at hdecode'
          obtain rfl := Except.ok.inj hdecode'
          rw [← hauth] at hgate
          unfold Conn.admitMessage
          rcases hgate with ⟨hunbound, hopcode⟩ | ⟨hbound, hsession⟩
          · rw [if_pos (by simp [hunbound, hopcode])]
            exact hreject _ _
          · rw [if_neg (by simp [hbound]), if_pos hbound, hsession]
            exact hreject _ _

/-- **A failed check ends the read loop**, and no handler has seen the frame. -/
theorem Inv.fails {label : Label} (h : Inv deadline c) (hfails : c.Fails setup label)
    (hstep : c.step setup label = some c') : c'.reader = .returned ∧ Undispatched c'.log := by
  cases label with
  | frame frame =>
      obtain ⟨⟨limit, hreader, htime⟩, hcheck⟩ := hfails
      change c.stepReader setup (.frame frame) = some c' at hstep
      rw [stepReader_selecting hreader, Conn.stepSelect, if_neg (Nat.not_le_of_lt htime)] at hstep
      obtain rfl := Option.some.inj hstep
      obtain ⟨hdone, hlog⟩ := admitFrame_rejects (c := c.note (.admitted c.now)) (by rw [acquire_note]; exact hcheck)
      generalize (c.note (.admitted c.now)).admitFrame setup frame = r at hdone hlog
      obtain ⟨d, progress⟩ := r
      obtain rfl : progress = .done false := hdone
      refine ⟨rfl, ?_⟩
      show Undispatched d.log
      rw [show d.log = c.log ++ [.admitted c.now] from hlog]
      exact inOrder_last trivial
  | resolved answer =>
      obtain ⟨limit, message, player, token, expires, hreader, hanswer⟩ := hfails
      have hat : Await.At c.auth c.log (.session message player token expires) := by
        have := h.reader
        rwa [hreader] at this
      have hrejects : ¬ accepts player answer = true := fun haccepts => hanswer (accepts_iff.mp haccepts)
      change c.stepReader setup (.resolved answer) = some c' at hstep
      rw [stepReader_admitting hreader (by simp)] at hstep
      obtain ⟨r, hresume, rfl⟩ := Option.map_eq_some_iff.mp hstep
      rw [Conn.resume, if_neg hrejects] at hresume
      obtain rfl := Option.some.inj hresume
      refine ⟨rfl, ?_⟩
      exact (hat.2.tail (by rintro _ rfl; trivial)).append (by simp [Quiet])
  | resolveTimeout =>
      obtain ⟨limit, message, player, token, expires, hreader⟩ := hfails
      have hat : Await.At c.auth c.log (.session message player token expires) := by
        have := h.reader
        rwa [hreader] at this
      change c.stepReader setup .resolveTimeout = some c' at hstep
      rw [stepReader_admitting hreader (by simp)] at hstep
      obtain ⟨r, hresume, rfl⟩ := Option.map_eq_some_iff.mp hstep
      rw [Conn.resume] at hresume
      split_ifs at hresume
      obtain rfl := Option.some.inj hresume
      exact ⟨rfl, hat.2.tail (by rintro _ rfl; trivial)⟩
  | _ => exact hfails.elim

/-- **The authentication gate**, in every run of a connection:

(a) until `set_authed` was called, `handle_bind` is the only handler that is called and frames are admitted before the
admission deadline only, which is never moved;

(b) `set_authed` is called by `handle_bind`, and what it stored stays as it is;

(c) after that, a handler is called only once the stored token was resolved to the stored player since the frame was
admitted, and a room event is queued only once it was since the event was dequeued;

(d) a frame that fails a check is seen by no handler, and no frame is admitted after it. -/
theorem auth_gate (setup : Setup β) (now deadline : Instant) (utcNow : Int) (bucket : Option β) (capacity : Nat)
    {labels : List Label} {c : Conn β}
    (hrun : (system setup (.accept now deadline utcNow bucket capacity)).run (.accept now deadline utcNow bucket capacity)
      labels = some c) :
    (c.admissionDeadline = deadline ∧
      (∀ before handler after, c.log = before ++ .dispatched handler :: after → ¬ Bound before → handler = .bind) ∧
      (∀ before time after, c.log = before ++ .admitted time :: after → ¬ Bound before → time < deadline)) ∧
    ((c.auth.isAuthenticated = true ↔ Bound c.log) ∧
      (∀ before player token after, c.log = before ++ .authed player token :: after → Binding before) ∧
      (∀ player token more c', .authed player token ∈ c.log → (system setup c).run c more = some c' →
        c'.auth.player = some player ∧ c'.auth.sessionToken = some token)) ∧
    ((∀ before handler after player token, c.log = before ++ .dispatched handler :: after →
        .authed player token ∈ before → Checked .reader Event.IsAdmission token player.playerId before) ∧
      (∀ before event after, c.log = before ++ .forwarded event :: after → ∃ player token,
        .authed player token ∈ before ∧ Checked .translator (· = .dequeued event) token player.playerId before)) ∧
    (∀ label c' more c'', c.Fails setup label → c.step setup label = some c' → (system setup c).run c' more = some c'' →
      Undispatched c'.log ∧ c''.reader = .returned ∧
        ∃ events, c''.log = c'.log ++ events ∧ ∀ e ∈ events, e.task = .translator) := by
  have h : Inv deadline c := ((inv_accept now deadline utcNow bucket capacity).run hrun).1
  have hlaw := h.base.lawful
  refine ⟨⟨h.base.fixed, ?_, ?_⟩, ⟨⟨h.base.bound, ?_⟩, ?_, ?_⟩, ⟨?_, ?_⟩, ?_⟩
  · intro before handler after hlog
    exact (hlaw before (.dispatched handler) after hlog).1
  · intro before time after hlog
    exact hlaw before (.admitted time) after hlog
  · rintro ⟨player, token, hmem⟩
    rw [AuthState.isAuthenticated, (h.base.stored player token hmem).1, Option.isSome_some]
  · intro before player token after hlog
    exact (hlaw before (.authed player token) after hlog).2
  · intro player token more c' hmem hmore
    obtain ⟨h', hlog⟩ := h.run hmore
    exact h'.base.stored player token (hlog.subset hmem)
  · intro before handler after player token hlog hmem
    exact (hlaw before (.dispatched handler) after hlog).2 player token hmem
  · intro before event after hlog
    exact hlaw before (.forwarded event) after hlog
  · intro label c' more c'' hfails hstep hmore
    obtain ⟨hreturned, hundispatched⟩ := h.fails hfails hstep
    obtain ⟨task, hmoves, -⟩ := h.step hstep
    obtain ⟨hreader, hevents⟩ := hmoves.inv.run_returned hreturned hmore
    exact ⟨hundispatched, hreader, hevents⟩

/-- The payload of `BindRequest` with the token `tok`. -/
def tokPayload : List UInt8 := [0x0a, 0x03, 0x74, 0x6f, 0x6b]

/-- Decoders for `tokPayload` and for empty payloads. -/
def tokProst : Prost where
  bindRequest payload :=
    if payload = tokPayload then .ok ⟨"tok"⟩ else if payload = [] then .ok ⟨""⟩ else .error "invalid payload"
  heartbeatPing payload := if payload = [] then .ok ⟨0⟩ else .error "invalid payload"
  joinRoomRequest payload := if payload = [] then .ok ⟨none⟩ else .error "invalid payload"
  leaveRoomRequest payload := if payload = [] then .ok ⟨none⟩ else .error "invalid payload"
  roomChatRequest payload := if payload = [] then .ok ⟨""⟩ else .error "invalid payload"
  getProfileRequest payload := if payload = [] then .ok ⟨⟩ else .error "invalid payload"

def tokSetup : Setup Unit where
  prost := tokProst
  uuids := ⟨fun _ => none, fun uuid =>
    if uuid = 7 then "00000000-0000-0000-0000-000000000007" else "00000000-0000-0000-0000-000000000001"⟩
  tryAcquire bucket _ := (true, bucket)
  heartbeatTimeout := 30
  roomTx := 0

/-- A `BIND` that succeeds, a `HEARTBEAT`, the closing of room 7, and a `JOIN_ROOM`. -/
def boundLabels : List Label :=
  [.loop, .frame ⟨opC2sBind, tokPayload⟩, .resolved (.ok (some ⟨1⟩)), .found (.ok (some "a")), .loop, .tick 20 0,
    .frame ⟨opC2sHeartbeat, []⟩, .event (.closed ⟨7⟩ "done"), .resolved (.ok (some ⟨1⟩)), .eventResolved (.ok (some ⟨1⟩)),
    .loop, .frame ⟨opC2sJoinRoom, []⟩]

/-- The session is revoked before the next frame. -/
theorem auth_gate_revoked : ∃ c c',
    (system tokSetup (.accept 0 10 0 none 4)).run (.accept 0 10 0 none 4) boundLabels = some c ∧
    c.log = [.admitted 0, .dispatched .bind, .resolve .reader "tok", .resolved .reader (.ok (some ⟨1⟩)),
      .authed ⟨⟨1⟩, "a"⟩ "tok", .admitted 20, .resolve .reader "tok", .dequeued (.closed ⟨7⟩ "done"),
      .resolve .translator "tok", .resolved .reader (.ok (some ⟨1⟩)), .dispatched .heartbeat,
      .resolved .translator (.ok (some ⟨1⟩)), .forwarded (.closed ⟨7⟩ "done"), .admitted 20, .resolve .reader "tok"] ∧
    c.step tokSetup (.resolved (.ok none)) = some c' ∧ c'.reader = .returned ∧ Undispatched c'.log ∧
      c'.auth.player = some ⟨⟨1⟩, "a"⟩ := by
  let c := ((system tokSetup (.accept 0 10 0 none 4)).run (.accept 0 10 0 none 4) boundLabels).get (by decide +kernel)
  let c' := (c.step tokSetup (.resolved (.ok none))).get (by decide +kernel)
  have hrun : (system tokSetup (.accept 0 10 0 none 4)).run (.accept 0 10 0 none 4) boundLabels = some c :=
    (Option.some_get _).symm
  have hstep : c.step tokSetup (.resolved (.ok none)) = some c' := (Option.some_get _).symm
  have hfails : c.Fails tokSetup (.resolved (.ok none)) :=
    ⟨none, .joinRoom ⟨none⟩, ⟨1⟩, "tok", 50, by decide +kernel, nofun⟩
  obtain ⟨-, ⟨-, -, hstored⟩, -, hfailed⟩ := auth_gate tokSetup 0 10 0 none 4 hrun
  obtain ⟨hundispatched, hreader, -⟩ := hfailed (.resolved (.ok none)) c' [] c' hfails hstep rfl
  refine ⟨c, c', hrun, by decide +kernel, hstep, hreader, hundispatched, ?_⟩
  exact (hstored ⟨⟨1⟩, "a"⟩ "tok" [.resolved (.ok none)] c' (by decide +kernel) (by simp [TransitionSystem.run, system, hstep])).1

end LongshipX.ReadLoop
