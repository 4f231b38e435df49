import LongshipX.Gateway.Gate

/-!
# What a connection asks of the room service

A handler calls the room service for the player that its connection is bound to, and joins with the connection's own sink.
The binding stays for the life of the connection.

* `Conn.awaited`, `Own` : the call that the read loop awaits, and a call that a connection makes for itself;
* `asks_admitFrame`, `asks_resume` : the pieces of `admit_frame` make no other;
* `Asking.step` : nor does any step of the connection.
-/

namespace LongshipX.ReadLoop
open Protocol Gateway
open Net (Frame)
open Service (Op)

variable {β : Type}

/-- The call of the room service that the read loop awaits. -/
def Conn.awaited (c : Conn β) : Option Op :=
  match c.reader with
  | .admitting _ (.rooms op) => some op
  | _ => none

/-- The call is for the player of the connection, and a join is with its sink. -/
def Own (roomTx : SinkId) (auth : AuthState) : Op → Prop
  | .joinOrCreate _ player nickname sink => auth.player = some ⟨player, nickname⟩ ∧ sink = roomTx
  | .leave _ player _ => auth.player.map AuthedPlayer.playerId = some player
  | .leaveAll player _ => auth.player.map AuthedPlayer.playerId = some player
  | .chat _ player _ => auth.player.map AuthedPlayer.playerId = some player
  | .closeAll _ => False

/-- If the read loop is to await a call now, it is one of its own. -/
def Asks (setup : Setup β) (r : Conn β × Progress) : Prop :=
  ∀ op, r.2 = .awaits (.rooms op) → Own setup.roomTx r.1.auth op

section
variable {setup : Setup β} {c c' : Conn β}

theorem asks_done {r : Conn β × Progress} {proceed : Bool} (h : r.2 = .done proceed) : Asks setup r := by
  intro op hop
  rw [h] at hop
  cases hop

theorem asks_answer (answer : Answer) : Asks setup (c.answer answer) := by
  match answer with
  | .ok (some reply) => exact asks_done rfl
  | .ok none => exact asks_done rfl
  | .error err => exact asks_done rfl

theorem asks_begun {begun : Begun} (h : ∀ op, begun = .inr op → Own setup.roomTx c.auth op) : Asks setup (c.begun begun) := by
  cases begun with
  | inl answer => exact asks_answer answer
  | inr op =>
      intro op' hop
      obtain rfl := Await.rooms.inj (Progress.awaits.inj hop)
      exact h op rfl

theorem asks_handleBind (message : InboundMessage) : Asks setup (c.handleBind message) := by
  unfold Conn.handleBind
  split
  · dsimp only
    split_ifs
    · exact asks_answer _
    · exact asks_answer _
    · exact fun op hop => by cases hop
  · exact asks_answer _

theorem asks_handleGetProfile (message : InboundMessage) : Asks setup (c.handleGetProfile message) := by
  unfold Conn.handleGetProfile
  split
  · split
    · exact asks_answer _
    · exact fun op hop => by cases hop
  · exact asks_answer _

/-- **The handlers' calls are the connection's own.** -/
theorem asks_dispatch (message : InboundMessage) : Asks setup (c.dispatch setup message) := by
  unfold Conn.dispatch
  split
  · exact asks_answer _
  · next handler _ =>
    dsimp only
    cases handler with
    | bind => exact asks_handleBind message
    | heartbeat => exact asks_answer _
    | getProfile => exact asks_handleGetProfile message
    | joinRoom =>
        refine asks_begun fun op hop => ?_
        obtain ⟨-, player, target, hplayer, rfl⟩ := beginJoinRoom_calls hop
        exact ⟨hplayer, rfl⟩
    | leaveRoom =>
        refine asks_begun fun op hop => ?_
        obtain ⟨player, hplayer, ⟨room, rfl⟩ | rfl⟩ := beginLeaveRoom_calls hop
        · exact congrArg (Option.map AuthedPlayer.playerId) hplayer
        · exact congrArg (Option.map AuthedPlayer.playerId) hplayer
    | roomChat =>
        refine asks_begun fun op hop => ?_
        obtain ⟨player, room, text, hplayer, rfl⟩ := beginRoomChat_calls hop
        exact congrArg (Option.map AuthedPlayer.playerId) hplayer

theorem asks_validated (message : InboundMessage) : Asks setup (c.validated setup message) := by
  unfold Conn.validated
  split_ifs
  · exact asks_done rfl
  · exact asks_dispatch message

theorem asks_admitFrame (frame : Frame) : Asks setup (c.admitFrame setup frame) := by
  unfold Conn.admitFrame
  split_ifs
  · exact asks_done rfl
  · split
    · exact asks_done rfl
    · next message _ =>
      unfold Conn.admitMessage
      split_ifs
      · exact asks_done rfl
      · split
        · exact asks_done rfl
        · exact fun op hop => by cases hop
      · exact asks_validated message

theorem asks_resume {await : Await} {label : Label} {r : Conn β × Progress} (h : c.resume setup await label = some r) :
    Asks setup r := by
  unfold Conn.resume at h
  split at h
  · obtain rfl := Option.some.inj h
    split_ifs
    · exact asks_validated _
    · exact asks_done rfl
  · split_ifs at h
    obtain rfl := Option.some.inj h
    exact asks_done rfl
  · next answer =>
    obtain rfl := Option.some.inj h
    match answer with
    | .ok (some player) => exact fun op hop => by cases hop
    | .ok none => exact asks_answer _
    | .error err => exact asks_answer _
  · next answer =>
    obtain rfl := Option.some.inj h
    match answer with
    | .ok (some nickname) => exact asks_answer _
    | .ok none => exact asks_answer _
    | .error err => exact asks_answer _
  · obtain ⟨x, -, rfl⟩ := Option.map_eq_some_iff.mp h
    exact asks_answer _
  · obtain rfl := Option.some.inj h
    exact asks_answer _
  · cases h

/-! ## The steps -/

/-- What every run of a connection keeps. -/
structure Asking (setup : Setup β) (deadline : Instant) (c : Conn β) : Prop where
  inv : Inv deadline c
  own : ∀ op, c.awaited = some op → Own setup.roomTx c.auth op

theorem awaited_of_returned (h : c.reader = .returned) : c.awaited = none := by
  unfold Conn.awaited
  rw [h]

theorem own_proceed {limit : Option Instant} {r : Conn β × Progress} (h : Asks setup r) :
    ∀ op, (Conn.proceed limit r).awaited = some op → Own setup.roomTx (Conn.proceed limit r).auth op := by
  intro op hop
  obtain ⟨c, (_ | _) | await⟩ := r
  · cases hop
  · cases hop
  · refine h op ?_
    unfold Conn.awaited at hop
    dsimp only [Conn.proceed] at hop
    split at hop
    · next heq =>
      obtain rfl := Option.some.inj hop
      rw [(Reader.admitting.inj heq).2]
    · cases hop

theorem own_select {deadline : Instant} {label : Label} (h : c.stepSelect setup deadline label = some c') :
    ∀ op, c'.awaited = some op → Own setup.roomTx c'.auth op := by
  have hreturned : c'.reader = .returned → ∀ op, c'.awaited = some op → Own setup.roomTx c'.auth op := by
    intro hreader op hop
    rw [awaited_of_returned hreader] at hop
    cases hop
  unfold Conn.stepSelect at h
  split at h
  · split_ifs at h
    exact hreturned (Option.some.inj h ▸ rfl)
  · exact hreturned (Option.some.inj h ▸ rfl)
  · exact hreturned (Option.some.inj h ▸ rfl)
  · split_ifs at h
    · exact hreturned (Option.some.inj h ▸ rfl)
    · exact Option.some.inj h ▸ own_proceed (asks_admitFrame _)
  · exact hreturned (Option.some.inj h ▸ rfl)
  · split_ifs at h
    · exact hreturned (Option.some.inj h ▸ rfl)
    · split at h
      · exact hreturned (Option.some.inj h ▸ rfl)
      · exact hreturned (Option.some.inj h ▸ rfl)
  · split_ifs at h
    exact hreturned (Option.some.inj h ▸ rfl)
  · cases h

theorem own_reader {label : Label} (h : c.stepReader setup label = some c') :
    ∀ op, c'.awaited = some op → Own setup.roomTx c'.auth op := by
  unfold Conn.stepReader at h
  split at h
  · obtain rfl := Option.some.inj h
    exact fun op hop => by cases hop
  · exact own_select h
  · split_ifs at h
    obtain rfl := Option.some.inj h
    exact fun op hop => by cases hop
  · obtain ⟨r, hresume, rfl⟩ := Option.map_eq_some_iff.mp h
    exact own_proceed (asks_resume hresume)
  · cases h

theorem translator_auth {label : Label} (h : c.stepTranslator setup label = some c') : c'.auth = c.auth := by
  unfold Conn.stepTranslator at h
  split at h
  · dsimp only at h
    split at h
    · exact Option.some.inj h ▸ rfl
    · exact Option.some.inj h ▸ rfl
  · exact Option.some.inj h ▸ rfl
  · obtain rfl := Option.some.inj h
    unfold Conn.forward
    dsimp only
    split_ifs <;> rfl
  · split_ifs at h
    exact Option.some.inj h ▸ rfl
  · cases h

theorem Inv.player {deadline : Instant} {player : AuthedPlayer} (h : Inv deadline c) (h' : Inv deadline c')
    (hlog : ∃ events, c'.log = c.log ++ events) (hplayer : c.auth.player = some player) : c'.auth.player = some player := by
  obtain ⟨authed, token, hmem⟩ := h.base.bound (by rw [AuthState.isAuthenticated, hplayer]; rfl)
  obtain rfl := Option.some.inj ((h.base.stored authed token hmem).1.symm.trans hplayer)
  obtain ⟨events, hlog⟩ := hlog
  exact (h'.base.stored authed token (hlog ▸ List.mem_append_left _ hmem)).1

/-- **One step**: the connection keeps its player, and awaits only calls of its own. -/
theorem Asking.step {deadline : Instant} {label : Label} (h : Asking setup deadline c)
    (hstep : c.step setup label = some c') : Asking setup deadline c' ∧
      ∀ player, c.auth.player = some player → c'.auth.player = some player := by
  obtain ⟨task, hmoves, -⟩ := h.inv.step hstep
  obtain ⟨events, hlog, -⟩ := hmoves.grows.log
  refine ⟨⟨hmoves.inv, ?_⟩, fun player => h.inv.player hmoves.inv ⟨events, hlog⟩⟩
  have hsame : c'.reader = c.reader → c'.auth = c.auth → ∀ op, c'.awaited = some op → Own setup.roomTx c'.auth op := by
    intro hreader hauth op hop
    rw [hauth]
    refine h.own op ?_
    rwa [Conn.awaited, hreader] at hop
  have htranslator : c.stepTranslator setup label = some c' → ∀ op, c'.awaited = some op → Own setup.roomTx c'.auth op :=
    fun hstep => hsame (h.inv.translator_step hstep).2 (translator_auth hstep)
  unfold Conn.step at hstep
  split at hstep
  · exact hsame (Option.some.inj hstep ▸ rfl) (Option.some.inj hstep ▸ rfl)
  · obtain rfl := Option.some.inj hstep
    exact fun op hop => by cases hop
  · exact hsame (Option.some.inj hstep ▸ rfl) (Option.some.inj hstep ▸ rfl)
  · obtain ⟨x, -, rfl⟩ := Option.map_eq_some_iff.mp hstep
    exact hsame rfl rfl
  · exact hsame (Option.some.inj hstep ▸ rfl) (Option.some.inj hstep ▸ rfl)
  · exact hsame (Option.some.inj hstep ▸ rfl) (Option.some.inj hstep ▸ rfl)
  · exact hsame (Option.some.inj hstep ▸ rfl) (Option.some.inj hstep ▸ rfl)
  · exact htranslator hstep
  · exact htranslator hstep
  · exact htranslator hstep
  · exact htranslator hstep
  · exact own_reader hstep

end

end LongshipX.ReadLoop
