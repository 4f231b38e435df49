import LongshipX.Gateway.Server
import LongshipX.Gateway.StreamDelivery
import LongshipX.Protocol.GameProto
import LongshipX.Room.Runs

/-!
# The rooms and their clients agree

* `stream_asking`, `step_passed` : one connection keeps its player, and is told only what the rooms pass to its sink;
* `Hosted` : each room of the service is the actor after some inputs, and has passed on what that actor broadcast;
* `Inv`, `Inv.step` : every step of the server keeps this;
* `Hears`, `clients_agree` : what the clients decode, of every room's one log.
-/

namespace LongshipX.Server
open Protocol Broadcast
open ReadLoop (Setup Instant Asking Own)
open Service (CallId Op RoomServiceConfig RoomTask)
open Net (ConnectionConfig)

variable {β : Type} {g : Generated} {setup : Setup β} {config : ConnectionConfig}

/-! ## One connection -/

section
variable {c c' : Stream.State β} {label : Stream.Label}

def passed : Stream.Label → List RoomEvent
  | .room (.trySend _ event) => [event]
  | _ => []

def passedTo (c : Stream.State β) : List RoomEvent := c.room.calls.map Prod.fst

theorem passed_byItself (h : byItself label = true) : passed label = [] := by
  cases label with
  | room label =>
      cases label with
      | trySend => cases h
      | clone | dropClone | recv | dropReceiver => rfl
  | event | task | broadcast | release | writer => rfl

theorem settle_room (c : Stream.State β) : passedTo c.settle = passedTo c := by
  unfold Stream.State.settle
  split_ifs <;> rfl

theorem step_passed (hstep : c.step g setup config label = some c') : passedTo c' = passedTo c ++ passed label := by
  cases label with
  | room label =>
      obtain ⟨hroom, hmap⟩ := Option.ite_none_right_eq_some.mp hstep
      obtain ⟨room, hsink, rfl⟩ := Option.map_eq_some_iff.mp hmap
      cases label with
      | clone | dropClone =>
          obtain ⟨-, hsome⟩ := Option.ite_none_right_eq_some.mp hsink
          obtain rfl := Option.some.inj hsome
          exact (List.append_nil _).symm
      | trySend clone event =>
          obtain ⟨-, hsome⟩ := Option.ite_none_right_eq_some.mp hsink
          obtain rfl := Option.some.inj hsome
          exact List.map_append
      | recv | dropReceiver => cases hroom
  | event =>
      simp only [Stream.State.step] at hstep
      split at hstep
      · obtain ⟨conn, -, rfl⟩ := Option.map_eq_some_iff.mp hstep
        exact (settle_room _).trans (List.append_nil _).symm
      · cases hstep
  | task label =>
      obtain ⟨-, hmap⟩ := Option.ite_none_right_eq_some.mp hstep
      obtain ⟨conn, -, rfl⟩ := Option.map_eq_some_iff.mp hmap
      exact (settle_room _).trans (List.append_nil _).symm
  | broadcast notice =>
      obtain ⟨-, hmap⟩ := Option.ite_none_right_eq_some.mp hstep
      obtain ⟨conn, -, rfl⟩ := Option.map_eq_some_iff.mp hmap
      exact (List.append_nil _).symm
  | release =>
      obtain ⟨-, hsome⟩ := Option.ite_none_right_eq_some.mp hstep
      obtain rfl := Option.some.inj hsome
      exact (List.append_nil _).symm
  | writer label =>
      obtain ⟨-, hmap⟩ := Option.ite_none_right_eq_some.mp hstep
      obtain ⟨x, -, rfl⟩ := Option.map_eq_some_iff.mp hmap
      exact (List.append_nil _).symm

/-- **A step of a connection**: it keeps its player, and awaits only calls of its own. -/
theorem stream_asking {deadline : Instant} (h : Asking setup deadline c.conn)
    (hstep : c.step g setup config label = some c') : Asking setup deadline c'.conn ∧
      ∀ player, c.conn.auth.player = some player → c'.conn.auth.player = some player := by
  cases label with
  | room label =>
      obtain ⟨-, hmap⟩ := Option.ite_none_right_eq_some.mp hstep
      obtain ⟨room, -, rfl⟩ := Option.map_eq_some_iff.mp hmap
      exact ⟨h, fun _ hplayer => hplayer⟩
  | event =>
      simp only [Stream.State.step] at hstep
      split at hstep
      · obtain ⟨conn, hconn, rfl⟩ := Option.map_eq_some_iff.mp hstep
        rw [(Stream.settle_fields _).1]
        exact h.step hconn
      · cases hstep
  | task label =>
      obtain ⟨-, hmap⟩ := Option.ite_none_right_eq_some.mp hstep
      obtain ⟨conn, hconn, rfl⟩ := Option.map_eq_some_iff.mp hmap
      rw [(Stream.settle_fields _).1]
      exact h.step hconn
  | broadcast notice =>
      obtain ⟨-, hmap⟩ := Option.ite_none_right_eq_some.mp hstep
      obtain ⟨conn, hconn, rfl⟩ := Option.map_eq_some_iff.mp hmap
      exact h.step hconn
  | release =>
      obtain ⟨-, hsome⟩ := Option.ite_none_right_eq_some.mp hstep
      obtain rfl := Option.some.inj hsome
      exact ⟨h, fun _ hplayer => hplayer⟩
  | writer label =>
      obtain ⟨-, hmap⟩ := Option.ite_none_right_eq_some.mp hstep
      obtain ⟨x, -, rfl⟩ := Option.map_eq_some_iff.mp hmap
      have hbase := h.inv.base
      exact ⟨⟨⟨⟨hbase.fixed, hbase.lawful, hbase.stored, hbase.bound⟩, h.inv.reader, h.inv.translator⟩, h.own⟩,
        fun _ hplayer => hplayer⟩

end

/-- A connection that `handle_admitted_connection` set up, after some steps of its own. -/
def Reached (g : Generated) (setup : Setup β) (config : ConnectionConfig) (roomEventCapacity : Nat) (k : SinkId)
    (c : Stream.State β) : Prop :=
  ∃ now deadline utcNow bucket labels,
    (Stream.system g (setupOf setup k) config (Stream.init config roomEventCapacity now deadline utcNow bucket)).run
      (Stream.init config roomEventCapacity now deadline utcNow bucket) labels = some c

section
variable {roomEventCapacity : Nat} {k : SinkId} {c c' : Stream.State β}

theorem Reached.step {label : Stream.Label} (h : Reached g setup config roomEventCapacity k c)
    (hstep : c.step g (setupOf setup k) config label = some c') : Reached g setup config roomEventCapacity k c' := by
  obtain ⟨now, deadline, utcNow, bucket, labels, hrun⟩ := h
  exact ⟨now, deadline, utcNow, bucket, labels ++ [label], TransitionSystem.run_concat.mpr ⟨c, hrun, hstep⟩⟩

theorem Reached.asking (h : Reached g setup config roomEventCapacity k c) :
    ∃ deadline, Asking (setupOf setup k) deadline c.conn := by
  obtain ⟨now, deadline, utcNow, bucket, labels, hrun⟩ := h
  refine ⟨deadline, TransitionSystem.run_invariant (I := fun d => Asking (setupOf setup k) deadline d.conn)
    (fun _ _ _ h hstep => (stream_asking h hstep).1) ⟨ReadLoop.inv_accept _ _ _ _ _, fun op hop => ?_⟩ hrun⟩
  cases hop

end

/-! ## The rooms and what they send -/

/-- The player that a connection is bound to; its sink is the player's. -/
def State.owner (s : State β) (k : SinkId) : Option (PlayerId × String) :=
  (s.conns[k]?.bind fun c => c.conn.auth.player).map fun player => (player.playerId, player.nickname)

def State.told (s : State β) (k : SinkId) : List RoomEvent := (s.conns[k]?.map passedTo).getD []

def about (room : RoomId) (events : List RoomEvent) : List RoomEvent := events.filter fun e => decide (e.roomId = room)

theorem about_append (room : RoomId) (x y : List RoomEvent) : about room (x ++ y) = about room x ++ about room y :=
  List.filter_append ..

def State.given (s : State β) (room : RoomId) (k : SinkId) : List RoomEvent :=
  about room (s.told k) ++ eventsTo k (s.pending room)

def Keeps (owner owner' : SinkId → Option (PlayerId × String)) : Prop := ∀ k x, owner k = some x → owner' k = some x

/-- The player of a join is the one of the connection whose sink it brings. -/
def OpOwned (owner : SinkId → Option (PlayerId × String)) : Op → Prop
  | .joinOrCreate _ player nickname sink => owner sink = some (player, nickname)
  | _ => True

section
variable {owner owner' : SinkId → Option (PlayerId × String)}

theorem joinOwned_mono {ρ : Type} (h : Keeps owner owner') {command : RoomCommand ρ} (hc : JoinOwned owner command) :
    JoinOwned owner' command := by
  cases command with
  | join => exact h _ _ hc
  | chat | leave | close => trivial

theorem inputOwned_mono {ρ : Type} (h : Keeps owner owner') {i : Input ρ} (hi : InputOwned owner i) :
    InputOwned owner' i := by
  cases i with
  | command => exact joinOwned_mono h hi
  | finish => trivial

theorem opOwned_mono (h : Keeps owner owner') {op : Op} (hop : OpOwned owner op) : OpOwned owner' op := by
  cases op with
  | joinOrCreate => exact h _ _ hop
  | leave | leaveAll | chat | closeAll => trivial

end

/-- **A room of the service**: the actor after these inputs, which has performed these effects; what it broadcast is in
the log, and goes to the sinks. -/
structure Hosted (maxPlayers : Nat) (s : State β) (room : RoomId) (t : RoomTask) (inputs : List (Input CallId))
    (done : List (Effect CallId)) : Prop where
  owned : ∀ i ∈ inputs, InputOwned s.owner i
  queued : ∀ command ∈ t.queue, JoinOwned s.owner command
  actor : t.actor = (after room maxPlayers inputs).actor
  stopping : t.stopping = (after room maxPlayers inputs).stopped
  effects : (after room maxPlayers inputs).effects = done ++ t.outbox
  log : s.log room = done.filterMap eventOf
  sent : ∀ k, s.given room k = eventsTo k (done.flatMap sendsOf)

section
variable {maxPlayers : Nat} {s s' : State β} {room : RoomId} {t t' : RoomTask} {inputs : List (Input CallId)}
  {done : List (Effect CallId)}

theorem Hosted.frame (h : Hosted maxPlayers s room t inputs done) (howner : Keeps s.owner s'.owner)
    (hlog : s'.log room = s.log room) (hgiven : ∀ k, s'.given room k = s.given room k) :
    Hosted maxPlayers s' room t inputs done :=
  ⟨fun i hi => inputOwned_mono howner (h.owned i hi), fun command hc => joinOwned_mono howner (h.queued command hc), h.actor,
    h.stopping, h.effects, hlog.trans h.log, fun k => (hgiven k).trans (h.sent k)⟩

theorem Hosted.queue (h : Hosted maxPlayers s room t inputs done) (hqueued : ∀ command ∈ t'.queue, JoinOwned s.owner command)
    (hactor : t'.actor = t.actor) (hstopping : t'.stopping = t.stopping) (houtbox : t'.outbox = t.outbox) :
    Hosted maxPlayers s room t' inputs done :=
  ⟨h.owned, hqueued, hactor.trans h.actor, hstopping.trans h.stopping, houtbox ▸ h.effects, h.log, h.sent⟩

/-- **The actor handles a command**, which is one more input. -/
theorem Hosted.process (h : Hosted maxPlayers s room t inputs done) (hidle : t.idle = true)
    {command : RoomCommand CallId} {rest : List (RoomCommand CallId)} (hqueue : t.queue = command :: rest) :
    Hosted maxPlayers s room (t.process command rest) (inputs ++ [.command command]) done := by
  obtain ⟨-, hstopping, houtbox⟩ := Service.RoomTask.idle_iff.mp hidle
  have hqueued := h.queued
  rw [hqueue] at hqueued
  obtain ⟨hcommand, hrest⟩ := List.forall_mem_cons.mp hqueued
  have heffects := h.effects
  rw [houtbox, List.append_nil] at heffects
  have hafter : after room maxPlayers (inputs ++ [.command command]) =
      ⟨(t.actor.handle command).1, done ++ (t.actor.handle command).2.1, (t.actor.handle command).2.2⟩ := by
    rw [after_concat, input, RoomActor.Progress.feed_running (h.stopping.symm.trans hstopping), h.actor, heffects]
  refine ⟨List.forall_mem_append.mpr ⟨h.owned, List.forall_mem_singleton.mpr hcommand⟩, hrest, ?_, ?_, ?_, h.log, h.sent⟩
  · rw [hafter]
    rfl
  · rw [hafter]
    rfl
  · rw [hafter]
    rfl

theorem Hosted.hangup (h : Hosted maxPlayers s room t inputs done) (hidle : t.idle = true) :
    Hosted maxPlayers s room { t with
      actor := (t.actor.finish (ρ := CallId) "房间通道已关闭").1
      outbox := (t.actor.finish "房间通道已关闭").2
      stopping := true } (inputs ++ [.finish]) done := by
  obtain ⟨-, hstopping, houtbox⟩ := Service.RoomTask.idle_iff.mp hidle
  have heffects := h.effects
  rw [houtbox, List.append_nil] at heffects
  have hafter : after room maxPlayers (inputs ++ [.finish]) =
      ⟨(t.actor.finish (ρ := CallId) "房间通道已关闭").1, done ++ (t.actor.finish "房间通道已关闭").2, true⟩ := by
    rw [after_concat, input, h.actor, heffects]
  refine ⟨List.forall_mem_append.mpr ⟨h.owned, List.forall_mem_singleton.mpr trivial⟩, h.queued, ?_, ?_, ?_, h.log, h.sent⟩
  · rw [hafter]
  · rw [hafter]
  · rw [hafter]

/-- **The actor performs an effect**: a broadcast is in the log, and its sends are next. -/
theorem Hosted.perform (h : Hosted maxPlayers s room t inputs done) {e : Effect CallId} {rest : List (Effect CallId)}
    (houtbox : t.outbox = e :: rest) (hpending : s.pending room = []) (service : Service.State) :
    Hosted maxPlayers { s.announce (some (room, e)) with service := service } room { t with outbox := rest } inputs
      (done ++ [e]) := by
  have heffects : (after room maxPlayers inputs).effects = (done ++ [e]) ++ rest := by
    rw [h.effects, houtbox, List.append_assoc]
    rfl
  have hbefore : ∀ k, about room (s.told k) = eventsTo k (done.flatMap sendsOf) := by
    intro k
    rw [← h.sent k, State.given, hpending]
    exact (List.append_nil _).symm
  cases e with
  | replyJoin | replyLeave =>
      refine ⟨h.owned, h.queued, h.actor, h.stopping, heffects, ?_, fun k => ?_⟩
      · rw [List.filterMap_append]
        exact h.log.trans (List.append_nil _).symm
      · rw [List.flatMap_append, eventsTo_append]
        exact (h.sent k).trans (List.append_nil _).symm
  | broadcast targets event =>
      refine ⟨h.owned, h.queued, h.actor, h.stopping, heffects, ?_, fun k => ?_⟩
      · rw [List.filterMap_append, ← h.log]
        exact Function.update_self ..
      · rw [List.flatMap_append, eventsTo_append, ← hbefore k]
        refine congrArg (about room (s.told k) ++ ·) ?_
        rw [List.flatMap_singleton]
        exact congrArg (eventsTo k) (Function.update_self ..)

theorem Hosted.addressed (h : Hosted maxPlayers s room t inputs done) : Addressed s.owner [] done := by
  obtain ⟨-, haddressed, -⟩ := after_addressed room maxPlayers h.owned
  rw [h.effects] at haddressed
  exact (addressed_append.mp haddressed).1

theorem Hosted.events (h : Hosted maxPlayers s room t inputs done) :
    Broadcast.log (after room maxPlayers inputs) = s.log room ++ t.outbox.filterMap eventOf := by
  rw [Broadcast.log, h.effects, List.filterMap_append, h.log]

end

/-! ## The server -/

section
variable (g setup config) (rooms : RoomServiceConfig) (roomEventCapacity : Nat)

/-- What every run of the server keeps. -/
structure Inv (s : State β) : Prop where
  conns : ∀ k c, s.conns[k]? = some c → Reached g setup config roomEventCapacity k c
  service : Service.Inv s.service
  asked : ∀ (j : CallId) call, s.service.calls[j]? = some call → OpOwned s.owner call.op
  hosted : ∀ room t, s.service.rooms room = some t → ∃ inputs done, Hosted rooms.maxPlayers s room t inputs done
  unopened : ∀ room, s.service.rooms room = none → s.log room = [] ∧ ∀ k, s.given room k = []
  sends : ∀ room, ∀ x ∈ s.pending room, x.2.roomId = room

end

section
variable {rooms : RoomServiceConfig} {roomEventCapacity : Nat} {s s' : State β}

/-- The rule for a step that leaves the room service alone. -/
theorem Inv.frame (h : Inv g setup config rooms roomEventCapacity s) (hservice : s'.service = s.service)
    (hlog : s'.log = s.log) (hconns : ∀ k c, s'.conns[k]? = some c → Reached g setup config roomEventCapacity k c)
    (howner : Keeps s.owner s'.owner) (hgiven : ∀ room k, s'.given room k = s.given room k)
    (hsends : ∀ room, ∀ x ∈ s'.pending room, x.2.roomId = room) : Inv g setup config rooms roomEventCapacity s' := by
  refine ⟨hconns, hservice ▸ h.service, fun j call hcall => ?_, fun room t ht => ?_, fun room hroom => ?_, hsends⟩
  · rw [hservice] at hcall
    exact opOwned_mono howner (h.asked j call hcall)
  · rw [hservice] at ht
    obtain ⟨inputs, done, hhosted⟩ := h.hosted room t ht
    exact ⟨inputs, done, hhosted.frame howner (congrFun hlog room) (hgiven room)⟩
  · rw [hservice] at hroom
    obtain ⟨hempty, hnone⟩ := h.unopened room hroom
    exact ⟨(congrFun hlog room).trans hempty, fun k => (hgiven room k).trans (hnone k)⟩

/-! ### Steps of the connections -/

/-- What a step of one connection does to the server. -/
structure ConnStepped (k : SinkId) (label : Stream.Label) (s s' : State β) : Prop where
  service : s'.service = s.service
  log : s'.log = s.log
  pending : s'.pending = s.pending
  told : ∀ j, s'.told j = s.told j ++ if j = k then passed label else []
  owner : Keeps s.owner s'.owner

theorem connStep_stepped (h : Inv g setup config rooms roomEventCapacity s) {k : SinkId} {label : Stream.Label}
    (hstep : s.connStep g setup config k label = some s') : ConnStepped k label s s' ∧
      ∀ j c, s'.conns[j]? = some c → Reached g setup config roomEventCapacity j c := by
  unfold State.connStep at hstep
  split at hstep
  · next c hc =>
    obtain ⟨c', hc', rfl⟩ := Option.map_eq_some_iff.mp hstep
    have hreached := h.conns k c hc
    obtain ⟨deadline, hasking⟩ := hreached.asking
    refine ⟨⟨rfl, rfl, rfl, fun j => ?_, fun j x hx => ?_⟩, fun j d hd => ?_⟩
    · by_cases hj : j = k
      · subst hj
        rw [if_pos rfl]
        simp only [State.told, Indexed.set_self hc, hc, Option.map_some, Option.getD_some]
        exact step_passed hc'
      · rw [if_neg hj, List.append_nil]
        simp only [State.told, Indexed.set_of_ne hj]
    · by_cases hj : j = k
      · subst hj
        simp only [State.owner, hc, Option.bind_some] at hx
        obtain ⟨player, hplayer, rfl⟩ := Option.map_eq_some_iff.mp hx
        simp only [State.owner, Indexed.set_self hc, Option.bind_some, (stream_asking hasking hc').2 player hplayer,
          Option.map_some]
      · simp only [State.owner, Indexed.set_of_ne hj]
        exact hx
    · obtain ⟨rfl, rfl⟩ | ⟨-, hd⟩ := Indexed.set_cases hd
      · exact hreached.step hc'
      · exact h.conns j d hd
  · cases hstep

theorem Inv.connStep (h : Inv g setup config rooms roomEventCapacity s) {k : SinkId} {label : Stream.Label}
    (hlabel : passed label = []) (hstep : s.connStep g setup config k label = some s') :
    Inv g setup config rooms roomEventCapacity s' := by
  obtain ⟨hstepped, hconns⟩ := connStep_stepped h hstep
  refine h.frame hstepped.service hstepped.log hconns hstepped.owner (fun room j => ?_) ?_
  · rw [State.given, hstepped.told j, hstepped.pending, hlabel, ite_self, List.append_nil]
    rfl
  · rw [hstepped.pending]
    exact h.sends

theorem Inv.accept (h : Inv g setup config rooms roomEventCapacity s) (now deadline : Instant) (utcNow : Int)
    (bucket : Option β) : Inv g setup config rooms roomEventCapacity
      { s with conns := s.conns ++ [Stream.init config roomEventCapacity now deadline utcNow bucket] } := by
  have hnew : ∀ j : Nat, (s.conns ++ [Stream.init config roomEventCapacity now deadline utcNow bucket])[j]? = s.conns[j]? ∨
      (s.conns[j]? = none ∧ (s.conns ++ [Stream.init config roomEventCapacity now deadline utcNow bucket])[j]? =
        some (Stream.init config roomEventCapacity now deadline utcNow bucket)) := by
    intro j
    obtain hlt | hle := Nat.lt_or_ge j s.conns.length
    · exact .inl (List.getElem?_append_left hlt)
    · obtain rfl | hlt := Nat.eq_or_lt_of_le hle
      · exact .inr ⟨List.getElem?_eq_none hle, List.getElem?_concat_length⟩
      · refine .inl ((List.getElem?_eq_none ?_).trans (List.getElem?_eq_none hle).symm)
        rw [List.length_append]
        exact hlt
  refine h.frame rfl rfl (fun k c hc => ?_) (fun k x hx => ?_) (fun room k => ?_) h.sends
  · obtain hsame | ⟨-, hsome⟩ := hnew k
    · exact h.conns k c (hsame.symm.trans hc)
    · obtain rfl := Option.some.inj (hsome.symm.trans hc)
      exact ⟨now, deadline, utcNow, bucket, [], rfl⟩
  · obtain hsame | ⟨hnone, -⟩ := hnew k
    · simp only [State.owner, hsame]
      exact hx
    · simp only [State.owner, hnone] at hx
      cases hx
  · obtain hsame | ⟨hnone, hsome⟩ := hnew k
    · simp only [State.given, State.told, hsame]
    · simp only [State.given, State.told, hnone, hsome]
      rfl

theorem eventsTo_head (j k : SinkId) (event : RoomEvent) (rest : List (SinkId × RoomEvent)) :
    eventsTo j ((k, event) :: rest) = (if j = k then [event] else []) ++ eventsTo j rest := by
  by_cases hj : j = k
  · subst hj
    simp [eventsTo]
  · simp [eventsTo, hj, Ne.symm hj]

theorem Inv.send (h : Inv g setup config rooms roomEventCapacity s) {room : RoomId} {clone : Nat} {k : SinkId}
    {event : RoomEvent} {rest : List (SinkId × RoomEvent)} (hpending : s.pending room = (k, event) :: rest)
    (hstep : s.connStep g setup config k (.room (.trySend clone event)) = some s') :
    Inv g setup config rooms roomEventCapacity { s' with pending := Function.update s'.pending room rest } := by
  obtain ⟨hstepped, hconns⟩ := connStep_stepped h hstep
  have hmine : ∀ x ∈ (k, event) :: rest, x.2.roomId = room := hpending ▸ h.sends room
  refine h.frame hstepped.service hstepped.log hconns hstepped.owner (fun r j => ?_) fun r x hx => ?_
  · show about r (s'.told j) ++ eventsTo j (Function.update s'.pending room rest r) = about r (s.told j) ++ _
    rw [hstepped.told j, about_append, hstepped.pending, List.append_assoc]
    refine congrArg (about r (s.told j) ++ ·) ?_
    by_cases hr : r = room
    · subst hr
      rw [Function.update_self, hpending, eventsTo_head]
      refine congrArg (· ++ eventsTo j rest) ?_
      split_ifs
      · exact List.filter_eq_self.mpr fun e he => decide_eq_true (List.mem_singleton.mp he ▸ hmine _ List.mem_cons_self)
      · rfl
    · rw [Function.update_of_ne hr]
      have hnone : about r (if j = k then passed (.room (.trySend clone event)) else []) = [] := by
        refine List.filter_eq_nil_iff.mpr fun e he => ?_
        split_ifs at he
        · obtain rfl := List.mem_singleton.mp he
          rw [decide_eq_true_eq, hmine _ List.mem_cons_self]
          exact Ne.symm hr
        · cases he
      rw [hnone]
      rfl
  · by_cases hr : r = room
    · subst hr
      replace hx : x ∈ Function.update s'.pending r rest r := hx
      rw [Function.update_self] at hx
      exact hmine x (List.mem_cons_of_mem _ hx)
    · replace hx : x ∈ Function.update s'.pending room rest r := hx
      rw [Function.update_of_ne hr, hstepped.pending] at hx
      exact h.sends r x hx

/-! ### Steps of the room service -/

theorem joinOwned_sends {owner : SinkId → Option (PlayerId × String)} {k : CallId} {op : Op} {command : RoomCommand CallId}
    (hop : OpOwned owner op) (hsends : ∀ j, Service.replyOf command = some j → op.Sends k command) :
    JoinOwned owner command := by
  cases command with
  | join p nickname sink reply =>
      have hjoin := hsends reply rfl
      cases op with
      | joinOrCreate room player nick roomTx =>
          obtain ⟨rfl, rfl, rfl, -⟩ := RoomCommand.join.inj hjoin
          exact hop
      | leave | leaveAll => cases hjoin
      | chat | closeAll => exact hjoin.elim
  | chat | leave | close => trivial

theorem callStep_op {service service' : Service.State} {label : Service.Label} {k : CallId} {call call' : Service.Call}
    (h : Service.CallStep rooms service service' label k call call') : call'.op = call.op := by
  cases h with
  | same | opened | next | retain | drain | cancel => rfl
  | answered r call' h =>
      cases h with
      | same | join | leave => rfl

theorem announce_conns (effect : Option (RoomId × Effect CallId)) : (s.announce effect).conns = s.conns := by
  unfold State.announce
  split <;> rfl

theorem announce_elsewhere {room r : RoomId} (hr : r ≠ room) (effect : Effect CallId) :
    (s.announce (some (room, effect))).log r = s.log r ∧ (s.announce (some (room, effect))).pending r = s.pending r := by
  cases effect with
  | broadcast => exact ⟨Function.update_of_ne hr _ _, Function.update_of_ne hr _ _⟩
  | replyJoin | replyLeave => exact ⟨rfl, rfl⟩

theorem performed_eq {service : Service.State} {room : RoomId} {t : RoomTask} {e : Effect CallId}
    {rest : List (Effect CallId)} (ht : service.rooms room = some t) (houtbox : t.outbox = e :: rest) :
    performed service (.perform room) = some (room, e) := by
  rw [performed, ht, Option.bind_some, houtbox]
  rfl

theorem performed_opened {service : Service.State} {label : Service.Label} {room : RoomId} {e : Effect CallId}
    (h : performed service label = some (room, e)) : service.rooms room ≠ none := by
  unfold performed at h
  split at h
  · obtain ⟨t, ht, hmap⟩ := Option.bind_eq_some_iff.mp h
    obtain ⟨effect, -, heq⟩ := Option.map_eq_some_iff.mp hmap
    obtain ⟨rfl, -⟩ := Prod.mk.inj heq
    rw [ht]
    exact Option.some_ne_none t
  · cases h

section
variable {label : Service.Label} {service : Service.State}

theorem Inv.asked_step (h : Inv g setup config rooms roomEventCapacity s) (hlabel : ∀ op, label = .start op → OpOwned s.owner op)
    (hstep : s.service.step rooms label = some service) (j : CallId) (call : Service.Call)
    (hcall : service.calls[j]? = some call) : OpOwned s.owner call.op := by
  obtain ⟨-, op, rfl, rfl⟩ | ⟨call', hcall', hcallStep⟩ := (Service.step_taken hstep).call hcall
  · exact hlabel op rfl
  · rw [callStep_op hcallStep]
    exact h.asked j call' hcall'

theorem Inv.hosted_update (h : Inv g setup config rooms roomEventCapacity s) {room r : RoomId} {t t' : RoomTask}
    {f : RoomTask → RoomTask} (ht : s.service.rooms room = some t)
    (hf : ∀ inputs done, Hosted rooms.maxPlayers s room t inputs done →
      ∃ inputs', Hosted rooms.maxPlayers s room (f t) inputs' done)
    (ht' : (s.service.update room f).rooms r = some t') : ∃ inputs done, Hosted rooms.maxPlayers s r t' inputs done := by
  obtain ⟨t₁, rfl, ht₁, rfl⟩ | ⟨-, ht'⟩ := Service.State.update_cases ht'
  · obtain rfl := Option.some.inj (ht.symm.trans ht₁)
    obtain ⟨inputs, done, hhosted⟩ := h.hosted _ t ht
    obtain ⟨inputs', hhosted'⟩ := hf inputs done hhosted
    exact ⟨inputs', done, hhosted'⟩
  · exact h.hosted r t' ht'

/-- **The rooms after a step**, by what the service does. -/
theorem Inv.hosted_step (h : Inv g setup config rooms roomEventCapacity s)
    (hpending : ∀ room, label = .perform room → s.pending room = []) (hstep : s.service.step rooms label = some service)
    (r : RoomId) (t' : RoomTask) (ht' : service.rooms r = some t') : ∃ inputs done, Hosted rooms.maxPlayers
      { s.announce (performed s.service label) with service := service } r t' inputs done := by
  have hquiet : ∀ (service : Service.State) (t' : RoomTask), (∃ inputs done, Hosted rooms.maxPlayers s r t' inputs done) →
      ∃ inputs done, Hosted rooms.maxPlayers { s with service := service } r t' inputs done := by
    rintro service t' ⟨inputs, done, hhosted⟩
    exact ⟨inputs, done, hhosted.frame (fun _ _ hx => hx) rfl fun _ => rfl⟩
  cases Service.step_stepped hstep with
  | start | liveHandles | drain | cancel => exact hquiet _ _ (h.hosted r t' ht')
  | openRoom k r₀ op sent hc hfree =>
      refine hquiet _ _ ?_
      by_cases hr : r = r₀
      · subst hr
        obtain rfl := Option.some.inj ((Function.update_self r _ s.service.rooms).symm.trans ht')
        obtain ⟨hlog, hgiven⟩ := h.unopened r hfree
        exact ⟨[], [], List.forall_mem_nil _, List.forall_mem_nil _, rfl, rfl, rfl, hlog, hgiven⟩
      · exact h.hosted r t' ((Function.update_of_ne hr _ s.service.rooms).symm.trans ht')
  | next k c act pc hc hadvance =>
      obtain ⟨t, ht, hchange⟩ := Service.State.move_rooms ht'
      obtain ⟨inputs, done, hhosted⟩ := h.hosted r t ht
      refine hquiet _ _ ⟨inputs, done, ?_⟩
      obtain rfl | ⟨-, rfl⟩ | ⟨command, rfl, rfl⟩ := hchange
      · exact hhosted
      · exact hhosted.queue hhosted.queued rfl rfl rfl
      · refine hhosted.queue (List.forall_mem_append.mpr ⟨hhosted.queued, List.forall_mem_singleton.mpr ?_⟩) rfl rfl rfl
        cases Service.advance_acts hadvance with
        | enqueue _ _ hsends => exact joinOwned_sends (h.asked k c hc) hsends
  | process r₀ t₀ command rest ht₀ hidle hqueue =>
      exact hquiet _ _ (h.hosted_update ht₀ (fun _ _ hhosted => ⟨_, hhosted.process hidle hqueue⟩) ht')
  | perform r₀ t₀ e rest ht₀ houtbox =>
      rw [performed_eq ht₀ houtbox]
      have hrooms : (s.service.update r₀ fun task => { task with outbox := rest }).rooms r = some t' := by
        cases e with
        | replyJoin | replyLeave | broadcast => exact ht'
      obtain ⟨t, rfl, ht, rfl⟩ | ⟨hr, ht⟩ := Service.State.update_cases hrooms
      · obtain rfl := Option.some.inj (ht₀.symm.trans ht)
        obtain ⟨inputs, done, hhosted⟩ := h.hosted _ _ ht₀
        exact ⟨inputs, done ++ [e], hhosted.perform houtbox (hpending _ rfl) _⟩
      · obtain ⟨inputs, done, hhosted⟩ := h.hosted r t' ht
        obtain ⟨hlog, hsends⟩ := announce_elsewhere hr e
        refine ⟨inputs, done, hhosted.frame (fun k x hx => ?_) hlog fun k => ?_⟩
        · simp only [State.owner, announce_conns]
          exact hx
        · simp only [State.given, State.told, announce_conns, hsends]
  | hangup r₀ t₀ ht₀ hidle =>
      exact hquiet _ _ (h.hosted_update ht₀ (fun _ _ hhosted => ⟨_, hhosted.hangup hidle⟩) ht')
  | terminate r₀ t₀ ht₀ hstopping houtbox =>
      have hqueue : ∀ inputs done, Hosted rooms.maxPlayers s r₀ t₀ inputs done →
          ∃ inputs', Hosted rooms.maxPlayers s r₀ t₀.terminated inputs' done :=
        fun inputs _ hhosted => ⟨inputs, hhosted.queue (List.forall_mem_nil _) rfl rfl rfl⟩
      exact hquiet _ _ (h.hosted_update ht₀ hqueue ht')

theorem Inv.sends_step (h : Inv g setup config rooms roomEventCapacity s) (hstep : s.service.step rooms label = some service)
    (room : RoomId) : ∀ x ∈ (s.announce (performed s.service label)).pending room, x.2.roomId = room := by
  intro x hx
  cases Service.step_stepped hstep with
  | start | openRoom | next | liveHandles | drain | cancel | process | hangup | terminate => exact h.sends room x hx
  | perform r₀ t₀ e rest ht₀ houtbox =>
      rw [performed_eq ht₀ houtbox] at hx
      by_cases hr : room = r₀
      · subst hr
        obtain ⟨inputs, done, hhosted⟩ := h.hosted room t₀ ht₀
        cases e with
        | replyJoin | replyLeave => exact h.sends room x hx
        | broadcast targets event =>
            replace hx : x ∈ Function.update s.pending room (targets.map fun sink => (sink, event)) room := hx
            rw [Function.update_self] at hx
            obtain ⟨sink, -, rfl⟩ := List.mem_map.mp hx
            refine after_roomId room rooms.maxPlayers inputs event ?_
            rw [hhosted.events, houtbox]
            exact List.mem_append_right _ List.mem_cons_self
      · rw [(announce_elsewhere hr e).2] at hx
        exact h.sends room x hx

/-- **A step of the room service.** -/
theorem Inv.serve (h : Inv g setup config rooms roomEventCapacity s) (hlabel : ∀ op, label = .start op → OpOwned s.owner op)
    (hpending : ∀ room, label = .perform room → s.pending room = []) (hstep : s.service.step rooms label = some service) :
    Inv g setup config rooms roomEventCapacity { s.announce (performed s.service label) with service := service } := by
  have hleads := h.service.step hstep
  refine ⟨fun k c hc => ?_, hleads.inv, fun j call hcall => ?_, h.hosted_step hpending hstep, fun room hroom => ?_,
    h.sends_step hstep⟩
  · refine h.conns k c ?_
    rw [← hc, announce_conns]
  · refine opOwned_mono (fun k x hx => ?_) (h.asked_step hlabel hstep j call hcall)
    simp only [State.owner, announce_conns]
    exact hx
  · have hclosed : s.service.rooms room = none := by
      rw [Option.eq_none_iff_forall_ne_some]
      intro t ht
      obtain ⟨t', ht', -⟩ := hleads.grows.rooms room t ht
      rw [hroom] at ht'
      cases ht'
    obtain ⟨hlog, hgiven⟩ := h.unopened room hclosed
    cases hperformed : performed s.service label with
    | none => exact ⟨hlog, hgiven⟩
    | some x =>
        obtain ⟨r, e⟩ := x
        have hr : room ≠ r := fun heq => performed_opened hperformed (heq ▸ hclosed)
        obtain ⟨hlog', hsends⟩ := announce_elsewhere hr e (s := s)
        refine ⟨hlog'.trans hlog, fun k => ?_⟩
        rw [← hgiven k]
        simp only [State.given, State.told, announce_conns, hsends]

end

/-! ### Every step -/

theorem Inv.calling (h : Inv g setup config rooms roomEventCapacity s) (calling : SinkId → Option CallId) :
    Inv g setup config rooms roomEventCapacity { s with calling := calling } :=
  h.frame rfl rfl h.conns (fun _ _ hx => hx) (fun _ _ => rfl) h.sends

theorem Inv.awaited_owned (h : Inv g setup config rooms roomEventCapacity s) {k : SinkId} {op : Op}
    (hawaits : (s.conns[k]?.bind fun c => c.conn.awaited) = some op) : OpOwned s.owner op := by
  obtain ⟨c, hc, hop⟩ := Option.bind_eq_some_iff.mp hawaits
  obtain ⟨deadline, hasking⟩ := (h.conns k c hc).asking
  have hown := hasking.own op hop
  cases op with
  | joinOrCreate target player nickname sink =>
      obtain ⟨hplayer, rfl⟩ := hown
      simp only [OpOwned, State.owner, hc, Option.bind_some, hplayer, Option.map_some]
  | leave | leaveAll | chat | closeAll => trivial

/-- **Every step of the server keeps the invariant.** -/
theorem Inv.step (h : Inv g setup config rooms roomEventCapacity s) {label : Label β}
    (hstep : s.step g setup config rooms roomEventCapacity label = some s') :
    Inv g setup config rooms roomEventCapacity s' := by
  cases label with
  | accept now deadline utcNow bucket =>
      obtain rfl := Option.some.inj hstep
      exact h.accept now deadline utcNow bucket
  | conn k label =>
      obtain ⟨hlabel, hstep⟩ := Option.ite_none_right_eq_some.mp hstep
      exact h.connStep (passed_byItself hlabel) hstep
  | call k =>
      simp only [State.step] at hstep
      split at hstep
      · next op hawaits _ =>
        obtain ⟨service, hservice, rfl⟩ := Option.map_eq_some_iff.mp hstep
        have hlabel : ∀ op', Service.Label.start op = .start op' → OpOwned s.owner op' := by
          intro op' heq
          obtain rfl := Service.Label.start.inj heq
          exact h.awaited_owned hawaits
        exact (h.serve hlabel (fun room hroom => by cases hroom) hservice).calling _
      · cases hstep
  | answer k =>
      simp only [State.step] at hstep
      split at hstep
      · obtain ⟨s₁, hconn, rfl⟩ := Option.map_eq_some_iff.mp hstep
        exact (h.connStep rfl hconn).calling _
      · cases hstep
  | service label =>
      obtain ⟨hready, hstep⟩ := Option.ite_none_right_eq_some.mp hstep
      obtain ⟨service, hservice, rfl⟩ := Option.map_eq_some_iff.mp hstep
      refine h.serve (fun op hop => ?_) (fun room hroom => ?_) hservice
      · subst hop
        cases op with
        | joinOrCreate => cases hready
        | leave | leaveAll | chat | closeAll => trivial
      · subst hroom
        exact List.isEmpty_iff.mp hready
  | send room clone =>
      simp only [State.step] at hstep
      split at hstep
      · cases hstep
      · next k event rest hpending =>
        obtain ⟨s₁, hconn, rfl⟩ := Option.map_eq_some_iff.mp hstep
        exact h.send hpending hconn

theorem init_inv : Inv g setup config rooms roomEventCapacity (init β rooms) where
  conns _ _ hc := by cases hc
  service := Service.init_inv rooms
  asked _ _ hcall := by cases hcall
  hosted _ _ ht := by cases ht
  unopened _ _ := ⟨rfl, fun _ => rfl⟩
  sends _ _ hx := by cases hx

theorem run_inv {labels : List (Label β)}
    (hrun : (system g setup config rooms roomEventCapacity).run (init β rooms) labels = some s) :
    Inv g setup config rooms roomEventCapacity s :=
  TransitionSystem.run_invariant (fun _ _ _ h hstep => h.step hstep) init_inv hrun

/-! ## What the clients are told -/

theorem Inv.named (h : Inv g setup config rooms roomEventCapacity s) (room : RoomId) :
    ∀ event ∈ s.log room, Named s.owner event := by
  intro event hevent
  cases ht : s.service.rooms room with
  | none =>
      rw [(h.unopened room ht).1] at hevent
      cases hevent
  | some t =>
      obtain ⟨inputs, done, hhosted⟩ := h.hosted room t ht
      refine after_named room rooms.maxPlayers hhosted.owned event ?_
      rw [hhosted.events]
      exact List.mem_append_left _ hevent

theorem Inv.given_heard (h : Inv g setup config rooms roomEventCapacity s) (room : RoomId) (k : SinkId) :
    (s.owner k = none → s.given room k = []) ∧
    ∀ p nickname, s.owner k = some (p, nickname) → (s.given room k).Sublist (heard p [] (s.log room)) ∧
      ((∀ j nickname', s.owner j = some (p, nickname') → j = k) → s.given room k = heard p [] (s.log room)) := by
  cases ht : s.service.rooms room with
  | none =>
      obtain ⟨hlog, hgiven⟩ := h.unopened room ht
      rw [hlog, hgiven k]
      exact ⟨fun _ => rfl, fun _ _ _ => ⟨List.nil_sublist _, fun _ => rfl⟩⟩
  | some t =>
      obtain ⟨inputs, done, hhosted⟩ := h.hosted room t ht
      have haddressed := hhosted.addressed
      rw [hhosted.sent k, hhosted.log]
      refine ⟨haddressed.nobody, fun p nickname howner => ?_⟩
      have hp : (s.owner k).map Prod.fst = some p := congrArg (Option.map Prod.fst) howner
      refine ⟨haddressed.sublist hp, fun honly => haddressed.exact hp fun j hj => ?_⟩
      obtain ⟨⟨q, nickname'⟩, hq, rfl⟩ := Option.map_eq_some_iff.mp hj
      exact honly j nickname' hq

/-- **What a client may decode of a room**: nothing before its connection is bound; then only what the room's log has for
its player, in that order; and nothing of that is missing in between, if the sink has not failed and the player has no
other connection. -/
structure Hears (s : State β) (k : SinkId) (failed : Bool) (room : RoomId) (events : List RoomEvent) : Prop where
  unbound : s.owner k = none → events = []
  within : ∀ p nickname, s.owner k = some (p, nickname) → events.Sublist (heard p [] (s.log room))
  gapless : ∀ p nickname, s.owner k = some (p, nickname) → failed = false →
    (∀ j nickname', s.owner j = some (p, nickname') → j = k) → events <+: heard p [] (s.log room)

theorem accepted_sublist (calls : List (RoomEvent × Bool)) : (Overflow.accepted calls).Sublist (calls.map Prod.fst) :=
  List.filter_sublist.map Prod.fst

theorem Inv.hears (h : Inv g setup config rooms roomEventCapacity s) {k : SinkId} {c : Stream.State β}
    (hc : s.conns[k]? = some c) (hall : c.room.sink.failed = false → Overflow.accepted c.room.calls = passedTo c)
    {events : List RoomEvent} (hevents : events <+: Overflow.accepted c.room.calls) (room : RoomId) :
    Hears s k c.room.sink.failed room (about room events) := by
  obtain ⟨hnobody, howned⟩ := h.given_heard room k
  have htold : s.told k = passedTo c := by
    rw [State.told, hc]
    rfl
  have hgiven : about room (passedTo c) <+: s.given room k := htold ▸ List.prefix_append _ _
  have hsub : (about room events).Sublist (s.given room k) :=
    ((hevents.sublist.trans (accepted_sublist _)).filter _).trans hgiven.sublist
  refine ⟨fun hunbound => ?_, fun p nickname howner => hsub.trans (howned p nickname howner).1,
    fun p nickname howner hfailed honly => ?_⟩
  · rw [hnobody hunbound] at hsub
    exact List.sublist_nil.mp hsub
  · rw [← (howned p nickname howner).2 honly]
    exact ((hall hfailed ▸ hevents).filter _).trans hgiven

/-- **The rooms and their clients agree.** Whatever the clients, the token store, the sockets and the operator do, in any
order of all steps: a room's log names only players that connections are bound to, under their nicknames; and the room
events that a client decodes of the bytes it received are, for each room, what `Hears` lets its player hear, in the wire's
words and as far as they fit a frame. A room whose sends are all performed has told the only connection of a player
everything that it is to hear, if its sink has not failed. -/
theorem clients_agree (hprost : g.Inverts) (h32 : config.maxFrameSize ≤ 2 ^ 32 - 1) {labels : List (Label β)}
    (hrun : (system g setup config rooms roomEventCapacity).run (init β rooms) labels = some s) :
    (∀ room, ∀ event ∈ s.log room, Named s.owner event) ∧
    ∀ k c, s.conns[k]? = some c →
      (∀ received, received <+: c.socket → ∀ limit reads fault, ∃ (seen : List OutboundMessage) (events : List RoomEvent),
        (Net.framesRead limit reads ⟨received, fault⟩).map (clientCodec g).decode = seen.map .ok ∧
        seen.filterMap Stream.notification =
          (events.map (roomEventToNotification setup.uuids)).filter (fun n => Stream.fits g config (.roomEvent n)) ∧
        ∀ room, Hears s k c.room.sink.failed room (about room events)) ∧
      ∀ room p nickname, s.pending room = [] → s.owner k = some (p, nickname) → c.room.sink.failed = false →
        (∀ j nickname', s.owner j = some (p, nickname') → j = k) →
        about room (Overflow.accepted c.room.calls) = heard p [] (s.log room) := by
  have h : Inv g setup config rooms roomEventCapacity s := run_inv hrun
  refine ⟨h.named, fun k c hc => ?_⟩
  obtain ⟨now, deadline, utcNow, bucket, connLabels, hconn⟩ := h.conns k c hc
  have hstream : Stream.Inv (setupOf setup k) c :=
    TransitionSystem.run_invariant (fun _ _ _ h hstep => h.step hstep) Stream.init_inv hconn
  refine ⟨fun received hreceived limit reads fault => ?_, fun room p nickname hpending howner hfailed honly => ?_⟩
  · obtain ⟨seen, hdecode, hfront⟩ := Stream.seen_front hprost h32 hconn hreceived limit reads fault
    obtain ⟨notes, hnotes, hseen⟩ := List.prefix_filter_iff.mp ((hfront.filterMap Stream.notification).trans hstream.events)
    obtain ⟨events, hevents, rfl⟩ := List.prefix_map_iff.mp hnotes
    exact ⟨seen, events, hdecode, hseen, h.hears hc hstream.accepted_all hevents⟩
  · rw [← ((h.given_heard room k).2 p nickname howner).2 honly, hstream.accepted_all hfailed, State.given, hpending,
      State.told, hc]
    exact (List.append_nil _).symm

end

def meetSetup : Setup Unit where
  prost := gameProto.prost
  uuids := ⟨fun _ => some 7, fun _ => "id"⟩
  tryAcquire bucket _ := (true, bucket)
  heartbeatTimeout := 30
  roomTx := 0

def enters (k : SinkId) (player : PlayerId) (nickname : String) (target : Option String) : List (Label Unit) :=
  [.accept 0 10 0 none, .conn k (.task .loop),
    .conn k (.task (.frame ⟨opC2sBind, gameProto.bindRequest.encodeToVec ⟨"tok"⟩⟩)),
    .conn k (.task (.resolved (.ok (some player)))), .conn k (.task (.found (.ok (some nickname)))), .conn k (.task .loop),
    .conn k (.task (.frame ⟨opC2sJoinRoom, gameProto.joinRoomRequest.encodeToVec ⟨target⟩⟩)),
    .conn k (.task (.resolved (.ok (some player)))), .call k]

/-- One client opens a room, another one joins it and is written what its sink took. -/
def meetLabels : List (Label Unit) :=
  enters 0 ⟨1⟩ "a" none ++ [.service (.openRoom 0 ⟨7⟩), .service (.next 0), .service (.next 0), .service (.next 0),
    .service (.process ⟨7⟩), .service (.perform ⟨7⟩), .service (.perform ⟨7⟩), .send ⟨7⟩ 0] ++
  enters 1 ⟨2⟩ "b" (some "id") ++ [.service (.next 1), .service (.next 1), .service (.process ⟨7⟩), .service (.perform ⟨7⟩),
    .service (.perform ⟨7⟩), .send ⟨7⟩ 0, .send ⟨7⟩ 0, .conn 1 .event, .conn 1 (.task (.eventResolved (.ok (some ⟨2⟩)))),
    .service (.next 1), .service (.next 1), .answer 1, .conn 1 (.writer .recv), .conn 1 (.writer (.write 15)),
    .conn 1 (.writer .flush), .conn 1 (.writer .recv), .conn 1 (.writer (.write 19)), .conn 1 (.writer .flush)]

theorem clients_agree_meeting : ∃ s c,
    (system gameProto meetSetup ⟨64, 4⟩ ⟨4, 4⟩ 4).run (init Unit ⟨4, 4⟩) meetLabels = some s ∧ s.conns[1]? = some c ∧
    (∀ event ∈ s.log ⟨7⟩, Named s.owner event) ∧
    (∃ (seen : List OutboundMessage) (events : List RoomEvent),
      (Net.framesRead 64 2 ⟨c.socket, none⟩).map (clientCodec gameProto).decode = seen.map .ok ∧
      seen.filterMap Stream.notification = (events.map (roomEventToNotification meetSetup.uuids)).filter
        (fun n => Stream.fits gameProto ⟨64, 4⟩ (.roomEvent n)) ∧
      ∀ room, Hears s 1 c.room.sink.failed room (about room events)) ∧
    about ⟨7⟩ (Overflow.accepted c.room.calls) = [.memberJoined ⟨7⟩ ⟨2⟩ "b"] := by
  let s := ((system gameProto meetSetup ⟨64, 4⟩ ⟨4, 4⟩ 4).run (init Unit ⟨4, 4⟩) meetLabels).get (by decide +kernel)
  have hrun : (system gameProto meetSetup ⟨64, 4⟩ ⟨4, 4⟩ 4).run (init Unit ⟨4, 4⟩) meetLabels = some s :=
    (Option.some_get _).symm
  let c := s.conns[1]?.get (by decide +kernel)
  have hc : s.conns[1]? = some c := (Option.some_get _).symm
  obtain ⟨hnamed, hclients⟩ := clients_agree gameProto_inverts (by decide) hrun
  obtain ⟨hdecodes, htold⟩ := hclients 1 c hc
  refine ⟨s, c, hrun, hc, hnamed ⟨7⟩, hdecodes c.socket List.prefix_rfl 64 2 none, ?_⟩
  have honly : ∀ j nickname', s.owner j = some (⟨2⟩, nickname') → j = 1 := by
    intro j nickname' hj
    obtain ⟨player, hplayer, -⟩ := Option.map_eq_some_iff.mp hj
    obtain ⟨d, hd, -⟩ := Option.bind_eq_some_iff.mp hplayer
    obtain ⟨hlt, -⟩ := List.getElem?_eq_some_iff.mp hd
    have hlength : s.conns.length = 2 := by decide +kernel
    have hfirst : s.owner 0 = some (⟨1⟩, "a") := by decide +kernel
    obtain rfl | rfl := Nat.le_one_iff_eq_zero_or_eq_one.mp (Nat.le_of_lt_succ (hlt.trans_eq hlength))
    · rw [hfirst] at hj
      cases hj
    · rfl
  rw [htold ⟨7⟩ ⟨2⟩ "b" (by decide +kernel) (by decide +kernel) (by decide +kernel) honly]
  decide +kernel

end LongshipX.Server
