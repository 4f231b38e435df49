import LongshipX.Gateway.Alone
import LongshipX.Gateway.Isolation

/-!
# Atomic runs of the gateway are runs of the gateway

The gateway of `Gateway.World.step` interleaves the steps of all connections, calls and actors. Every run of
`Sequential.State.step`, in which an operation is one step, is such a run: each operation is taken alone.

* `Matches` : the two states between two operations;
* `Matches.step` : one atomic step is some steps of the gateway;
* `atomic_runs` : every atomic run has its counterpart.
-/

namespace LongshipX.Sequential
open Protocol Gateway
open Service (CallId Op RoomServiceConfig)

/-- A connection of the atomic gateway and the same one of the gateway. -/
structure Twin (conn : Conn) (twin : Gateway.Conn) : Prop where
  auth : twin.auth = conn.auth
  roomTx : twin.roomTx = conn.roomTx
  phase : conn.live = true → twin.phase = .reading

/-- The two gateways between two operations. -/
structure Matches (g : State) (w : World) : Prop where
  rooms : Resting g.rooms w.rooms
  length : w.conns.length = g.conns.length
  conns : ∀ (id : ConnId) (conn : Conn) (twin : Gateway.Conn), g.conns[id]? = some conn → w.conns[id]? = some twin →
    Twin conn twin

def Does (uuids : Uuids) (config : RoomServiceConfig) (w w' : World) : Prop :=
  ∃ labels, (Gateway.system uuids config).run w labels = some w'

section
variable {uuids : Uuids} {config : RoomServiceConfig} {g g' : State} {w w' w'' : World} {id : ConnId}

theorem Does.refl (w : World) : Does uuids config w w := ⟨[], rfl⟩

theorem Does.trans (h : Does uuids config w w') (h' : Does uuids config w' w'') : Does uuids config w w'' := by
  obtain ⟨labels, hrun⟩ := h
  obtain ⟨labels', hrun'⟩ := h'
  refine ⟨labels ++ labels', ?_⟩
  rw [TransitionSystem.run_append, hrun]
  exact hrun'

theorem does_step (label : Gateway.Label) (h : w.step uuids config label = some w') : Does uuids config w w' := by
  refine ⟨[label], ?_⟩
  show (w.step uuids config label).bind some = some w'
  rw [h]
  rfl

theorem does_reaches {s : Service.State} (h : Reaches config w.rooms s) : Does uuids config w { w with rooms := s } := by
  induction h with
  | refl => exact .refl w
  | tail _ hinner ih =>
      obtain ⟨label, hinternal, hstep⟩ := hinner
      refine ih.trans (does_step (.service label) ?_)
      simp only [World.step, hinternal, if_true, hstep, Option.map_some]

theorem Matches.twin {conn : Conn} (h : Matches g w) (hconn : g.liveConn id = some conn) :
    ∃ twin, w.conns[id]? = some twin ∧ Twin conn twin ∧ twin.phase = .reading := by
  obtain ⟨hget, hlive⟩ := liveConn_iff.mp hconn
  obtain ⟨hlt, -⟩ := List.getElem?_eq_some_iff.mp hget
  have htwin := List.getElem?_eq_getElem (h.length.symm ▸ hlt : id < w.conns.length)
  have := h.conns id conn _ hget htwin
  exact ⟨_, htwin, this, this.phase hlive⟩

theorem Matches.update {conn' : Conn} {twin twin' : Gateway.Conn} {rooms : Rooms} (h : Matches g w)
    (htwin : w.conns[id]? = some twin) (hrooms : Resting rooms w'.rooms) (hconns : w'.conns = w.conns.set id twin')
    (hmatch : Twin conn' twin') : Matches (g.update id conn' rooms) w' := by
  refine ⟨hrooms, ?_, fun j conn t hconn ht => ?_⟩
  · rw [hconns, List.length_set, State.update, List.length_set]
    exact h.length
  · rw [hconns] at ht
    obtain ⟨rfl, rfl⟩ | ⟨hne, hconn⟩ := update_conn hconn
    · rw [Indexed.set_self htwin] at ht
      obtain rfl := Option.some.inj ht
      exact hmatch
    · rw [Indexed.set_of_ne hne] at ht
      exact h.conns j conn t hconn ht

theorem does_conn {twin twin' : Gateway.Conn} {label : ConnLabel} {deed : Deed} (htwin : w.conns[id]? = some twin)
    (hstep : twin.step uuids w.rooms label = some (deed, twin')) :
    Does uuids config w { w.perform config id deed with conns := w.conns.set id twin' } := by
  apply does_step (.conn id label)
  simp only [World.step, htwin, hstep, Option.map_some]

/-- **A connection calls the room service** and goes on when the call is over. -/
theorem Matches.calls {conn' : Conn} {twin called finished : Gateway.Conn} {label label' : ConnLabel} {op : Op}
    {rooms : Rooms} {pc : Service.Pc} (h : Matches g w) (htwin : w.conns[id]? = some twin)
    (hstart : twin.step uuids w.rooms label = some (.start op, called))
    (halone : ∀ k s, Alone g.rooms k op op.start s → ∃ s', Reaches config s s' ∧ Alone rooms k op pc s')
    (hover : pc.over = true) (hend : ∀ s sent, overAt s w.rooms.calls.length = some ⟨op, pc, sent⟩ →
      called.step uuids s label' = some (.idle, finished)) (hmatch : Twin conn' finished) :
    ∃ w', Does uuids config w w' ∧ Matches (g.update id conn' rooms) w' := by
  obtain ⟨s, hreaches, hdone⟩ := halone _ _ (h.rooms.start op)
  obtain ⟨sent, hc⟩ := hdone.sole.call
  have hoverAt : overAt s w.rooms.calls.length = some ⟨op, pc, sent⟩ := by
    unfold overAt
    rw [hc]
    exact Option.filter_some_pos hover
  have hcalled : Does uuids config w { w.perform config id (.start op) with conns := w.conns.set id called } :=
    does_conn htwin hstart
  have hran := hcalled.trans (does_reaches hreaches)
  have hfinished := hran.trans (does_conn (Indexed.set_self htwin) (hend s sent hoverAt))
  exact ⟨_, hfinished, h.update htwin (hdone.resting hover) (List.set_set ..) hmatch⟩

theorem Matches.handler {conn : Conn} {message : InboundMessage} {op : Op} {rooms : Rooms} {pc : Service.Pc}
    {auth : AuthState} (h : Matches g w) (hconn : g.liveConn id = some conn)
    (hcall : roomCall uuids conn.roomTx conn.auth message = some op)
    (halone : ∀ k s, Alone g.rooms k op op.start s → ∃ s', Reaches config s s' ∧ Alone rooms k op pc s')
    (hover : pc.over = true) (hresume : ∀ sent, resumeCall conn.auth ⟨op, pc, sent⟩ = auth) :
    ∃ w', Does uuids config w w' ∧ Matches (g.update id { conn with auth := auth } rooms) w' := by
  obtain ⟨twin, htwin, hmatch, hphase⟩ := h.twin hconn
  have hdispatch : twin.step uuids w.rooms (.dispatch message) = some (.start op,
      { twin with phase := .dispatching w.rooms.calls.length, calls := w.rooms.calls.length :: twin.calls }) := by
    simp only [Gateway.Conn.step, hphase, if_true, hmatch.roomTx, hmatch.auth, hcall]
  have hresumed : ∀ s sent, overAt s w.rooms.calls.length = some ⟨op, pc, sent⟩ → Gateway.Conn.step uuids s
      { twin with phase := .dispatching w.rooms.calls.length, calls := w.rooms.calls.length :: twin.calls } .resume =
        some (.idle, { twin with auth := auth, phase := .reading, calls := w.rooms.calls.length :: twin.calls }) := by
    intro s sent hoverAt
    simp only [Gateway.Conn.step, hoverAt, Option.map_some, hmatch.auth, hresume]
  exact h.calls htwin hdispatch halone hover hresumed ⟨rfl, hmatch.roomTx, fun _ => rfl⟩

theorem Matches.cleans {conn : Conn} {order : List RoomId} (h : Matches g w) (hinv : g.rooms.Inv)
    (hcapacity : 0 < config.commandCapacity) (hconn : g.liveConn id = some conn)
    (horder : order.Perm g.rooms.retainLive.registry) :
    ∃ w', Does uuids config w w' ∧ Matches (g.cleanup id conn order) w' := by
  obtain ⟨twin, htwin, hmatch, hphase⟩ := h.twin hconn
  have hreturns : twin.step uuids w.rooms .readLoopReturns = some (.idle, { twin with phase := .leaving }) := by
    simp only [Gateway.Conn.step, hphase, if_true]
  have hleft : Does uuids config w { w with conns := w.conns.set id { twin with phase := .leaving } } :=
    does_conn htwin hreturns
  have htwin' : (w.conns.set id { twin with phase := .leaving })[id]? = some { twin with phase := .leaving } :=
    Indexed.set_self htwin
  have h' : Matches (g.update id { conn with live := false } g.rooms)
      { w with conns := w.conns.set id { twin with phase := .leaving } } :=
    h.update htwin h.rooms rfl ⟨hmatch.auth, hmatch.roomTx, nofun⟩
  have hset : ∀ rooms, (g.update id { conn with live := false } g.rooms).update id { conn with live := false } rooms =
      g.update id { conn with live := false } rooms := fun rooms => congrArg (State.mk rooms) (List.set_set ..)
  unfold State.cleanup
  cases hplayer : conn.auth.player with
  | none =>
      have hclean : Gateway.Conn.step uuids w.rooms { twin with phase := .leaving } .cleanupRoom =
          some (.idle, { twin with phase := .tidy, cleaned := true }) := by
        simp only [Gateway.Conn.step, cleanupOp, hmatch.auth, hplayer, Option.map_none]
      refine ⟨_, hleft.trans (does_conn htwin' hclean), ?_⟩
      exact hset g.rooms ▸ h'.update htwin' h.rooms rfl ⟨hmatch.auth, hmatch.roomTx, nofun⟩
  | some player =>
      have hclean : Gateway.Conn.step uuids w.rooms { twin with phase := .leaving } .cleanupRoom =
          some (.start (.leaveAll player.playerId "connection closed"),
            { twin with phase := .cleaning w.rooms.calls.length, calls := w.rooms.calls.length :: twin.calls }) := by
        simp only [Gateway.Conn.step, cleanupOp, hmatch.auth, hplayer, Option.map_some]
      have hreturned : ∀ s sent, overAt s w.rooms.calls.length =
            some ⟨.leaveAll player.playerId "connection closed", .returned none, sent⟩ → Gateway.Conn.step uuids s
          { twin with phase := .cleaning w.rooms.calls.length, calls := w.rooms.calls.length :: twin.calls } .cleanupReturns =
            some (.idle, { twin with phase := .tidy, cleaned := true, calls := w.rooms.calls.length :: twin.calls }) := by
        intro s sent hoverAt
        simp only [Gateway.Conn.step, hoverAt, Option.map_some]
      have hended : Twin { conn with live := false }
          { twin with phase := .tidy, cleaned := true, calls := w.rooms.calls.length :: twin.calls } :=
        ⟨hmatch.auth, hmatch.roomTx, nofun⟩
      obtain ⟨w', hdoes, hmatches⟩ := h'.calls htwin' hclean
        (fun k s halone => halone.leaveAll hinv hcapacity horder) rfl hreturned hended
      rw [hset] at hmatches
      exact ⟨w', hleft.trans hdoes, hmatches⟩

/-! ## The steps -/

theorem resting_init (config : RoomServiceConfig) : Resting ⟨fun _ => none, []⟩ (Service.system config).init where
  calls := by simp [Service.system]
  rest := nofun
  actors _ := rfl
  registry := rfl

theorem roomCall_join {conn : Conn} {message : InboundMessage} {op : Op}
    (h : beginJoinRoom uuids conn.roomTx conn.auth message = .inr op) :
    roomCall uuids conn.roomTx conn.auth message = some op := by
  cases message with
  | joinRoom request =>
      show (beginJoinRoom uuids conn.roomTx conn.auth (.joinRoom request)).getRight? = some op
      rw [h]
      rfl
  | _ => cases h

theorem roomCall_leave {conn : Conn} {message : InboundMessage} {op : Op}
    (h : beginLeaveRoom uuids conn.auth message = .inr op) : roomCall uuids conn.roomTx conn.auth message = some op := by
  cases message with
  | leaveRoom request =>
      show (beginLeaveRoom uuids conn.auth (.leaveRoom request)).getRight? = some op
      rw [h]
      rfl
  | _ => cases h

theorem Matches.accept (h : Matches g w) (connections : ConnectionRegistry) :
    Matches { g with conns := g.conns ++ [⟨.empty, g.conns.length, true⟩] }
      { w with conns := w.conns ++ [.accept g.conns.length], connections := connections } := by
  refine ⟨h.rooms, ?_, fun id conn twin hconn htwin => ?_⟩
  · show (w.conns ++ [_]).length = (g.conns ++ [_]).length
    rw [List.length_append, List.length_append, h.length]
    rfl
  · obtain hold | ⟨hlast, rfl⟩ := Indexed.append_cases hconn
    · obtain hold' | ⟨hlast', -⟩ := Indexed.append_cases htwin
      · exact h.conns id conn twin hold hold'
      · have hlt := (List.getElem?_eq_some_iff.mp hold).1
        rw [hlast', h.length] at hlt
        exact absurd hlt (Nat.lt_irrefl _)
    · obtain hold' | ⟨-, rfl⟩ := Indexed.append_cases htwin
      · have hlt := (List.getElem?_eq_some_iff.mp hold').1
        rw [hlast, ← h.length] at hlt
        exact absurd hlt (Nat.lt_irrefl _)
      · exact ⟨rfl, rfl, fun _ => rfl⟩

theorem Matches.join {conn : Conn} (message : InboundMessage) {fresh : RoomId} (h : Matches g w) (hinv : g.rooms.Inv)
    (hcapacity : 0 < config.commandCapacity) (hconn : g.liveConn id = some conn) (hfresh : g.rooms.actors fresh = none) :
    ∃ w', Does uuids config w w' ∧ Matches (g.joinRoom uuids config id conn message fresh).1 w' := by
  unfold State.joinRoom
  cases hbegin : beginJoinRoom uuids conn.roomTx conn.auth message with
  | inl reply => exact ⟨w, .refl w, h⟩
  | inr op =>
      obtain ⟨-, player, target, -, rfl⟩ := beginJoinRoom_calls hbegin
      refine h.handler hconn (roomCall_join hbegin) (fun k s halone => halone.joinOrCreate hinv hcapacity hfresh) ?_ fun sent => ?_
      · cases (g.rooms.joinOrCreate config target fresh player.playerId player.nickname conn.roomTx).2 <;> rfl
      · cases (g.rooms.joinOrCreate config target fresh player.playerId player.nickname conn.roomTx).2 <;> rfl

theorem Matches.leave {conn : Conn} (message : InboundMessage) {order : List RoomId} (h : Matches g w) (hinv : g.rooms.Inv)
    (hcapacity : 0 < config.commandCapacity) (hconn : g.liveConn id = some conn)
    (horder : order.Perm g.rooms.retainLive.registry) :
    ∃ w', Does uuids config w w' ∧ Matches (g.leaveRoom uuids id conn message order).1 w' := by
  unfold State.leaveRoom
  cases hbegin : beginLeaveRoom uuids conn.auth message with
  | inl reply => exact ⟨w, .refl w, h⟩
  | inr op =>
      obtain ⟨player, -, ⟨room, rfl⟩ | rfl⟩ := beginLeaveRoom_calls hbegin
      · obtain ⟨hok, -⟩ := Rooms.leave_spec hinv room player.playerId "client leave"
        dsimp only
        rw [hok]
        exact h.handler hconn (roomCall_leave hbegin)
          (fun k s halone => Alone.leave halone (Or.inl ⟨room, rfl⟩) hinv hcapacity) rfl fun _ => rfl
      · obtain ⟨hok, -⟩ := Rooms.leaveAll_spec hinv player.playerId "client leave" horder
        dsimp only
        rw [hok]
        exact h.handler hconn (roomCall_leave hbegin) (fun k s halone => halone.leaveAll hinv hcapacity horder) rfl fun _ => rfl

/-- **One atomic step is some steps of the gateway.** -/
theorem Matches.step {label : Label} (h : Matches g w) (hinv : g.rooms.Inv) (hcapacity : 0 < config.commandCapacity)
    (hstep : g.step uuids config label = some g') : ∃ w', Does uuids config w w' ∧ Matches g' w' := by
  cases step_performed hstep with
  | accept => exact ⟨_, does_step (.accept g.conns.length) rfl, h.accept _⟩
  | bind id player token conn hconn hplayer =>
      obtain ⟨twin, htwin, hmatch, hphase⟩ := h.twin hconn
      have hauth : twin.auth.isAuthenticated = false := by
        rw [hmatch.auth]
        exact Option.isSome_eq_false_iff.mpr (Option.isNone_iff_eq_none.mpr hplayer)
      have hbind : twin.step uuids w.rooms (.bind player token) =
          some (.idle, { twin with auth := twin.auth.setAuthed player token }) := by
        simp only [Gateway.Conn.step, hphase, hauth, and_self, if_true]
      refine ⟨_, does_conn htwin hbind, h.update htwin h.rooms rfl ⟨?_, hmatch.roomTx, fun _ => hphase⟩⟩
      rw [hmatch.auth]
  | joinRoom id message fresh conn hconn hfresh => exact h.join message hinv hcapacity hconn hfresh
  | leaveRoom id message order conn hconn horder => exact h.leave message hinv hcapacity hconn horder
  | cleanup id order conn hconn horder => exact h.cleans hinv hcapacity hconn horder
  | closeAll reason order horder =>
      obtain ⟨s, hreaches, hdone⟩ := Alone.closeAll (h.rooms.start (.closeAll reason)) hinv hcapacity horder
      have hstarted : Does uuids config w (w.act config (.start (.closeAll reason))) :=
        does_step (.closeAll reason) rfl
      exact ⟨_, hstarted.trans (does_reaches hreaches), hdone.resting rfl, h.length, h.conns⟩

/-- **Every atomic run is a run of the gateway.** -/
theorem atomic_runs {labels : List Label} (hcapacity : 0 < config.commandCapacity)
    (hrun : (system uuids config).run (system uuids config).init labels = some g) :
    ∃ w, Does uuids config (Gateway.system uuids config).init w ∧ Matches g w := by
  have hinit : Matches (system uuids config).init (Gateway.system uuids config).init := by
    refine ⟨resting_init config, rfl, fun id conn twin hconn _ => ?_⟩
    simp [system] at hconn
  have hend : g.Inv ∧ ∃ w, Does uuids config (Gateway.system uuids config).init w ∧ Matches g w := by
    refine TransitionSystem.run_invariant
      (I := fun g => g.Inv ∧ ∃ w, Does uuids config (Gateway.system uuids config).init w ∧ Matches g w) ?_ ?_ hrun
    · rintro g label g' ⟨hinv, w, hdoes, hmatches⟩ hstep
      obtain ⟨w', hdoes', hmatches'⟩ := hmatches.step hinv.rooms hcapacity hstep
      exact ⟨hinv.step hstep, w', hdoes.trans hdoes', hmatches'⟩
    · exact ⟨init_inv uuids config, _, .refl _, hinit⟩
  exact hend.2

end

end LongshipX.Sequential
