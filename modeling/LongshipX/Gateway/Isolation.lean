import LongshipX.Gateway.Membership
import LongshipX.Lib.Indexed

/-!
# Joins that are not refused, and cleanups that keep to their player

`current_room` is what a connection believes; the rooms hold memberships by player. The two agree as long as no
connection acts on a room that another connection of its player is in.

* `Undisturbed` : a step that keeps to itself;
* `Synced` : belief and rooms agree, kept by every such step (`Synced.step`);
* `join_really_joins` : then a `JOIN_ROOM` that is not refused really joins;
* `cleanup_isolated` : a cleanup leaves the memberships of all other players alone.
-/

namespace LongshipX.Sequential
open Protocol Gateway RoomActor
open Service (RoomServiceConfig Op)

/-- The connection is in a room: its `current_room` is open, and holds its player with its own sink. -/
def State.Joined (g : State) (id : ConnId) : Prop :=
  ∃ conn player room actor member, g.conns[id]? = some conn ∧ conn.auth.player = some player ∧
    conn.auth.currentRoom = some room ∧ g.rooms.actors room = some actor ∧ actor.closed = false ∧
    player.playerId ∈ actor.room.members ∧ actor.members.lookup player.playerId = some member ∧ member.sink = conn.roomTx

def touches : Op → RoomId → PlayerId → Prop
  | .joinOrCreate target player _ _, r, p => target = some r ∧ player = p
  | .leave room player _, r, p => room = r ∧ player = p
  | .leaveAll player _, _, p => player = p
  | .chat _ _ _, _, _ => False
  | .closeAll _, _, _ => True

/-- No other live connection of the player has as its `current_room` a room that the operation is about. -/
def State.Apart (g : State) (id : ConnId) (op : Op) : Prop :=
  ∀ (j : ConnId) (conn : Conn) player room, j ≠ id → g.liveConn j = some conn → conn.auth.player = some player →
    conn.auth.currentRoom = some room → ¬ touches op room player.playerId

/-- The step keeps to its own connection. -/
def Undisturbed (uuids : Uuids) (g : State) : Label → Prop
  | .joinRoom id message _ => ∀ conn op, g.liveConn id = some conn →
      beginJoinRoom uuids conn.roomTx conn.auth message = .inr op → g.Apart id op
  | .leaveRoom id message _ => ∀ conn op, g.liveConn id = some conn →
      beginLeaveRoom uuids conn.auth message = .inr op → g.Apart id op
  | .cleanup id _ => ∀ conn player, g.liveConn id = some conn → conn.auth.player = some player →
      g.Apart id (.leaveAll player.playerId "connection closed")
  | .closeAll _ _ => ∀ (id : ConnId) conn, g.liveConn id = some conn → conn.auth.currentRoom = none
  | .accept => True
  | .bind _ _ _ => True

/-- What holds between two operations, whoever disturbs whom. -/
structure State.Inv (g : State) : Prop where
  rooms : g.rooms.Inv
  bound : ∀ (id : ConnId) (conn : Conn), g.conns[id]? = some conn → conn.auth.player = none → conn.auth.currentRoom = none

/-- The connections' beliefs and the rooms agree. -/
structure Synced (g : State) : Prop where
  inv : g.Inv
  seated : ∀ (id : ConnId) (conn : Conn) player room, g.liveConn id = some conn → conn.auth.player = some player →
    conn.auth.currentRoom = some room → ∃ m, g.rooms.entry room player.playerId = some m ∧ m.sink = conn.roomTx
  owned : ∀ room p m, g.rooms.entry room p = some m → ∃ (id : ConnId) (conn : Conn) (player : AuthedPlayer),
    g.liveConn id = some conn ∧ conn.auth.player = some player ∧ player.playerId = p ∧ conn.auth.currentRoom = some room

section
variable {uuids : Uuids} {config : RoomServiceConfig} {g g' : State} {id j : ConnId} {conn conn' : Conn} {rooms : Rooms}

theorem liveConn_iff : g.liveConn id = some conn ↔ g.conns[id]? = some conn ∧ conn.live = true := Option.filter_eq_some_iff

theorem liveConn_append (hlive : conn'.live = true) :
    State.liveConn { g with conns := g.conns ++ [conn'] } j = some conn ↔
      g.liveConn j = some conn ∨ (j = g.conns.length ∧ conn = conn') := by
  rw [liveConn_iff, liveConn_iff]
  constructor
  · rintro ⟨hconn, hlive'⟩
    obtain hold | hnew := Indexed.append_cases hconn
    · exact Or.inl ⟨hold, hlive'⟩
    · exact Or.inr hnew
  · rintro (⟨hconn, hlive'⟩ | ⟨rfl, rfl⟩)
    · exact ⟨Indexed.append_old hconn, hlive'⟩
    · exact ⟨List.getElem?_concat_length, hlive⟩

theorem update_conn (h : (g.update id conn' rooms).conns[j]? = some conn) :
    (j = id ∧ conn = conn') ∨ (j ≠ id ∧ g.conns[j]? = some conn) :=
  Indexed.set_cases h

theorem update_live (h : (g.update id conn' rooms).liveConn j = some conn) :
    (j = id ∧ conn = conn' ∧ conn'.live = true) ∨ (j ≠ id ∧ g.liveConn j = some conn) := by
  obtain ⟨hconn, hlive⟩ := liveConn_iff.mp h
  obtain ⟨rfl, rfl⟩ | ⟨hne, hconn⟩ := update_conn hconn
  · exact Or.inl ⟨rfl, rfl, hlive⟩
  · exact Or.inr ⟨hne, liveConn_iff.mpr ⟨hconn, hlive⟩⟩

theorem update_self (h : g.liveConn id = some conn) (hlive : conn'.live = true) :
    (g.update id conn' rooms).liveConn id = some conn' :=
  liveConn_iff.mpr ⟨Indexed.set_self (liveConn_iff.mp h).1, hlive⟩

theorem update_of_ne (hne : j ≠ id) (h : g.liveConn j = some conn) : (g.update id conn' rooms).liveConn j = some conn := by
  obtain ⟨hconn, hlive⟩ := liveConn_iff.mp h
  exact liveConn_iff.mpr ⟨(Indexed.set_of_ne hne).trans hconn, hlive⟩

/-! ## The steps, one by one -/

theorem beginJoinRoom_silent {roomTx : SinkId} {auth : AuthState} {message : InboundMessage}
    (h : beginJoinRoom uuids roomTx auth message = .inl (.ok none)) :
    ∃ player room, auth.player = some player ∧ auth.currentRoom = some room := by
  unfold beginJoinRoom at h
  split at h
  · split at h
    · cases h
    · next player hplayer =>
        split at h
        · cases h
        · split at h
          · next room hroom => exact ⟨player, room, hplayer, hroom⟩
          · cases h
  · cases h

/-- `handle_join_room`: nothing happens, or the room service refuses, or the connection is in a room. -/
theorem joinRoom_spec (h : g.rooms.Inv) {message : InboundMessage} {fresh : RoomId} (hfresh : g.rooms.actors fresh = none)
    {answer : Answer} (heq : g.joinRoom uuids config id conn message fresh = (g', answer)) :
    (g' = g ∧ (answer = .ok none → ∃ player room, conn.auth.player = some player ∧ conn.auth.currentRoom = some room)) ∨
    (∃ rooms, g' = g.update id conn rooms ∧ rooms.Inv ∧ rooms.entry = g.rooms.entry ∧ answer ≠ .ok none) ∨
    (∃ rooms player target room, beginJoinRoom uuids conn.roomTx conn.auth message =
        .inr (.joinOrCreate target player.playerId player.nickname conn.roomTx) ∧ conn.auth.player = some player ∧
      conn.auth.currentRoom = none ∧ room = target.getD fresh ∧ rooms.Inv ∧
      rooms.entry = Rooms.setEntry g.rooms.entry room player.playerId
        ((g.rooms.entry room player.playerId).getD ⟨player.nickname, conn.roomTx⟩) ∧
      g' = g.update id { conn with auth := conn.auth.setCurrentRoom (some room) } rooms) := by
  unfold State.joinRoom at heq
  cases hbegin : beginJoinRoom uuids conn.roomTx conn.auth message with
  | inl reply =>
      rw [hbegin] at heq
      obtain ⟨rfl, rfl⟩ := Prod.mk.inj heq
      refine Or.inl ⟨rfl, fun hanswer => ?_⟩
      subst hanswer
      exact beginJoinRoom_silent hbegin
  | inr op =>
      obtain ⟨hnone, player, target, hplayer, rfl⟩ := beginJoinRoom_calls hbegin
      rw [hbegin] at heq
      dsimp only at heq
      cases hcall : g.rooms.joinOrCreate config target fresh player.playerId player.nickname conn.roomTx with
      | mk rooms outcome =>
          rw [hcall] at heq
          obtain ⟨hinv, ⟨err, rfl, hentry⟩ | ⟨room, rfl, hroom, hentry⟩⟩ :=
            Rooms.joinOrCreate_spec config h hfresh target player.playerId player.nickname conn.roomTx hcall
          · obtain ⟨rfl, rfl⟩ := Prod.mk.inj heq
            exact Or.inr (Or.inl ⟨rooms, rfl, hinv, hentry, fun hanswer => by cases hanswer⟩)
          · obtain ⟨rfl, rfl⟩ := Prod.mk.inj heq
            exact Or.inr (Or.inr ⟨rooms, player, target, room, rfl, hplayer, hnone, hroom, hinv, hentry, rfl⟩)

theorem leaveRoom_spec (h : g.rooms.Inv) {message : InboundMessage} {order : List RoomId}
    (horder : order.Perm g.rooms.retainLive.registry) {answer : Answer}
    (heq : g.leaveRoom uuids id conn message order = (g', answer)) :
    g' = g ∨ ∃ rooms player, conn.auth.player = some player ∧
      ((∃ room, beginLeaveRoom uuids conn.auth message = .inr (.leave room player.playerId "client leave") ∧
          Rooms.LeftRooms player.playerId (· = room) g.rooms rooms ∧
          g' = g.update id { conn with auth := if conn.auth.currentRoom = some room then conn.auth.setCurrentRoom none
            else conn.auth } rooms) ∨
        (beginLeaveRoom uuids conn.auth message = .inr (.leaveAll player.playerId "client leave") ∧
          Rooms.LeftRooms player.playerId (fun _ => True) g.rooms rooms ∧
          g' = g.update id { conn with auth := conn.auth.setCurrentRoom none } rooms)) := by
  unfold State.leaveRoom at heq
  cases hbegin : beginLeaveRoom uuids conn.auth message with
  | inl reply =>
      rw [hbegin] at heq
      exact Or.inl (Prod.mk.inj heq).1.symm
  | inr op =>
      rw [hbegin] at heq
      obtain ⟨player, hplayer, ⟨room, rfl⟩ | rfl⟩ := beginLeaveRoom_calls hbegin
      · obtain ⟨hok, hleft⟩ := Rooms.leave_spec h room player.playerId "client leave"
        dsimp only at heq
        rw [hok] at heq
        exact Or.inr ⟨_, player, hplayer, Or.inl ⟨room, rfl, hleft, (Prod.mk.inj heq).1.symm⟩⟩
      · obtain ⟨hok, hleft⟩ := Rooms.leaveAll_spec h player.playerId "client leave" horder
        dsimp only at heq
        rw [hok] at heq
        exact Or.inr ⟨_, player, hplayer, Or.inr ⟨rfl, hleft, (Prod.mk.inj heq).1.symm⟩⟩

theorem cleanup_spec (h : g.rooms.Inv) (id : ConnId) (conn : Conn) {order : List RoomId} (horder : order.Perm g.rooms.retainLive.registry) :
    (conn.auth.player = none ∧ g.cleanup id conn order = g.update id { conn with live := false } g.rooms) ∨
    ∃ rooms player, conn.auth.player = some player ∧ Rooms.LeftRooms player.playerId (fun _ => True) g.rooms rooms ∧
      g.cleanup id conn order = g.update id { conn with live := false } rooms := by
  unfold State.cleanup
  cases hplayer : conn.auth.player with
  | none => exact Or.inl ⟨rfl, rfl⟩
  | some player =>
      exact Or.inr ⟨_, player, rfl, (Rooms.leaveAll_spec h player.playerId "connection closed" horder).2, rfl⟩

/-- What a step asks for before it takes its operation. -/
inductive Performed (uuids : Uuids) (config : RoomServiceConfig) (g : State) : Label → State → Prop where
  | accept : Performed uuids config g .accept { g with conns := g.conns ++ [⟨.empty, g.conns.length, true⟩] }
  | bind (id : ConnId) (player : AuthedPlayer) (token : String) (conn : Conn) (hconn : g.liveConn id = some conn)
      (hplayer : conn.auth.player = none) :
      Performed uuids config g (.bind id player token)
        (g.update id { conn with auth := conn.auth.setAuthed player token } g.rooms)
  | joinRoom (id : ConnId) (message : InboundMessage) (fresh : RoomId) (conn : Conn) (hconn : g.liveConn id = some conn)
      (hfresh : g.rooms.actors fresh = none) :
      Performed uuids config g (.joinRoom id message fresh) (g.joinRoom uuids config id conn message fresh).1
  | leaveRoom (id : ConnId) (message : InboundMessage) (order : List RoomId) (conn : Conn)
      (hconn : g.liveConn id = some conn) (horder : order.Perm g.rooms.retainLive.registry) :
      Performed uuids config g (.leaveRoom id message order) (g.leaveRoom uuids id conn message order).1
  | cleanup (id : ConnId) (order : List RoomId) (conn : Conn) (hconn : g.liveConn id = some conn)
      (horder : order.Perm g.rooms.retainLive.registry) :
      Performed uuids config g (.cleanup id order) (g.cleanup id conn order)
  | closeAll (reason : String) (order : List RoomId) (horder : order.Perm g.rooms.registry) :
      Performed uuids config g (.closeAll reason order) { g with rooms := g.rooms.closeAll reason order }

theorem step_performed {label : Label} (hstep : g.step uuids config label = some g') :
    Performed uuids config g label g' := by
  cases label with
  | accept =>
      obtain rfl := Option.some.inj hstep
      exact .accept
  | bind id player token =>
      simp only [State.step] at hstep
      split at hstep
      · next conn hconn =>
          split_ifs at hstep with hauthenticated
          obtain rfl := Option.some.inj hstep
          exact .bind id player token conn hconn (Option.not_isSome_iff_eq_none.mp hauthenticated)
      · cases hstep
  | joinRoom id message fresh =>
      simp only [State.step] at hstep
      split at hstep
      · next conn hconn =>
          split_ifs at hstep with hfresh
          obtain rfl := Option.some.inj hstep
          exact .joinRoom id message fresh conn hconn (Option.isNone_iff_eq_none.mp hfresh)
      · cases hstep
  | leaveRoom id message order =>
      simp only [State.step] at hstep
      split at hstep
      · next conn hconn =>
          split_ifs at hstep with horder
          obtain rfl := Option.some.inj hstep
          exact .leaveRoom id message order conn hconn horder
      · cases hstep
  | cleanup id order =>
      simp only [State.step] at hstep
      split at hstep
      · next conn hconn =>
          split_ifs at hstep with horder
          obtain rfl := Option.some.inj hstep
          exact .cleanup id order conn hconn horder
      · cases hstep
  | closeAll reason order =>
      simp only [State.step] at hstep
      split_ifs at hstep with horder
      obtain rfl := Option.some.inj hstep
      exact .closeAll reason order horder

/-- What one step of the gateway is. -/
inductive Taken (uuids : Uuids) (g : State) : Label → State → Prop where
  | accept : Taken uuids g .accept { g with conns := g.conns ++ [⟨.empty, g.conns.length, true⟩] }
  | idle (label : Label) : Taken uuids g label g
  /-- A connection without a player changes. -/
  | unbound (label : Label) (id : ConnId) (conn conn' : Conn) (hconn : g.liveConn id = some conn)
      (hplayer : conn.auth.player = none) (hroom : conn'.auth.currentRoom = conn.auth.currentRoom) :
      Taken uuids g label (g.update id conn' g.rooms)
  | refused (label : Label) (id : ConnId) (conn : Conn) (rooms : Rooms) (hconn : g.liveConn id = some conn)
      (hinv : rooms.Inv) (hentry : rooms.entry = g.rooms.entry) : Taken uuids g label (g.update id conn rooms)
  | joined (id : ConnId) (conn : Conn) (message : InboundMessage) (fresh : RoomId) (rooms : Rooms) (player : AuthedPlayer)
      (target : Option RoomId) (room : RoomId) (hconn : g.liveConn id = some conn) (hfresh : g.rooms.actors fresh = none)
      (hbegin : beginJoinRoom uuids conn.roomTx conn.auth message =
        .inr (.joinOrCreate target player.playerId player.nickname conn.roomTx))
      (hplayer : conn.auth.player = some player) (hnone : conn.auth.currentRoom = none) (hroom : room = target.getD fresh)
      (hinv : rooms.Inv) (hentry : rooms.entry = Rooms.setEntry g.rooms.entry room player.playerId
        ((g.rooms.entry room player.playerId).getD ⟨player.nickname, conn.roomTx⟩)) :
      Taken uuids g (.joinRoom id message fresh)
        (g.update id { conn with auth := conn.auth.setCurrentRoom (some room) } rooms)
  /-- The player of a connection leaves rooms; the connection keeps its `current_room` if it is none of them. -/
  | left (label : Label) (id : ConnId) (conn conn' : Conn) (rooms : Rooms) (player : AuthedPlayer) (op : Op)
      (touched : RoomId → Prop) (hconn : g.liveConn id = some conn) (hplayer : conn.auth.player = some player)
      (hplayer' : conn'.auth.player = some player) (hroomTx : conn'.roomTx = conn.roomTx)
      (hkeeps : ∀ r, (conn'.live = true ∧ conn'.auth.currentRoom = some r) ↔ (conn.auth.currentRoom = some r ∧ ¬ touched r))
      (htouched : ∀ r, touches op r player.playerId ↔ touched r) (hapart : Undisturbed uuids g label → g.Apart id op)
      (hleft : Rooms.LeftRooms player.playerId touched g.rooms rooms) : Taken uuids g label (g.update id conn' rooms)
  | closeAll (reason : String) (order : List RoomId) (horder : order.Perm g.rooms.registry) :
      Taken uuids g (.closeAll reason order) { g with rooms := g.rooms.closeAll reason order }

theorem step_taken (h : g.rooms.Inv) {label : Label} (hstep : g.step uuids config label = some g') :
    Taken uuids g label g' := by
  cases step_performed hstep with
  | accept => exact .accept
  | bind id player token conn hconn hplayer => exact .unbound _ id conn _ hconn hplayer rfl
  | joinRoom id message fresh conn hconn hfresh =>
      cases hcall : g.joinRoom uuids config id conn message fresh with
      | mk g' answer =>
          obtain ⟨rfl, -⟩ | ⟨rooms, rfl, hinv, hentry, -⟩ |
            ⟨rooms, player, target, room, hbegin, hplayer, hnone, hroom, hinv, hentry, rfl⟩ :=
            joinRoom_spec h hfresh hcall
          · exact .idle _
          · exact .refused _ id conn rooms hconn hinv hentry
          · exact .joined id conn message fresh rooms player target room hconn hfresh hbegin hplayer hnone hroom hinv hentry
  | leaveRoom id message order conn hconn horder =>
      have hlive := (liveConn_iff.mp hconn).2
      cases hcall : g.leaveRoom uuids id conn message order with
      | mk g' answer =>
          obtain rfl | ⟨rooms, player, hplayer, ⟨room, hbegin, hleft, rfl⟩ | ⟨hbegin, hleft, rfl⟩⟩ :=
            leaveRoom_spec h horder hcall
          · exact .idle _
          · refine .left _ id conn _ rooms player _ (· = room) hconn hplayer ?_ rfl (fun r => ?_) (fun r => ?_)
              (fun hok => hok conn _ hconn hbegin) hleft
            · dsimp only
              split_ifs <;> exact hplayer
            · dsimp only
              split_ifs with hroom
              · rw [hroom]
                constructor
                · rintro ⟨-, hr⟩
                  cases hr
                · rintro ⟨hr, hne⟩
                  exact absurd (Option.some.inj hr).symm hne
              · constructor
                · rintro ⟨-, hr⟩
                  exact ⟨hr, fun he => hroom (he ▸ hr)⟩
                · rintro ⟨hr, -⟩
                  exact ⟨hlive, hr⟩
            · simp [touches, eq_comm]
          · refine .left _ id conn _ rooms player _ (fun _ => True) hconn hplayer hplayer rfl (fun r => ?_) (fun r => ?_)
              (fun hok => hok conn _ hconn hbegin) hleft
            · simp [AuthState.setCurrentRoom]
            · simp [touches]
  | cleanup id order conn hconn horder =>
      obtain ⟨hplayer, heq⟩ | ⟨rooms, player, hplayer, hleft, heq⟩ := cleanup_spec h id conn horder
      · rw [heq]
        exact .unbound _ id conn _ hconn hplayer rfl
      · rw [heq]
        refine .left _ id conn _ rooms player _ (fun _ => True) hconn hplayer hplayer rfl (fun r => ?_) (fun r => ?_)
          (fun hok => hok conn player hconn hplayer) hleft
        · simp
        · simp [touches]
  | closeAll reason order horder => exact .closeAll reason order horder

/-! ## The invariant of every run -/

theorem State.Inv.update (h : g.Inv) (hrooms : rooms.Inv)
    (hbound : conn'.auth.player = none → conn'.auth.currentRoom = none) : (g.update id conn' rooms).Inv where
  rooms := hrooms
  bound j conn hconn hplayer := by
    obtain ⟨rfl, rfl⟩ | ⟨-, hconn⟩ := update_conn hconn
    · exact hbound hplayer
    · exact h.bound j conn hconn hplayer

theorem State.Inv.step (h : g.Inv) {label : Label} (hstep : g.step uuids config label = some g') : g'.Inv := by
  cases step_taken h.rooms hstep with
  | accept =>
      refine ⟨h.rooms, fun j conn hconn hplayer => ?_⟩
      obtain hold | ⟨-, rfl⟩ := Indexed.append_cases hconn
      · exact h.bound j conn hold hplayer
      · rfl
  | idle => exact h
  | unbound _ id conn conn' hconn hplayer hroom =>
      exact h.update h.rooms fun _ => hroom.trans (h.bound id conn (liveConn_iff.mp hconn).1 hplayer)
  | refused _ id conn rooms hconn hinv => exact h.update hinv (h.bound id conn (liveConn_iff.mp hconn).1)
  | joined id conn message fresh rooms player target room hconn hfresh hbegin hplayer hnone hroom hinv =>
      refine h.update hinv fun hnobody => ?_
      cases hnobody.symm.trans hplayer
  | left _ id conn conn' rooms player op touched hconn hplayer hplayer' hroomTx hkeeps htouched hapart hleft =>
      refine h.update hleft.inv fun hnobody => ?_
      rw [hplayer'] at hnobody
      cases hnobody
  | closeAll reason order horder => exact ⟨(Rooms.closeAll_spec h.rooms reason horder).1, h.bound⟩

theorem init_inv (uuids : Uuids) (config : RoomServiceConfig) : (system uuids config).init.Inv where
  rooms := ⟨fun _ _ h => (by cases h), fun _ _ h => (by cases h), fun _ h => (by cases h)⟩
  bound _ _ h := by cases h

/-- **Every run keeps it.** -/
theorem run_inv {labels : List Label} (hrun : (system uuids config).run (system uuids config).init labels = some g) : g.Inv :=
  TransitionSystem.run_invariant (fun _ _ _ h hstep => h.step hstep) (init_inv uuids config) hrun

/-! ## Belief and rooms agree -/

theorem Synced.unbound (h : Synced g) (hinv : (g.update id conn' g.rooms).Inv) (hconn : g.liveConn id = some conn)
    (hplayer : conn.auth.player = none) (hroom : conn'.auth.currentRoom = none) : Synced (g.update id conn' g.rooms) where
  inv := hinv
  seated j b player room hb hp hr := by
    obtain ⟨rfl, rfl, -⟩ | ⟨-, hb⟩ := update_live hb
    · rw [hroom] at hr
      cases hr
    · exact h.seated j b player room hb hp hr
  owned room p m hentry := by
    obtain ⟨j, b, player, hb, hp, heq, hr⟩ := h.owned room p m hentry
    refine ⟨j, b, player, update_of_ne ?_ hb, hp, heq, hr⟩
    rintro rfl
    obtain rfl := Option.some.inj (hconn.symm.trans hb)
    rw [hplayer] at hp
    cases hp

theorem Synced.refused (h : Synced g) (hinv : (g.update id conn rooms).Inv) (hconn : g.liveConn id = some conn)
    (hentry : rooms.entry = g.rooms.entry) : Synced (g.update id conn rooms) where
  inv := hinv
  seated j b player room hb hp hr := by
    show ∃ m, rooms.entry room player.playerId = some m ∧ _
    rw [hentry]
    obtain ⟨rfl, rfl, -⟩ | ⟨-, hb⟩ := update_live hb
    · exact h.seated j b player room hconn hp hr
    · exact h.seated j b player room hb hp hr
  owned room p m hm := by
    change rooms.entry room p = some m at hm
    rw [hentry] at hm
    obtain ⟨j, b, player, hb, hp, heq, hr⟩ := h.owned room p m hm
    by_cases hj : j = id
    · subst hj
      obtain rfl := Option.some.inj (hconn.symm.trans hb)
      exact ⟨j, conn, player, update_self hconn (liveConn_iff.mp hconn).2, hp, heq, hr⟩
    · exact ⟨j, b, player, update_of_ne hj hb, hp, heq, hr⟩

theorem Synced.not_yet (h : Synced g) {fresh room : RoomId} {target : Option RoomId} {player : AuthedPlayer} {nickname : String}
    {sink : SinkId} (hconn : g.liveConn id = some conn) (hfresh : g.rooms.actors fresh = none)
    (hnone : conn.auth.currentRoom = none) (hroom : room = target.getD fresh)
    (hapart : g.Apart id (.joinOrCreate target player.playerId nickname sink)) :
    g.rooms.entry room player.playerId = none := by
  rw [Option.eq_none_iff_forall_ne_some]
  intro m hm
  cases target with
  | none =>
      have hroom : room = fresh := hroom
      unfold Rooms.entry at hm
      rw [hroom, hfresh] at hm
      cases hm
  | some r =>
      have hroom : room = r := hroom
      obtain ⟨j, b, q, hb, hq, heq, hr⟩ := h.owned room _ m hm
      refine hapart j b q room ?_ hb hq hr ⟨congrArg some hroom.symm, heq.symm⟩
      rintro rfl
      obtain rfl := Option.some.inj (hconn.symm.trans hb)
      rw [hnone] at hr
      cases hr

theorem Synced.joined (h : Synced g) {room : RoomId} {player : AuthedPlayer} {member : Member}
    (hinv : (g.update id { conn with auth := conn.auth.setCurrentRoom (some room) } rooms).Inv)
    (hconn : g.liveConn id = some conn) (hplayer : conn.auth.player = some player) (hnone : conn.auth.currentRoom = none)
    (hempty : g.rooms.entry room player.playerId = none) (hsink : member.sink = conn.roomTx)
    (hentry : rooms.entry = Rooms.setEntry g.rooms.entry room player.playerId member) :
    Synced (g.update id { conn with auth := conn.auth.setCurrentRoom (some room) } rooms) where
  inv := hinv
  seated j b q r hb hq hr := by
    show ∃ m, rooms.entry r q.playerId = some m ∧ _
    rw [hentry]
    unfold Rooms.setEntry
    obtain ⟨rfl, rfl, -⟩ | ⟨-, hb⟩ := update_live hb
    · obtain rfl := Option.some.inj (hplayer.symm.trans hq)
      obtain rfl := Option.some.inj hr
      exact ⟨member, if_pos ⟨rfl, rfl⟩, hsink⟩
    · obtain ⟨m, hm, hm_sink⟩ := h.seated j b q r hb hq hr
      refine ⟨m, (if_neg ?_).trans hm, hm_sink⟩
      rintro ⟨rfl, heq⟩
      rw [heq, hempty] at hm
      cases hm
  owned r p m hm := by
    change rooms.entry r p = some m at hm
    have hlive := (liveConn_iff.mp hconn).2
    rw [hentry] at hm
    unfold Rooms.setEntry at hm
    split_ifs at hm with hand
    · obtain ⟨rfl, rfl⟩ := hand
      exact ⟨id, _, player, update_self hconn hlive, hplayer, rfl, rfl⟩
    · obtain ⟨j, b, q, hb, hq, heq, hr⟩ := h.owned r p m hm
      refine ⟨j, b, q, update_of_ne ?_ hb, hq, heq, hr⟩
      rintro rfl
      obtain rfl := Option.some.inj (hconn.symm.trans hb)
      rw [hnone] at hr
      cases hr

theorem Synced.left (h : Synced g) {player : AuthedPlayer} {op : Op} {touched : RoomId → Prop}
    (hinv : (g.update id conn' rooms).Inv) (hconn : g.liveConn id = some conn) (hplayer : conn.auth.player = some player)
    (hplayer' : conn'.auth.player = some player) (hroomTx : conn'.roomTx = conn.roomTx)
    (hkeeps : ∀ r, (conn'.live = true ∧ conn'.auth.currentRoom = some r) ↔ (conn.auth.currentRoom = some r ∧ ¬ touched r))
    (htouched : ∀ r, touches op r player.playerId ↔ touched r) (hapart : g.Apart id op)
    (hleft : Rooms.LeftRooms player.playerId touched g.rooms rooms) : Synced (g.update id conn' rooms) := by
  classical
  have hentry := hleft.entry h.inv.rooms
  refine ⟨hinv, fun j b q r hb hq hr => ?_, fun r p m hm => ?_⟩
  · show ∃ m, rooms.entry r q.playerId = some m ∧ _
    rw [hentry]
    obtain ⟨rfl, rfl, hlive⟩ | ⟨hne, hb⟩ := update_live hb
    · obtain ⟨hroom, hnot⟩ := (hkeeps r).mp ⟨hlive, hr⟩
      obtain rfl := Option.some.inj (hplayer'.symm.trans hq)
      obtain ⟨m, hm, hsink⟩ := h.seated j conn player r hconn hplayer hroom
      exact ⟨m, (if_neg fun hand => hnot hand.2).trans hm, hsink.trans hroomTx.symm⟩
    · obtain ⟨m, hm, hsink⟩ := h.seated j b q r hb hq hr
      refine ⟨m, (if_neg ?_).trans hm, hsink⟩
      rintro ⟨heq, htouch⟩
      refine hapart j b q r hne hb hq hr ?_
      rw [heq]
      exact (htouched r).mpr htouch
  · change rooms.entry r p = some m at hm
    rw [hentry] at hm
    split_ifs at hm with hand
    obtain ⟨j, b, q, hb, hq, heq, hr⟩ := h.owned r p m hm
    by_cases hj : j = id
    · subst hj
      obtain rfl := Option.some.inj (hconn.symm.trans hb)
      obtain rfl := Option.some.inj (hplayer.symm.trans hq)
      obtain ⟨hlive, hroom⟩ := (hkeeps r).mpr ⟨hr, fun htouch => hand ⟨heq.symm, htouch⟩⟩
      exact ⟨j, conn', player, update_self hconn hlive, hplayer', heq, hroom⟩
    · exact ⟨j, b, q, update_of_ne hj hb, hq, heq, hr⟩

/-- **A step that keeps to its own connection keeps belief and rooms in agreement.** -/
theorem Synced.step (h : Synced g) {label : Label} (hok : Undisturbed uuids g label)
    (hstep : g.step uuids config label = some g') : Synced g' := by
  have hinv := h.inv.step hstep
  cases step_taken h.inv.rooms hstep with
  | accept =>
      refine ⟨hinv, fun j b q r hb hq hr => ?_, fun r p m hm => ?_⟩
      · obtain hb | ⟨-, rfl⟩ := (liveConn_append rfl).mp hb
        · exact h.seated j b q r hb hq hr
        · cases hq
      · obtain ⟨j, b, q, hb, hq, heq, hr⟩ := h.owned r p m hm
        exact ⟨j, b, q, (liveConn_append rfl).mpr (Or.inl hb), hq, heq, hr⟩
  | idle => exact h
  | unbound _ id conn conn' hconn hplayer hroom =>
      exact h.unbound hinv hconn hplayer (hroom.trans (h.inv.bound id conn (liveConn_iff.mp hconn).1 hplayer))
  | refused _ id conn rooms hconn _ hentry => exact h.refused hinv hconn hentry
  | joined id conn message fresh rooms player target room hconn hfresh hbegin hplayer hnone hroom _ hentry =>
      have hempty := h.not_yet hconn hfresh hnone hroom (hok conn _ hconn hbegin)
      rw [hempty] at hentry
      exact h.joined hinv hconn hplayer hnone hempty rfl hentry
  | left _ id conn conn' rooms player op touched hconn hplayer hplayer' hroomTx hkeeps htouched hapart hleft =>
      exact h.left hinv hconn hplayer hplayer' hroomTx hkeeps htouched (hapart hok) hleft
  | closeAll reason order horder =>
      have hnone := (Rooms.closeAll_spec h.inv.rooms reason horder).2
      refine ⟨hinv, fun j b q r hb hq hr => ?_, fun r p m hm => ?_⟩
      · have hb' : b.auth.currentRoom = none := hok j b hb
        rw [hb'] at hr
        cases hr
      · cases (hnone r p).symm.trans hm

/-! ## Joins -/

theorem Synced.joined_of (h : Synced g) {player : AuthedPlayer} {room : RoomId} (hconn : g.liveConn id = some conn)
    (hplayer : conn.auth.player = some player) (hroom : conn.auth.currentRoom = some room) : g.Joined id := by
  obtain ⟨m, hm, hsink⟩ := h.seated id conn player room hconn hplayer hroom
  obtain ⟨actor, hactor, hentry⟩ := Option.bind_eq_some_iff.mp hm
  obtain ⟨hopen, hmember, hlookup⟩ := mem_of_entryOf (h.inv.rooms.actors room actor hactor) hentry
  exact ⟨conn, player, room, actor, m, (liveConn_iff.mp hconn).1, hplayer, hroom, hactor, hopen, hmember, hlookup, hsink⟩

theorem init_synced (uuids : Uuids) (config : RoomServiceConfig) : Synced (system uuids config).init where
  inv := init_inv uuids config
  seated _ _ _ _ h := by cases h
  owned _ _ _ h := by cases h

/-- **A `JOIN_ROOM` that is not refused really joins**, in every run whose steps keep to their own connections. -/
theorem join_really_joins (uuids : Uuids) (config : RoomServiceConfig) (labels : List Label) (g g' : State) (id : ConnId)
    (conn : Conn) (message : InboundMessage) (fresh : RoomId)
    (hrun : (system uuids config).run (system uuids config).init labels = some g)
    (hok : (system uuids config).Along (Undisturbed uuids) (system uuids config).init
      (labels ++ [.joinRoom id message fresh]))
    (hconn : g.liveConn id = some conn) (hfresh : g.rooms.actors fresh = none)
    (hjoin : g.joinRoom uuids config id conn message fresh = (g', .ok none)) : g'.Joined id := by
  obtain ⟨hbefore, hlast⟩ := TransitionSystem.along_append hok hrun
  have h : Synced g := TransitionSystem.run_induction (Undisturbed uuids) (fun _ _ _ h hok hstep => h.step hok hstep)
    (init_synced uuids config) hbefore hrun
  have hstep : g.step uuids config (.joinRoom id message fresh) = some g' := by
    simp only [State.step, hconn, hfresh, Option.isNone_none, if_true, hjoin]
  have h' := h.step hlast.1 hstep
  obtain ⟨rfl, hsilent⟩ | ⟨rooms, -, -, -, hanswer⟩ |
    ⟨rooms, player, target, room, -, hplayer, -, -, -, -, rfl⟩ := joinRoom_spec h.inv.rooms hfresh hjoin
  · obtain ⟨player, room, hplayer, hroom⟩ := hsilent rfl
    exact h.joined_of hconn hplayer hroom
  · exact absurd rfl hanswer
  · exact h'.joined_of (update_self hconn (liveConn_iff.mp hconn).2) hplayer rfl

/-- The canonical text of the id 7, and what `Uuid::parse_str` makes of it. -/
def textOfSeven : String := "00000000-0000-0000-0000-000000000007"

def sevenUuids : Uuids := ⟨fun text => if text = textOfSeven then some 7 else none, fun _ => textOfSeven⟩

/-- Player 1 is bound to two connections; the first creates room 7. -/
def twiceBound : List Label :=
  [.accept, .accept, .bind 0 ⟨⟨1⟩, "a"⟩ "t", .bind 1 ⟨⟨1⟩, "a"⟩ "t", .joinRoom 0 (.joinRoom ⟨none⟩) ⟨7⟩]

/-- The second connection leaves the room for the player, which closes it. The first one, asked to join it, answers
nothing and is in a closed room. -/
theorem stale_current_room : ¬ ∀ (uuids : Uuids) (config : RoomServiceConfig) (labels : List Label) (g g' : State)
    (id : ConnId) (conn : Conn) (message : InboundMessage) (fresh : RoomId),
    (system uuids config).run (system uuids config).init labels = some g → g.liveConn id = some conn →
    g.rooms.actors fresh = none → g.joinRoom uuids config id conn message fresh = (g', .ok none) → g'.Joined id := by
  intro h
  have hjoined := h sevenUuids ⟨16, 4⟩ (twiceBound ++ [.leaveRoom 1 (.leaveRoom ⟨some textOfSeven⟩) [⟨7⟩]]) _ _ 0 _
    (.joinRoom ⟨some textOfSeven⟩) ⟨8⟩ rfl rfl rfl rfl
  obtain ⟨conn, player, room, actor, member, hconn, -, hroom, hactor, hopen, -⟩ := hjoined
  obtain rfl := Option.some.inj hconn
  obtain rfl := Option.some.inj hroom
  obtain rfl := Option.some.inj hactor
  cases hopen

/-- Players 1 and 2 are bound to a connection each; the first creates room 7. -/
def twoPlayers : List Label :=
  [.accept, .accept, .bind 0 ⟨⟨1⟩, "a"⟩ "s", .bind 1 ⟨⟨2⟩, "b"⟩ "t", .joinRoom 0 (.joinRoom ⟨none⟩) ⟨7⟩]

/-- The second player joins room 7 by its id. -/
theorem join_really_joins_by_id : ∃ g conn g',
    (system sevenUuids ⟨16, 4⟩).run (system sevenUuids ⟨16, 4⟩).init twoPlayers = some g ∧ g.liveConn 1 = some conn ∧
    g.joinRoom sevenUuids ⟨16, 4⟩ 1 conn (.joinRoom ⟨some textOfSeven⟩) ⟨8⟩ = (g', .ok none) ∧ g'.Joined 1 := by
  have hok : (system sevenUuids ⟨16, 4⟩).Along (Undisturbed sevenUuids) (system sevenUuids ⟨16, 4⟩).init
      (twoPlayers ++ [.joinRoom 1 (.joinRoom ⟨some textOfSeven⟩) ⟨8⟩]) := by
    refine ⟨trivial, fun g₁ h₁ => ⟨trivial, fun g₂ h₂ => ⟨trivial, fun g₃ h₃ => ⟨trivial, fun g₄ h₄ => ⟨?_, fun g₅ h₅ =>
      ⟨?_, fun _ _ => trivial⟩⟩⟩⟩⟩⟩
    all_goals
      obtain rfl := Option.some.inj h₁
      obtain rfl := Option.some.inj h₂
      obtain rfl := Option.some.inj h₃
      obtain rfl := Option.some.inj h₄
    · rintro conn op - - (_ | _ | j) b player room hne hb hp hroom
      · exact absurd rfl hne
      · obtain rfl := Option.some.inj hb
        cases hroom
      · cases hb
    · obtain rfl := Option.some.inj h₅
      rintro conn op hconn hbegin (_ | _ | j) b player room hne hb hp hroom htouches
      · obtain rfl := Option.some.inj hconn
        obtain rfl := Sum.inr.inj hbegin
        obtain rfl := Option.some.inj hb
        obtain rfl := Option.some.inj hp
        exact absurd htouches.2 (by decide)
      · exact absurd rfl hne
      · cases hb
  exact ⟨_, _, _, rfl, rfl, rfl, join_really_joins sevenUuids ⟨16, 4⟩ twoPlayers _ _ 1 _ _ _ rfl hok rfl rfl rfl⟩

/-! ## Cleanups -/

/-- The connection established this membership: it is the connection's `current_room`, and the room's entry for the
player carries the connection's sink. -/
def State.Holds (g : State) (id : ConnId) (room : RoomId) : Prop :=
  ∃ conn player actor member, g.liveConn id = some conn ∧ conn.auth.player = some player ∧
    conn.auth.currentRoom = some room ∧ g.rooms.actors room = some actor ∧
    actor.members.lookup player.playerId = some member ∧ member.sink = conn.roomTx

/-- **A cleanup keeps to its player**: it leaves the memberships that other connections established for other players
as they are, in rooms that stay open; in open rooms it ends those of its own player. -/
theorem cleanup_isolated (uuids : Uuids) (config : RoomServiceConfig) (labels : List Label) (g g' : State) (c d : ConnId)
    (conn ended : Conn) (player : AuthedPlayer) (room : RoomId) (order : List RoomId)
    (hrun : (system uuids config).run (system uuids config).init labels = some g) (hne : c ≠ d)
    (hconn : g.liveConn c = some conn) (hplayer : conn.auth.player = some player) (hholds : g.Holds c room)
    (hended : g.liveConn d = some ended) (hstep : g.step uuids config (.cleanup d order) = some g') :
    ((∀ p, ended.auth.player = some p → p.playerId ≠ player.playerId) →
      g'.Holds c room ∧ (g.rooms.isClosed room = false → g'.rooms.isClosed room = false)) ∧
    ((∃ p, ended.auth.player = some p ∧ p.playerId = player.playerId) → g.rooms.isClosed room = false →
      ¬ g'.Holds c room) := by
  have h := run_inv hrun
  obtain ⟨conn₀, player₀, actor, member, hconn₀, hplayer₀, hroom, hactor, hlookup, hsink⟩ := hholds
  obtain rfl := Option.some.inj (hconn.symm.trans hconn₀)
  obtain rfl := Option.some.inj (hplayer.symm.trans hplayer₀)
  have hinv := h.rooms.actors room actor hactor
  simp only [State.step, hended] at hstep
  split_ifs at hstep with horder
  obtain rfl := Option.some.inj hstep
  obtain ⟨hnobody, heq⟩ | ⟨rooms, p, hp, hleft, heq⟩ := cleanup_spec h.rooms d ended horder
  · rw [heq]
    refine ⟨fun _ => ⟨⟨conn, player, actor, member, update_of_ne hne hconn, hplayer, hroom, hactor, hlookup, hsink⟩, id⟩, ?_⟩
    rintro ⟨p, hp, -⟩
    rw [hnobody] at hp
    cases hp
  · rw [heq]
    obtain ⟨actor', hactor', hleft', -⟩ := hleft.left room actor hactor
    have hleft' := hleft' trivial
    have hmem : player.playerId ∈ actor.room.members := by
      rw [← hinv.keys, ← AList.lookup_isSome, hlookup]
      rfl
    refine ⟨fun hother => ⟨⟨conn, player, actor', member, update_of_ne hne hconn, hplayer, hroom, hactor', ?_, hsink⟩, ?_⟩, ?_⟩
    · rw [hleft'.lookup (Ne.symm (hother p hp)), hlookup]
    · rw [Rooms.isClosed_eq hactor]
      intro hopen
      exact (Rooms.isClosed_eq hactor').trans (hleft'.stays_open hopen hmem (Ne.symm (hother p hp)))
    · rintro ⟨q, hq, hsame⟩ hopen ⟨conn', player', actor'', member', hconn', hplayer', -, hactor'', hlookup', -⟩
      obtain rfl := Option.some.inj (hp.symm.trans hq)
      obtain ⟨rfl, -⟩ | ⟨-, hconn'⟩ := update_live hconn'
      · exact hne rfl
      · obtain rfl := Option.some.inj (hconn.symm.trans hconn')
        obtain rfl := Option.some.inj (hplayer.symm.trans hplayer')
        obtain rfl := Option.some.inj (hactor'.symm.trans hactor'')
        rw [Rooms.isClosed_eq hactor] at hopen
        rw [← hsame] at hlookup' hmem
        cases (hleft'.lookup_self hopen hmem).symm.trans hlookup'

/-- The cleanup of the second connection of player 1 takes the player out of the room that the first one is in. -/
theorem cleanup_of_same_player : ¬ ∀ (uuids : Uuids) (config : RoomServiceConfig) (labels : List Label) (g g' : State)
    (c d : ConnId) (room : RoomId) (order : List RoomId),
    (system uuids config).run (system uuids config).init labels = some g → c ≠ d → g.Holds c room →
    g.step uuids config (.cleanup d order) = some g' → g'.Holds c room := by
  intro h
  have hholds := h sevenUuids ⟨16, 4⟩ twiceBound _ _ 0 1 ⟨7⟩ [⟨7⟩] rfl (by decide)
    ⟨_, _, _, _, rfl, rfl, rfl, rfl, rfl, rfl⟩ rfl
  obtain ⟨conn, player, actor, member, hconn, hplayer, -, hactor, hlookup, -⟩ := hholds
  obtain rfl := Option.some.inj hconn
  obtain rfl := Option.some.inj hplayer
  obtain rfl := Option.some.inj hactor
  cases hlookup

/-- Player 2 is in room 7 too; its cleanup leaves player 1's membership alone. -/
theorem cleanup_isolated_two_players : ∃ g g',
    (system sevenUuids ⟨16, 4⟩).run (system sevenUuids ⟨16, 4⟩).init
      (twoPlayers ++ [.joinRoom 1 (.joinRoom ⟨some textOfSeven⟩) ⟨8⟩]) = some g ∧
    g.step sevenUuids ⟨16, 4⟩ (.cleanup 1 [⟨7⟩]) = some g' ∧ g'.Holds 0 ⟨7⟩ := by
  refine ⟨_, _, rfl, rfl, ?_⟩
  have hisolated := cleanup_isolated sevenUuids ⟨16, 4⟩ (twoPlayers ++ [.joinRoom 1 (.joinRoom ⟨some textOfSeven⟩) ⟨8⟩]) _ _ 0 1
    _ _ _ ⟨7⟩ [⟨7⟩] rfl (by decide) rfl rfl ⟨_, _, _, _, rfl, rfl, rfl, rfl, rfl, rfl⟩ rfl rfl
  refine (hisolated.1 fun p hp => ?_).1
  obtain rfl := Option.some.inj hp
  decide

end

end LongshipX.Sequential
