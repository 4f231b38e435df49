import LongshipX.Gateway.Membership

/-!
# What the room service publishes

`join` publishes `PlayerJoinedRoom` and `leave` publishes `PlayerLeftRoom`, each from the answer of the actor. Here the
publisher records every event, and the operations run one after the other.

* `Recorded` : the room service with what was published; `join`, `joinOrCreate`, `leave`, `leaveAll`, `step`, `service`;
* `joinOrCreate_eq`, `leave_eq` : without the events they are the operations of `Rooms`, and what each publishes;
* `surplus` : by how much the events of a player and a room differ from its membership, and `step_surplus` : only a
  repeated join changes it;
* `events_mirror_membership_iff` : the events tell who is in which room as long as nobody joins a room twice.
-/

namespace LongshipX.Sequential
open RoomActor
open Service (RoomServiceConfig DomainEvent)

/-- The room service and the events that its publisher has recorded. -/
structure Recorded where
  rooms : Rooms
  events : List DomainEvent

namespace Recorded

/-! ## The operations -/

def publish (s : Recorded) (event : DomainEvent) : Recorded := { s with events := s.events ++ [event] }

/-- `join`; it does not learn whether the player was in already. -/
def join (s : Recorded) (room : RoomId) (player : PlayerId) (nickname : String) (sink : SinkId) :
    Recorded × Except AppError Unit :=
  match s.rooms.handleFor room with
  | (false, rooms) => (⟨rooms, s.events⟩, .error (.notFound "房间不存在"))
  | (true, rooms) =>
    match rooms.send room (.join player nickname sink ()) with
    | none => (⟨rooms, s.events⟩, .error (.notFound "房间不存在"))
    | some (rooms, effects) =>
      match Rooms.joinReply effects with
      | some (.ok _) => (publish ⟨rooms, s.events⟩ (.playerJoinedRoom room player), .ok ())
      | some (.error err) => (⟨rooms, s.events⟩, .error err)
      | none => (⟨rooms, s.events⟩, .error (.internal "房间已关闭,加入结果未知"))

/-- `create_and_join`, with the id that the new room draws. -/
def createAndJoin (config : RoomServiceConfig) (s : Recorded) (room : RoomId) (player : PlayerId) (nickname : String)
    (sink : SinkId) : Recorded × Except AppError RoomId :=
  let rooms : Rooms :=
    { actors := Function.update s.rooms.actors room (some (RoomActor.spawn (Room.open room config.maxPlayers))),
      registry := s.rooms.registry.insert room }
  match join ⟨rooms, s.events⟩ room player nickname sink with
  | (s, .ok _) => (s, .ok room)
  | (s, .error err) => (⟨(s.rooms.forget room).hangUp room, s.events⟩, .error err)

def joinOrCreate (config : RoomServiceConfig) (s : Recorded) (target : Option RoomId) (fresh : RoomId)
    (player : PlayerId) (nickname : String) (sink : SinkId) : Recorded × Except AppError RoomId :=
  match target with
  | some room =>
    match s.join room player nickname sink with
    | (s, .ok _) => (s, .ok room)
    | (s, .error err) => (s, .error err)
  | none => s.createAndJoin config fresh player nickname sink

def leave (s : Recorded) (room : RoomId) (player : PlayerId) (reason : String) : Recorded × Except AppError Unit :=
  match s.rooms.handleFor room with
  | (false, rooms) => (⟨rooms, s.events⟩, .ok ())
  | (true, rooms) =>
    match rooms.send room (.leave player reason ()) with
    | none =>
      if rooms.isClosed room then (⟨rooms.forget room, s.events⟩, .ok ())
      else (⟨rooms, s.events⟩, .error (.notFound "房间不存在"))
    | some (rooms, effects) =>
      match Rooms.leaveReply effects with
      | some (.ok left) =>
        let s : Recorded := ⟨if rooms.isClosed room then rooms.forget room else rooms, s.events⟩
        if left then (s.publish (.playerLeftRoom room player reason), .ok ()) else (s, .ok ())
      | some (.error err) => (⟨rooms, s.events⟩, .error err)
      | none =>
        if rooms.isClosed room then (⟨rooms.forget room, s.events⟩, .ok ())
        else (⟨rooms, s.events⟩, .error (.internal "离房操作未完成"))

/-- The loop of `leave_all`. -/
def leaveEach (s : Recorded) (player : PlayerId) (reason : String) : List RoomId → Recorded × Except AppError Unit
  | [] => (s, .ok ())
  | room :: order =>
    match s.leave room player reason with
    | (s, .ok _) => leaveEach s player reason order
    | (s, .error err) => (s, .error err)

/-- `leave_all`, over the live handles in the order in which the map yields them. -/
def leaveAll (s : Recorded) (player : PlayerId) (reason : String) (order : List RoomId) :
    Recorded × Except AppError Unit :=
  leaveEach ⟨s.rooms.retainLive, s.events⟩ player reason order

/-- A call of the room service; `fresh` is the id that a new room would draw. -/
inductive Call where
  | joinOrCreate (target : Option RoomId) (fresh : RoomId) (player : PlayerId) (nickname : String) (sink : SinkId)
  | leave (room : RoomId) (player : PlayerId) (reason : String)
  | leaveAll (player : PlayerId) (reason : String) (order : List RoomId)

/-- One call, from its start to its end. New rooms draw ids that no room had before; the handles come in any order. -/
def step (config : RoomServiceConfig) (s : Recorded) : Call → Option Recorded
  | .joinOrCreate target fresh player nickname sink =>
    if (s.rooms.actors fresh).isNone then some (s.joinOrCreate config target fresh player nickname sink).1 else none
  | .leave room player reason => some (s.leave room player reason).1
  | .leaveAll player reason order =>
    if order.Perm s.rooms.retainLive.registry then some (s.leaveAll player reason order).1 else none

/-- A room service without rooms, before anything was published. -/
def service (config : RoomServiceConfig) : TransitionSystem Recorded Call where
  init := ⟨⟨fun _ => none, []⟩, []⟩
  step := step config

/-! ## Events and membership -/

def isMember (s : Recorded) (room : RoomId) (player : PlayerId) : Bool := (s.rooms.entry room player).isSome

def isJoined (room : RoomId) (player : PlayerId) : DomainEvent → Bool
  | .playerJoinedRoom r p => decide (r = room ∧ p = player)
  | .playerLeftRoom _ _ _ => false

def isLeft (room : RoomId) (player : PlayerId) : DomainEvent → Bool
  | .playerJoinedRoom _ _ => false
  | .playerLeftRoom r p _ => decide (r = room ∧ p = player)

/-- How often `PlayerJoinedRoom` was published for a room and a player. -/
def joinedCount (s : Recorded) (room : RoomId) (player : PlayerId) : Nat := s.events.countP (isJoined room player)

/-- How often `PlayerLeftRoom` was published for a room and a player. -/
def leftCount (s : Recorded) (room : RoomId) (player : PlayerId) : Nat := s.events.countP (isLeft room player)

/-- The events tell who is in which room. -/
def Mirrors (s : Recorded) : Prop :=
  ∀ r p, (s.joinedCount r p : Int) - s.leftCount r p = if s.isMember r p then 1 else 0

/-- By how much the events differ from the membership. -/
def surplus (s : Recorded) (room : RoomId) (player : PlayerId) : Int :=
  (s.joinedCount room player : Int) - s.leftCount room player - if s.isMember room player then 1 else 0

/-- The call joins this room, in which the player is already. -/
def rejoins (s : Recorded) (room : RoomId) (player : PlayerId) : Call → Bool
  | .joinOrCreate (some r) _ p _ _ => decide (r = room ∧ p = player) && s.isMember room player
  | _ => false

/-- The call does not join a room in which its player is already. -/
def joinsAnew (s : Recorded) : Call → Bool
  | .joinOrCreate (some room) _ player _ _ => !s.isMember room player
  | _ => true

variable {config : RoomServiceConfig} {s s' : Recorded} {call : Call} {r x : RoomId} {p q : PlayerId}
  {nickname reason : String} {sink : SinkId}

theorem mirrors_iff : s.Mirrors ↔ ∀ r p, s.surplus r p = 0 := by
  unfold Mirrors surplus
  simp only [sub_eq_zero]

theorem joinsAnew_iff : s.joinsAnew call = true ↔ ∀ r p, s.rejoins r p call = false := by
  cases call with
  | joinOrCreate target fresh player nickname sink =>
      cases target with
      | none => simp [joinsAnew, rejoins]
      | some room => simp [joinsAnew, rejoins]
  | leave | leaveAll => simp [joinsAnew, rejoins]

theorem rejoins_iff {target : Option RoomId} {fresh : RoomId} :
    s.rejoins x q (.joinOrCreate target fresh p nickname sink) = true ↔
      target = some x ∧ p = q ∧ s.isMember x q = true := by
  cases target with
  | none => simp [rejoins]
  | some r => simp [rejoins, and_assoc]

/-! ## What a join publishes -/

def joinEvents (player : PlayerId) : Except AppError RoomId → List DomainEvent
  | .ok room => [.playerJoinedRoom room player]
  | .error _ => []

/-- **`join`** publishes if it succeeds. -/
theorem join_eq (s : Recorded) (r : RoomId) (p : PlayerId) (nickname : String) (sink : SinkId) :
    s.join r p nickname sink =
      (⟨(s.rooms.join r p nickname sink).1,
        s.events ++ joinEvents p ((s.rooms.join r p nickname sink).2.map fun _ => r)⟩,
      (s.rooms.join r p nickname sink).2) := by
  unfold join Rooms.join
  cases s.rooms.handleFor r with
  | mk found rooms =>
      cases found with
      | false => simp [joinEvents, Except.map]
      | true =>
          dsimp only
          cases rooms.send r (.join p nickname sink ()) with
          | none => simp [joinEvents, Except.map]
          | some sent =>
              dsimp only
              obtain _ | _ | _ := Rooms.joinReply sent.2 <;> simp [joinEvents, Except.map, publish]

theorem createAndJoin_eq (config : RoomServiceConfig) (s : Recorded) (r : RoomId) (p : PlayerId) (nickname : String)
    (sink : SinkId) :
    s.createAndJoin config r p nickname sink =
      (⟨(s.rooms.createAndJoin config r p nickname sink).1,
        s.events ++ joinEvents p (s.rooms.createAndJoin config r p nickname sink).2⟩,
      (s.rooms.createAndJoin config r p nickname sink).2) := by
  unfold createAndJoin Rooms.createAndJoin
  simp only [join_eq]
  generalize Rooms.join _ r p nickname sink = joined
  obtain ⟨rooms, err | _⟩ := joined
  · simp [joinEvents, Except.map]
  · simp [joinEvents, Except.map]

theorem joinOrCreate_eq (config : RoomServiceConfig) (s : Recorded) (target : Option RoomId) (fresh : RoomId)
    (p : PlayerId) (nickname : String) (sink : SinkId) :
    s.joinOrCreate config target fresh p nickname sink =
      (⟨(s.rooms.joinOrCreate config target fresh p nickname sink).1,
        s.events ++ joinEvents p (s.rooms.joinOrCreate config target fresh p nickname sink).2⟩,
      (s.rooms.joinOrCreate config target fresh p nickname sink).2) := by
  cases target with
  | none => exact createAndJoin_eq config s fresh p nickname sink
  | some r =>
      unfold joinOrCreate Rooms.joinOrCreate
      simp only [join_eq]
      obtain ⟨rooms, err | _⟩ := s.rooms.join r p nickname sink
      · simp [joinEvents, Except.map]
      · simp [joinEvents, Except.map]

/-! ## What a leave publishes -/

/-- **`leave`** publishes if the player was in the room. -/
theorem leave_eq (h : s.rooms.Inv) (r : RoomId) (p : PlayerId) (reason : String) :
    s.leave r p reason =
      (⟨(s.rooms.leave r p reason).1, s.events ++ if s.isMember r p then [.playerLeftRoom r p reason] else []⟩,
        (s.rooms.leave r p reason).2) := by
  unfold isMember
  obtain ⟨hfor, a, ha, hopen⟩ | ⟨hfor, hclosed⟩ := Rooms.handleFor_cases h r
  · obtain ⟨a', effects, stop, hh, hsend⟩ := Rooms.send_open ha (h.actors r a ha) hopen (.leave p reason ())
    have hmember : (s.rooms.entry r p).isSome = decide (p ∈ a.room.members) := by
      rw [Rooms.entry_eq ha, entryOf, if_neg (by simp [hopen]), Bool.eq_iff_iff, AList.lookup_isSome, decide_eq_true_iff]
      exact (h.actors r a ha).keys p
    unfold leave Rooms.leave
    rw [hfor]
    dsimp only
    rw [hsend, hmember]
    cases hh with
    | leaveOutsider _ _ _ hmem => simp [Rooms.leaveReply, hmem]
    | leaveOthers _ _ _ hmem => simp [Rooms.leaveReply, hmem, publish]
    | leaveLast _ _ _ hlast => simp [Rooms.leaveReply, hlast, publish]
  · have hnone : s.rooms.entry r p = none := by
      unfold Rooms.entry
      cases ha : s.rooms.actors r with
      | none => rfl
      | some a => exact if_pos (hclosed a ha)
    unfold leave Rooms.leave
    rw [hnone]
    obtain hfor | hfor := hfor
    · simp [hfor]
    · simp [hfor]

/-! ## The surplus -/

theorem surplus_concat (rooms : Rooms) (events : List DomainEvent) (event : DomainEvent) (x : RoomId) (q : PlayerId) :
    surplus ⟨rooms, events ++ [event]⟩ x q =
      surplus ⟨rooms, events⟩ x q + (if isJoined x q event then 1 else 0) - if isLeft x q event then 1 else 0 := by
  unfold surplus joinedCount leftCount isMember
  dsimp only
  rw [List.countP_append, List.countP_append, List.countP_singleton, List.countP_singleton]
  push_cast
  omega

theorem surplus_joined (rooms : Rooms) (events : List DomainEvent) (r x : RoomId) (p q : PlayerId) :
    surplus ⟨rooms, events ++ [.playerJoinedRoom r p]⟩ x q =
      surplus ⟨rooms, events⟩ x q + if r = x ∧ p = q then 1 else 0 := by
  rw [surplus_concat]
  simp [isJoined, isLeft]

theorem surplus_left (rooms : Rooms) (events : List DomainEvent) (r x : RoomId) (p q : PlayerId) (reason : String) :
    surplus ⟨rooms, events ++ [.playerLeftRoom r p reason]⟩ x q =
      surplus ⟨rooms, events⟩ x q - if r = x ∧ p = q then 1 else 0 := by
  rw [surplus_concat]
  simp [isJoined, isLeft]

theorem surplus_rooms (rooms : Rooms) (s : Recorded) (x : RoomId) (q : PlayerId) :
    surplus ⟨rooms, s.events⟩ x q =
      s.surplus x q + (if s.isMember x q then 1 else 0) - if (rooms.entry x q).isSome then 1 else 0 := by
  unfold surplus joinedCount leftCount isMember
  dsimp only
  omega

theorem surplus_same {rooms : Rooms} (hentry : rooms.entry x q = s.rooms.entry x q) :
    surplus ⟨rooms, s.events⟩ x q = s.surplus x q := by
  rw [surplus_rooms, hentry]
  unfold isMember
  omega

theorem joinOrCreate_error (h : s.rooms.Inv) {target : Option RoomId} {fresh : RoomId} {rooms : Rooms} {err : AppError}
    (hjoin : s.rooms.joinOrCreate config target fresh p nickname sink = (rooms, .error err)) (x : RoomId) (q : PlayerId) :
    ¬ s.rejoins x q (.joinOrCreate target fresh p nickname sink) = true := by
  intro hrejoins
  obtain ⟨rfl, rfl, hmember⟩ := rejoins_iff.mp hrejoins
  have hok := Rooms.join_again h hmember nickname sink
  unfold Rooms.joinOrCreate at hjoin
  dsimp only at hjoin
  cases hstep : s.rooms.join x p nickname sink with
  | mk rooms' outcome =>
      rw [hstep] at hok hjoin
      dsimp only at hok
      subst hok
      cases (Prod.mk.inj hjoin).2

/-- A `join_or_create` that succeeds is a repeated join if the player was in the room that it returns. -/
theorem rejoins_of_ok {target : Option RoomId} {fresh : RoomId} (hfresh : s.rooms.actors fresh = none) :
    s.rejoins x q (.joinOrCreate target fresh p nickname sink) = true ↔
      (target.getD fresh = x ∧ p = q) ∧ s.isMember x q = true := by
  rw [rejoins_iff]
  cases target with
  | some r => simp [and_assoc]
  | none =>
      refine iff_of_false (fun hand => by cases hand.1) fun hand => ?_
      obtain ⟨⟨rfl, -⟩, hmember⟩ := hand
      unfold isMember Rooms.entry at hmember
      rw [Option.getD_none, hfresh] at hmember
      cases hmember

/-- **A `join_or_create`** raises the surplus of its room and player by one if the player was in the room, and keeps
every other. -/
theorem joinOrCreate_surplus (h : s.rooms.Inv) {target : Option RoomId} {fresh : RoomId}
    (hfresh : s.rooms.actors fresh = none) (x : RoomId) (q : PlayerId) :
    (s.joinOrCreate config target fresh p nickname sink).1.surplus x q =
      s.surplus x q + if s.rejoins x q (.joinOrCreate target fresh p nickname sink) then 1 else 0 := by
  rw [joinOrCreate_eq]
  cases hjoin : s.rooms.joinOrCreate config target fresh p nickname sink with
  | mk rooms outcome =>
      obtain ⟨-, ⟨err, rfl, hentry⟩ | ⟨r, rfl, rfl, hentry⟩⟩ :=
        Rooms.joinOrCreate_spec config h hfresh target p nickname sink hjoin
      · dsimp only [joinEvents]
        rw [List.append_nil, surplus_same (congrFun₂ hentry x q), if_neg (joinOrCreate_error h hjoin x q), add_zero]
      · dsimp only [joinEvents]
        rw [surplus_joined]
        by_cases hxq : target.getD fresh = x ∧ p = q
        · have hin : (rooms.entry x q).isSome = true := by
            rw [hentry, Rooms.setEntry, if_pos ⟨hxq.1.symm, hxq.2.symm⟩]
            rfl
          simp only [surplus_rooms, hin, rejoins_of_ok hfresh, hxq, and_self, true_and, if_true]
          omega
        · have hsame : rooms.entry x q = s.rooms.entry x q := by
            rw [hentry, Rooms.setEntry, if_neg fun hand => hxq ⟨hand.1.symm, hand.2.symm⟩]
          simp only [surplus_same hsame, rejoins_of_ok hfresh, hxq, false_and, if_false]

/-- **A `leave`** keeps the surplus. -/
theorem leave_surplus (h : s.rooms.Inv) (r : RoomId) (p : PlayerId) (reason : String) (x : RoomId) (q : PlayerId) :
    (s.leave r p reason).1.surplus x q = s.surplus x q := by
  obtain ⟨-, hleft⟩ := Rooms.leave_spec h r p reason
  have hentry := hleft.entry h x q
  rw [leave_eq h]
  by_cases hxq : q = p ∧ x = r
  · obtain ⟨rfl, rfl⟩ := hxq
    rw [if_pos ⟨rfl, rfl⟩] at hentry
    by_cases hmember : s.isMember x q = true
    · rw [if_pos hmember, surplus_left, surplus_rooms, hentry]
      simp [hmember]
    · rw [if_neg hmember, List.append_nil, surplus_rooms, hentry]
      simp [hmember]
  · rw [if_neg hxq] at hentry
    by_cases hmember : s.isMember r p = true
    · rw [if_pos hmember, surplus_left, surplus_same hentry, if_neg fun hand => hxq ⟨hand.2.symm, hand.1.symm⟩, sub_zero]
    · rw [if_neg hmember, List.append_nil, surplus_same hentry]

/-- **The loop of `leave_all`** is that of `Rooms` and keeps the surplus, by induction on the rooms before it. -/
theorem leaveEach_surplus (h : s.rooms.Inv) (p : PlayerId) (reason : String) (order : List RoomId) :
    (s.leaveEach p reason order).1.rooms = (s.rooms.leaveEach p reason order).1 ∧
      ∀ x q, (s.leaveEach p reason order).1.surplus x q = s.surplus x q := by
  induction order generalizing s with
  | nil => exact ⟨rfl, fun x q => rfl⟩
  | cons r order ih =>
      obtain ⟨hok, hleft⟩ := Rooms.leave_spec h r p reason
      have hleave := leave_surplus h r p reason
      rw [leave_eq h] at hleave
      unfold leaveEach Rooms.leaveEach
      rw [leave_eq h]
      cases hstep : s.rooms.leave r p reason with
      | mk rooms outcome =>
          rw [hstep] at hok hleft hleave
          dsimp only at hok
          subst hok
          obtain ⟨hrooms, hrest⟩ := ih (s := ⟨rooms, _⟩) hleft.inv
          exact ⟨hrooms, fun x q => (hrest x q).trans (hleave x q)⟩

/-- **One call**: only a repeated join changes a surplus, and raises it by one. -/
theorem step_surplus (h : s.rooms.Inv) (hstep : s.step config call = some s') :
    s'.rooms.Inv ∧ ∀ x q, s'.surplus x q = s.surplus x q + if s.rejoins x q call then 1 else 0 := by
  cases call with
  | joinOrCreate target fresh p nickname sink =>
      obtain ⟨hfresh, hs'⟩ := Option.ite_none_right_eq_some.mp hstep
      rw [Option.isNone_iff_eq_none] at hfresh
      obtain rfl := Option.some.inj hs'
      refine ⟨?_, joinOrCreate_surplus h hfresh⟩
      rw [joinOrCreate_eq]
      exact (Rooms.joinOrCreate_spec config h hfresh target p nickname sink rfl).1
  | leave r p reason =>
      obtain rfl := Option.some.inj hstep
      refine ⟨?_, fun x q => ?_⟩
      · rw [leave_eq h]
        exact (Rooms.leave_spec h r p reason).2.inv
      · rw [leave_surplus h]
        simp [rejoins]
  | leaveAll p reason order =>
      obtain ⟨horder, hs'⟩ := Option.ite_none_right_eq_some.mp hstep
      obtain rfl := Option.some.inj hs'
      have hretain : Rooms.Inv (⟨s.rooms.retainLive, s.events⟩ : Recorded).rooms := Rooms.retainLive_inv h
      obtain ⟨hrooms, hsurplus⟩ := leaveEach_surplus hretain p reason order
      refine ⟨?_, fun x q => (hsurplus x q).trans ?_⟩
      · show (leaveEach ⟨s.rooms.retainLive, s.events⟩ p reason order).1.rooms.Inv
        rw [hrooms]
        exact (Rooms.leaveAll_spec h p reason horder).2.inv
      · have hsame : surplus ⟨s.rooms.retainLive, s.events⟩ x q = s.surplus x q := surplus_same rfl
        simp [hsame, rejoins]

/-! ## Whole runs -/

theorem init_inv (config : RoomServiceConfig) : (service config).init.rooms.Inv where
  actors r a ha := by cases ha
  listed r a ha := by cases ha
  known r hr := by cases hr

theorem run_inv {calls : List Call} (hrun : (service config).run (service config).init calls = some s) : s.rooms.Inv :=
  TransitionSystem.run_invariant (I := fun s => s.rooms.Inv) (fun _ _ _ h hstep => (step_surplus h hstep).1)
    (init_inv config) hrun

theorem run_mirrors {calls : List Call} (hjoins : (service config).Along (fun s call => s.joinsAnew call = true)
    (service config).init calls) (hrun : (service config).run (service config).init calls = some s) : s.Mirrors := by
  have hinit : (service config).init.rooms.Inv ∧ (service config).init.Mirrors := by
    refine ⟨init_inv config, mirrors_iff.mpr fun r p => rfl⟩
  refine (TransitionSystem.run_induction (I := fun s => s.rooms.Inv ∧ s.Mirrors) _
    (fun t call t' ht hnew hstep => ?_) hinit hjoins hrun).2
  obtain ⟨hinv, hsurplus⟩ := step_surplus ht.1 hstep
  refine ⟨hinv, mirrors_iff.mpr fun r p => ?_⟩
  rw [hsurplus, mirrors_iff.mp ht.2, joinsAnew_iff.mp hnew]
  rfl

/-- **The events mirror the membership** after every call of a run if and only if no call of it joins a room in which
its player is already. -/
theorem events_mirror_membership_iff (config : RoomServiceConfig) {calls : List Call} {t : Recorded}
    (hrun : (service config).run (service config).init calls = some t) :
    (∀ before s, before <+: calls → (service config).run (service config).init before = some s → s.Mirrors) ↔
      (service config).Along (fun s call => s.joinsAnew call = true) (service config).init calls := by
  constructor
  · intro hmirrors
    refine TransitionSystem.along_of_prefixes fun before call rest s hcalls hbefore => joinsAnew_iff.mpr fun r p => ?_
    subst hcalls
    obtain ⟨s', hstep⟩ : ∃ s', (service config).step s call = some s' := by
      rw [TransitionSystem.run_append, hbefore, Option.bind_some] at hrun
      obtain ⟨s', hstep, -⟩ := Option.bind_eq_some_iff.mp hrun
      exact ⟨s', hstep⟩
    have hs := mirrors_iff.mp (hmirrors before s (List.prefix_append before _) hbefore) r p
    have hfront : before ++ [call] <+: before ++ call :: rest := by simp
    have hs' := mirrors_iff.mp (hmirrors _ s' hfront (TransitionSystem.run_concat.mpr ⟨s, hbefore, hstep⟩)) r p
    rw [(step_surplus (run_inv hbefore) hstep).2, hs] at hs'
    by_contra hrejoins
    rw [if_pos (by simpa using hrejoins)] at hs'
    cases hs'
  · rintro hjoins before s ⟨rest, rfl⟩ hbefore
    exact run_mirrors (TransitionSystem.along_append hjoins hbefore).1 hbefore

/-- Two players meet in a room and leave it, the second by its disconnect. -/
theorem events_mirror_membership_meeting :
    ∃ t, (service ⟨16, 4⟩).run (service ⟨16, 4⟩).init
        [.joinOrCreate none ⟨7⟩ ⟨1⟩ "a" 0, .joinOrCreate (some ⟨7⟩) ⟨8⟩ ⟨2⟩ "b" 1, .leave ⟨7⟩ ⟨1⟩ "bye",
          .leaveAll ⟨2⟩ "connection closed" [⟨7⟩]] = some t ∧ t.events.length = 4 ∧ t.Mirrors := by
  have hreached : ((service ⟨16, 4⟩).run (service ⟨16, 4⟩).init
      [.joinOrCreate none ⟨7⟩ ⟨1⟩ "a" 0, .joinOrCreate (some ⟨7⟩) ⟨8⟩ ⟨2⟩ "b" 1, .leave ⟨7⟩ ⟨1⟩ "bye",
        .leaveAll ⟨2⟩ "connection closed" [⟨7⟩]]).map (fun t => t.events.length) = some 4 := by decide +kernel
  obtain ⟨t, hrun, hlength⟩ := Option.map_eq_some_iff.mp hreached
  exact ⟨t, hrun, hlength, (events_mirror_membership_iff ⟨16, 4⟩ hrun).mpr (by decide +kernel) _ t (List.prefix_refl _) hrun⟩

/-- A player that joins its room again is told `Ok`, and `PlayerJoinedRoom` is published a second time. -/
theorem rejoin_published_twice :
    ¬ ∀ (config : RoomServiceConfig) (calls : List Call) (t : Recorded),
      (service config).run (service config).init calls = some t → t.Mirrors := by
  intro hmirrors
  have hreached : ((service ⟨16, 4⟩).run (service ⟨16, 4⟩).init
      [.joinOrCreate none ⟨7⟩ ⟨1⟩ "a" 0, .joinOrCreate (some ⟨7⟩) ⟨8⟩ ⟨1⟩ "a" 0]).map
        (fun t => (t.joinedCount ⟨7⟩ ⟨1⟩, t.leftCount ⟨7⟩ ⟨1⟩, t.isMember ⟨7⟩ ⟨1⟩)) = some (2, 0, true) := by decide +kernel
  obtain ⟨t, hrun, hcounts⟩ := Option.map_eq_some_iff.mp hreached
  have hdifference := hmirrors _ _ t hrun ⟨7⟩ ⟨1⟩
  simp only [Prod.mk.injEq] at hcounts
  rw [hcounts.1, hcounts.2.1, hcounts.2.2] at hdifference
  exact absurd hdifference (by decide)

end Recorded

end LongshipX.Sequential
