import LongshipX.Domain.Room
import LongshipX.Lib.AssocMap
import LongshipX.Lib.Text

/-!
# The room actor

`RoomActor` owns a room and the sinks of its members and handles one command at a time. A handler
returns the actor after it and its effects in the order in which it performs them: replies, and
broadcasts with the sinks they go to.

* `handleJoin`, `handleChat`, `handleLeave`, `finish`, `handle` : `actor.rs`;
* `Handled` : everything one command can do to an open actor (`handle_handled`);
* `Inv` : the representation invariant, kept by every command (`Handled.inv`);
* `process` : the command loop, with `process_inv` over every command sequence.
-/

namespace LongshipX

/-- A room event channel with its failure flag, by name. -/
abbrev SinkId := Nat

/-- `MAX_CHAT_CHARS`. -/
def maxChatChars : Nat := 512

/-- `RoomCommand`, over the type `ρ` of reply channels. -/
inductive RoomCommand (ρ : Type) where
  | join (player : PlayerId) (nickname : String) (sink : SinkId) (reply : ρ)
  | chat (player : PlayerId) (text : String)
  | leave (player : PlayerId) (reason : String) (reply : ρ)
  | close (reason : String)
  deriving DecidableEq, Repr

inductive RoomEvent where
  | memberJoined (room : RoomId) (player : PlayerId) (nickname : String)
  | memberLeft (room : RoomId) (player : PlayerId)
  | chat (room : RoomId) (sender : PlayerId) (nickname : String) (text : String)
  | closed (room : RoomId) (reason : String)
  deriving DecidableEq, Repr

/-- What a handler does besides changing the actor. -/
inductive Effect (ρ : Type) where
  | replyJoin (reply : ρ) (outcome : Except AppError Unit)
  | replyLeave (reply : ρ) (outcome : Except AppError Bool)
  | broadcast (targets : List SinkId) (event : RoomEvent)

structure Member where
  nickname : String
  sink : SinkId
  deriving DecidableEq, Repr

/-- `RoomActor`, with the value of its `closed` watch channel. -/
structure RoomActor where
  room : Room
  members : AList (fun _ : PlayerId => Member)
  hadMembers : Bool
  closed : Bool

namespace RoomActor

variable {ρ : Type}

/-- The actor that `RoomActor::spawn` starts. -/
def spawn (room : Room) : RoomActor := ⟨room, ∅, false, false⟩

/-- The sinks a broadcast goes to. -/
def sinks (a : RoomActor) : List SinkId := a.members.entries.map (fun e => e.2.sink)

def broadcast (a : RoomActor) (event : RoomEvent) : Effect ρ := .broadcast a.sinks event

/-- `finish`: close the room, once, and raise the closed flag. -/
def finish (a : RoomActor) (reason : String) : RoomActor × List (Effect ρ) :=
  match a.room.close with
  | (true, room) =>
    let a := { a with room := room }
    ({ a with closed := true }, [a.broadcast (.closed room.id reason)])
  | (false, room) => ({ a with room := room, closed := true }, [])

/-- The test after which the actor ends: there were members and none is left. -/
def emptied (a : RoomActor) : Bool := a.hadMembers && a.room.memberCount == 0

/-- `handle_join`: the reply goes out before the broadcast. -/
def handleJoin (a : RoomActor) (player : PlayerId) (nickname : String) (sink : SinkId) (reply : ρ) :
    RoomActor × List (Effect ρ) :=
  match a.room.tryJoin player with
  | (.ok true, room) =>
    let a : RoomActor :=
      { a with room := room, members := a.members.insert player ⟨nickname, sink⟩, hadMembers := true }
    (a, [.replyJoin reply (.ok ()), a.broadcast (.memberJoined room.id player nickname)])
  | (.ok false, room) => ({ a with room := room }, [.replyJoin reply (.ok ())])
  | (.error err, room) => ({ a with room := room }, [.replyJoin reply (.error (.ofDomain err))])

/-- `handle_chat`. -/
def handleChat (a : RoomActor) (player : PlayerId) (text : String) : List (Effect ρ) :=
  match a.members.lookup player with
  | none => []
  | some member =>
    let trimmed := Text.trim text
    if trimmed.isEmpty || decide (trimmed.length > maxChatChars) then []
    else [a.broadcast (.chat a.room.id player member.nickname trimmed)]

/-- `handle_leave`: the leaver's entry goes last, so that it still receives `MemberLeft` and `Closed`. -/
def handleLeave (a : RoomActor) (player : PlayerId) : Except AppError Bool × RoomActor × List (Effect ρ) :=
  match a.room.tryLeave player with
  | (.ok true, room) =>
    let a : RoomActor := { a with room := room }
    let left := a.broadcast (.memberLeft room.id player)
    let (a, finished) :=
      if a.emptied then a.finish "最后一名成员已离开" else (a, [])
    (.ok true, { a with members := a.members.erase player }, left :: finished)
  | (.ok false, room) => (.ok false, { a with room := room }, [])
  | (.error err, room) => (.error (.ofDomain err), { a with room := room }, [])

/-- `handle`: the flag says whether the actor stops. -/
def handle (a : RoomActor) (command : RoomCommand ρ) : RoomActor × List (Effect ρ) × Bool :=
  match command with
  | .join player nickname sink reply =>
    let (a, effects) := a.handleJoin player nickname sink reply
    (a, effects, a.emptied)
  | .chat player text => (a, a.handleChat player text, a.emptied)
  | .leave player _ reply =>
    let (outcome, a, effects) := a.handleLeave player
    (a, effects ++ [.replyLeave reply outcome], a.emptied)
  | .close reason =>
    let (a, effects) := a.finish reason
    (a, effects, true)

/-! ## The representation invariant -/

/-- What holds of an actor between two commands: the sink map and the aggregate agree, the room keeps
its capacity, and the closed flag tells the truth. -/
structure Inv (a : RoomActor) : Prop where
  keys : ∀ p, p ∈ a.members ↔ p ∈ a.room.members
  nodup : a.room.members.Nodup
  bound : a.room.members.length ≤ a.room.maxPlayers
  place : 0 < a.room.maxPlayers
  flag : a.closed = a.room.isClosed
  had : a.closed = false → (a.hadMembers = true ↔ a.room.members ≠ [])

theorem spawn_inv (id : RoomId) (maxPlayers : Nat) : (spawn (Room.open id maxPlayers)).Inv where
  keys p := by simp [spawn, Room.open]
  nodup := List.nodup_nil
  bound := Nat.zero_le _
  place := by
    show 0 < max maxPlayers 1
    omega
  flag := rfl
  had _ := by simp [spawn, Room.open]

theorem Inv.isClosed {a : RoomActor} (h : a.Inv) (hopen : a.closed = false) : a.room.isClosed = false := by
  rw [← h.flag]
  exact hopen

theorem Inv.keeps_running {a : RoomActor} (h : a.Inv) (hopen : a.closed = false) : a.emptied = false := by
  unfold emptied
  cases hhad : a.hadMembers with
  | false => rfl
  | true =>
      have hne := (h.had hopen).mp hhad
      simpa [Room.memberCount] using hne

theorem filter_ne_eq_nil_iff {members : List PlayerId} (hnodup : members.Nodup) {p : PlayerId} (hmem : p ∈ members) :
    members.filter (fun member => decide (member ≠ p)) = [] ↔ members = [p] := by
  constructor
  · intro hnil
    have hall : ∀ member ∈ members, member = p := by
      intro member hmember
      simpa using List.filter_eq_nil_iff.mp hnil member hmember
    obtain ⟨n, hn⟩ : ∃ n, members = List.replicate n p := ⟨members.length, List.eq_replicate_of_mem hall⟩
    subst hn
    have hle : n ≤ 1 := by
      simpa using List.nodup_replicate.mp hnodup
    obtain rfl : n = 1 := by
      cases n with
      | zero => simp at hmem
      | succ n => omega
    rfl
  · rintro rfl
    simp

/-! ## What one command does -/

section
variable (a : RoomActor)

/-- The actor after a new member joined. -/
def joined (p : PlayerId) (member : Member) : RoomActor :=
  { a with room := { a.room with members := a.room.members ++ [p] },
           members := a.members.insert p member,
           hadMembers := true }

/-- The actor after a member left. -/
def left (p : PlayerId) : RoomActor :=
  { a with room := { a.room with members := a.room.members.filter (fun member => decide (member ≠ p)) },
           members := a.members.erase p }

/-- The actor after its room was closed. -/
def shut : RoomActor := { a with room := { a.room with state := .closed }, closed := true }

end

/-- **Everything one command does to an open actor**: the command, the actor after it, the effects, and
whether the actor stops. -/
inductive Handled (a : RoomActor) : RoomCommand ρ → RoomActor → List (Effect ρ) → Bool → Prop where
  | joinNew (p : PlayerId) (nickname : String) (sink : SinkId) (reply : ρ) (hmem : p ∉ a.room.members)
      (hplace : a.room.members.length < a.room.maxPlayers) :
      Handled a (.join p nickname sink reply) (a.joined p ⟨nickname, sink⟩)
        [.replyJoin reply (.ok ()),
          .broadcast (a.joined p ⟨nickname, sink⟩).sinks (.memberJoined a.room.id p nickname)] false
  | joinAgain (p : PlayerId) (nickname : String) (sink : SinkId) (reply : ρ) (hmem : p ∈ a.room.members) :
      Handled a (.join p nickname sink reply) a [.replyJoin reply (.ok ())] false
  | joinFull (p : PlayerId) (nickname : String) (sink : SinkId) (reply : ρ) (hmem : p ∉ a.room.members)
      (hfull : a.room.maxPlayers ≤ a.room.members.length) :
      Handled a (.join p nickname sink reply) a
        [.replyJoin reply (.error (.ofDomain (.roomFull a.room.id)))] false
  | chatIgnored (p : PlayerId) (text : String) : Handled a (.chat p text) a [] false
  | chatSent (p : PlayerId) (text nickname trimmed : String) (hmem : p ∈ a.room.members) :
      Handled a (.chat p text) a [.broadcast a.sinks (.chat a.room.id p nickname trimmed)] false
  | leaveOutsider (p : PlayerId) (reason : String) (reply : ρ) (hmem : p ∉ a.room.members) :
      Handled a (.leave p reason reply) a [.replyLeave reply (.ok false)] false
  | leaveOthers (p : PlayerId) (reason : String) (reply : ρ) (hmem : p ∈ a.room.members)
      (hothers : a.room.members ≠ [p]) :
      Handled a (.leave p reason reply) (a.left p)
        [.broadcast a.sinks (.memberLeft a.room.id p), .replyLeave reply (.ok true)] false
  | leaveLast (p : PlayerId) (reason : String) (reply : ρ) (hlast : a.room.members = [p]) :
      Handled a (.leave p reason reply) (a.left p).shut
        [.broadcast a.sinks (.memberLeft a.room.id p), .broadcast a.sinks (.closed a.room.id "最后一名成员已离开"),
          .replyLeave reply (.ok true)] true
  | close (reason : String) :
      Handled a (.close reason) a.shut [.broadcast a.sinks (.closed a.room.id reason)] true

theorem finish_open {a : RoomActor} (h : a.room.isClosed = false) (reason : String) :
    a.finish (ρ := ρ) reason = (a.shut, [.broadcast a.sinks (.closed a.room.id reason)]) := by
  unfold finish
  rw [Room.close_open h]
  rfl

theorem finish_closed {a : RoomActor} (h : a.room.isClosed = true) (hflag : a.closed = true) (reason : String) :
    a.finish (ρ := ρ) reason = (a, []) := by
  unfold finish
  rw [Room.close_closed h]
  dsimp only
  rw [← hflag]

theorem Inv.left_inv {a : RoomActor} (h : a.Inv) {p : PlayerId} (hmem : p ∈ a.room.members)
    (hothers : a.room.members ≠ [p]) : (a.left p).Inv where
  keys q := by
    show q ∈ a.members.erase p ↔ q ∈ a.room.members.filter _
    rw [AList.mem_erase, List.mem_filter, h.keys q, decide_eq_true_eq]
    exact and_comm
  nodup := h.nodup.filter _
  bound := Nat.le_trans (List.length_filter_le _ _) h.bound
  place := h.place
  flag := h.flag
  had hopen := by
    have hne : a.room.members.filter (fun member => decide (member ≠ p)) ≠ [] := fun hnil =>
      hothers ((filter_ne_eq_nil_iff h.nodup hmem).mp hnil)
    have hhad := (h.had hopen).mpr (List.ne_nil_of_mem hmem)
    exact iff_of_true hhad hne

/-- **One command, any command**: what `handle` returns on an open actor. -/
theorem handle_handled {a : RoomActor} (h : a.Inv) (hopen : a.closed = false) (command : RoomCommand ρ) :
    Handled a command (a.handle command).1 (a.handle command).2.1 (a.handle command).2.2 := by
  have hroom := h.isClosed hopen
  have hrun := h.keeps_running hopen
  cases command with
  | join p nickname sink reply =>
      by_cases hmem : p ∈ a.room.members
      · have hcall : a.handle (.join p nickname sink reply) = (a, [.replyJoin reply (.ok ())], false) := by
          simp only [handle, handleJoin, Room.tryJoin_member hroom hmem, hrun]
        rw [hcall]
        exact .joinAgain p nickname sink reply hmem
      · by_cases hplace : a.room.members.length < a.room.maxPlayers
        · have hcall : a.handle (.join p nickname sink reply) = (a.joined p ⟨nickname, sink⟩,
              [.replyJoin reply (.ok ()),
                .broadcast (a.joined p ⟨nickname, sink⟩).sinks (.memberJoined a.room.id p nickname)], false) := by
            simp only [handle, handleJoin, Room.tryJoin_new hroom hmem hplace]
            simp [joined, broadcast, emptied, Room.memberCount]
          rw [hcall]
          exact .joinNew p nickname sink reply hmem hplace
        · have hfull : a.room.maxPlayers ≤ a.room.members.length := by omega
          have hcall : a.handle (.join p nickname sink reply) =
              (a, [.replyJoin reply (.error (.ofDomain (.roomFull a.room.id)))], false) := by
            simp only [handle, handleJoin, Room.tryJoin_full hroom hmem hfull, hrun]
          rw [hcall]
          exact .joinFull p nickname sink reply hmem hfull
  | chat p text =>
      simp only [handle, hrun, handleChat]
      cases hlookup : a.members.lookup p with
      | none => exact .chatIgnored p text
      | some member =>
          dsimp only
          split_ifs
          · exact .chatIgnored p text
          · have hmem : p ∈ a.members := AList.lookup_isSome.mp (by rw [hlookup]; rfl)
            exact .chatSent p text _ _ ((h.keys p).mp hmem)
  | leave p reason reply =>
      by_cases hmem : p ∈ a.room.members
      · by_cases hothers : a.room.members = [p]
        · have hnil := (filter_ne_eq_nil_iff h.nodup hmem).mpr hothers
          have hhad := (h.had hopen).mpr (List.ne_nil_of_mem hmem)
          have hcall : a.handle (.leave p reason reply) = ((a.left p).shut,
              [.broadcast a.sinks (.memberLeft a.room.id p),
                .broadcast a.sinks (.closed a.room.id "最后一名成员已离开"), .replyLeave reply (.ok true)], true) := by
            have hemptied : (a.left p).emptied = true := by
              simp [emptied, left, hhad, hothers, Room.memberCount]
            have htest : ({ a with room := (a.left p).room } : RoomActor).emptied = true := hemptied
            have hfinish := finish_open (ρ := ρ) (a := { a with room := (a.left p).room }) hroom "最后一名成员已离开"
            simp only [handle, handleLeave, Room.tryLeave_member hroom hmem]
            simp only [left] at htest hfinish
            rw [if_pos htest, hfinish]
            exact congrArg _ (congrArg _ hemptied)
          rw [hcall]
          exact .leaveLast p reason reply hothers
        · have hrun' := (h.left_inv hmem hothers).keeps_running hopen
          have hcall : a.handle (.leave p reason reply) = (a.left p,
              [.broadcast a.sinks (.memberLeft a.room.id p), .replyLeave reply (.ok true)], false) := by
            have htest : ({ a with room := (a.left p).room } : RoomActor).emptied = false := hrun'
            simp only [handle, handleLeave, Room.tryLeave_member hroom hmem]
            simp only [left] at htest
            rw [if_neg (by rw [htest]; decide)]
            exact congrArg _ (congrArg _ hrun')
          rw [hcall]
          exact .leaveOthers p reason reply hmem hothers
      · have hcall : a.handle (.leave p reason reply) = (a, [.replyLeave reply (.ok false)], false) := by
          simp only [handle, handleLeave, Room.tryLeave_outsider hroom hmem, hrun, List.nil_append]
        rw [hcall]
        exact .leaveOutsider p reason reply hmem
  | close reason =>
      simp only [handle, finish_open hroom]
      exact .close reason

theorem Inv.joined_inv {a : RoomActor} (h : a.Inv) {p : PlayerId} (hmem : p ∉ a.room.members)
    (hplace : a.room.members.length < a.room.maxPlayers) (member : Member) : (a.joined p member).Inv where
  keys q := by
    show q ∈ a.members.insert p member ↔ q ∈ a.room.members ++ [p]
    rw [AList.mem_insert, List.mem_append, List.mem_singleton, h.keys q]
    exact or_comm
  nodup := by
    show (a.room.members ++ [p]).Nodup
    rw [List.nodup_append]
    refine ⟨h.nodup, List.nodup_singleton p, fun q hq r hr he => hmem ?_⟩
    rw [← List.mem_singleton.mp hr, ← he]
    exact hq
  bound := by
    show (a.room.members ++ [p]).length ≤ a.room.maxPlayers
    rw [List.length_append, List.length_singleton]
    omega
  place := h.place
  flag := h.flag
  had _ := iff_of_true rfl (by simp [joined])

theorem shut_inv {a : RoomActor} (keys : ∀ p, p ∈ a.members ↔ p ∈ a.room.members) (nodup : a.room.members.Nodup)
    (bound : a.room.members.length ≤ a.room.maxPlayers) (place : 0 < a.room.maxPlayers) : a.shut.Inv where
  keys := keys
  nodup := nodup
  bound := bound
  place := place
  flag := rfl
  had hopen := by cases hopen

theorem Inv.left_shut_inv {a : RoomActor} (h : a.Inv) (p : PlayerId) : (a.left p).shut.Inv := by
  refine shut_inv (fun q => ?_) (h.nodup.filter _) (Nat.le_trans (List.length_filter_le _ _) h.bound) h.place
  show q ∈ a.members.erase p ↔ q ∈ a.room.members.filter _
  rw [AList.mem_erase, List.mem_filter, h.keys q, decide_eq_true_eq]
  exact and_comm

/-- What every command keeps: the invariant, the room's id and capacity; and the actor stops exactly when
its room closed. -/
theorem Handled.inv {a a' : RoomActor} {command : RoomCommand ρ} {effects : List (Effect ρ)} {stop : Bool}
    (hh : Handled a command a' effects stop) (h : a.Inv) (hopen : a.closed = false) :
    a'.Inv ∧ a'.closed = stop ∧ a'.room.id = a.room.id ∧ a'.room.maxPlayers = a.room.maxPlayers := by
  cases hh with
  | joinNew p nickname sink reply hmem hplace => exact ⟨h.joined_inv hmem hplace _, hopen, rfl, rfl⟩
  | leaveOthers p reason reply hmem hothers => exact ⟨h.left_inv hmem hothers, hopen, rfl, rfl⟩
  | leaveLast p reason reply hlast => exact ⟨h.left_shut_inv p, rfl, rfl, rfl⟩
  | close reason => exact ⟨shut_inv h.keys h.nodup h.bound h.place, rfl, rfl, rfl⟩
  | joinAgain | joinFull | chatIgnored | chatSent | leaveOutsider => exact ⟨h, hopen, rfl, rfl⟩

theorem Handled.had {a a' : RoomActor} {command : RoomCommand ρ} {effects : List (Effect ρ)} {stop : Bool}
    (hh : Handled a command a' effects stop) : a.hadMembers = true → a'.hadMembers = true := by
  intro h
  cases hh with
  | joinNew => rfl
  | joinAgain | joinFull | chatIgnored | chatSent | leaveOutsider | leaveOthers | leaveLast | close => exact h

theorem Handled.had_of_join {a a' : RoomActor} {p : PlayerId} {nickname : String} {sink : SinkId} {k : ρ}
    {effects : List (Effect ρ)} {stop : Bool} (hh : Handled a (.join p nickname sink k) a' effects stop)
    (hinv : a.Inv) (hopen : a.closed = false) : a'.hadMembers = true := by
  cases hh with
  | joinNew => rfl
  | joinAgain _ _ _ _ hmem => exact (hinv.had hopen).mpr (List.ne_nil_of_mem hmem)
  | joinFull _ _ _ _ hmem hfull =>
      apply (hinv.had hopen).mpr
      have hplace := hinv.place
      intro hnil
      rw [hnil, List.length_nil] at hfull
      omega

theorem Handled.had_back {a a' : RoomActor} {command : RoomCommand ρ} {effects : List (Effect ρ)}
    {stop : Bool} (hh : Handled a command a' effects stop) (h : a'.hadMembers = true) :
    a.hadMembers = true ∨ ∃ p nickname sink reply, command = .join p nickname sink reply := by
  cases hh with
  | joinNew p nickname sink reply => exact Or.inr ⟨p, nickname, sink, reply, rfl⟩
  | joinAgain | joinFull | chatIgnored | chatSent | leaveOutsider | leaveOthers | leaveLast | close => exact Or.inl h

/-! ## The command loop -/

/-- How far the loop of `run` has come: the actor, its effects so far, and whether it stopped. -/
structure Progress (ρ : Type) where
  actor : RoomActor
  effects : List (Effect ρ)
  stopped : Bool

/-- The next command of the loop; once stopped, the actor takes none. -/
def Progress.feed (p : Progress ρ) (command : RoomCommand ρ) : Progress ρ :=
  if p.stopped then p
  else
    let (a, effects, stop) := p.actor.handle command
    ⟨a, p.effects ++ effects, stop⟩

def process (a : RoomActor) (commands : List (RoomCommand ρ)) : Progress ρ :=
  commands.foldl Progress.feed ⟨a, [], false⟩

/-- Where an actor spawned on a new room is after these commands. -/
def reached (id : RoomId) (maxPlayers : Nat) (commands : List (RoomCommand ρ)) : Progress ρ :=
  process (spawn (Room.open id maxPlayers)) commands

theorem process_concat (a : RoomActor) (commands : List (RoomCommand ρ)) (command : RoomCommand ρ) :
    process a (commands ++ [command]) = (process a commands).feed command := by
  simp only [process, List.foldl_append, List.foldl_cons, List.foldl_nil]

theorem Progress.feed_stopped {p : Progress ρ} (h : p.stopped = true) (command : RoomCommand ρ) :
    p.feed command = p := if_pos h

theorem Progress.feed_running {p : Progress ρ} (h : p.stopped = false) (command : RoomCommand ρ) :
    p.feed command = ⟨(p.actor.handle command).1, p.effects ++ (p.actor.handle command).2.1,
      (p.actor.handle command).2.2⟩ := if_neg (by rw [h]; decide)

theorem reached_inv (id : RoomId) (maxPlayers : Nat) (commands : List (RoomCommand ρ)) :
    (reached id maxPlayers commands).actor.Inv ∧
      (reached id maxPlayers commands).actor.closed = (reached id maxPlayers commands).stopped ∧
      (reached id maxPlayers commands).actor.room.id = id ∧
      (reached id maxPlayers commands).actor.room.maxPlayers = max maxPlayers 1 := by
  induction commands using List.reverseRecOn with
  | nil => exact ⟨spawn_inv id maxPlayers, rfl, rfl, rfl⟩
  | append_singleton commands command ih =>
      obtain ⟨hinv, hflag, hid, hmax⟩ := ih
      unfold reached at hinv hflag hid hmax ⊢
      rw [process_concat]
      cases hstop : (process (spawn (Room.open id maxPlayers)) commands).stopped with
      | true =>
          rw [Progress.feed_stopped hstop]
          exact ⟨hinv, hflag, hid, hmax⟩
      | false =>
          rw [Progress.feed_running hstop]
          obtain ⟨hinv', hflag', hid', hmax'⟩ :=
            (handle_handled hinv (hflag.trans hstop) command).inv hinv (hflag.trans hstop)
          exact ⟨hinv', hflag', hid'.trans hid, hmax'.trans hmax⟩

theorem Handled.stop_iff {a a' : RoomActor} {command : RoomCommand ρ} {effects : List (Effect ρ)} {stop : Bool}
    (hh : Handled a command a' effects stop) :
    stop = true ↔ (∃ reason, command = .close reason) ∨
      ∃ p reason reply, command = .leave p reason reply ∧ a.room.members.length = 1 ∧ a'.room.members.length = 0 := by
  cases hh with
  | leaveLast p reason reply hlast => simp [hlast, shut, left]
  | close reason => simp
  | leaveOthers p reason reply hmem hothers =>
      have hne : a.room.members.length = 1 → (a.left p).room.members.length ≠ 0 := by
        intro hone hzero
        obtain ⟨q, hq⟩ := List.length_eq_one_iff.mp hone
        rw [hq, List.mem_singleton] at hmem
        exact hothers (hmem ▸ hq)
      simpa using hne
  | leaveOutsider p reason reply hmem =>
      have hne : a.room.members.length = 1 → a.room.members.length ≠ 0 := by omega
      simpa using hne
  | joinNew | joinAgain | joinFull | chatIgnored | chatSent => simp

theorem Handled.join_answer {a a' : RoomActor} {p : PlayerId} {nickname : String} {sink : SinkId} {reply : ρ}
    {effects : List (Effect ρ)} {stop : Bool} (hh : Handled a (.join p nickname sink reply) a' effects stop) :
    ∃ outcome rest, effects = .replyJoin reply outcome :: rest ∧
      (outcome = .ok () ↔ p ∈ a.room.members ∨ a.room.members.length < a.room.maxPlayers) ∧
      (outcome ≠ .ok () → a' = a) := by
  cases hh with
  | joinNew _ _ _ _ hmem hplace =>
      exact ⟨_, _, rfl, iff_of_true rfl (Or.inr hplace), fun h => absurd rfl h⟩
  | joinAgain _ _ _ _ hmem => exact ⟨_, _, rfl, iff_of_true rfl (Or.inl hmem), fun h => absurd rfl h⟩
  | joinFull _ _ _ _ hmem hfull =>
      have hno : ¬ (p ∈ a.room.members ∨ a.room.members.length < a.room.maxPlayers) := by
        rintro (h | h)
        · exact hmem h
        · omega
      exact ⟨_, _, rfl, iff_of_false (by simp) hno, fun _ => rfl⟩

/-- **The representation invariant and termination of the room actor**, after every sequence of commands
and for every next one. -/
theorem actor_representation (id : RoomId) (maxPlayers : Nat) (commands : List (RoomCommand ρ)) :
    (∀ p, p ∈ (reached id maxPlayers commands).actor.members.keys ↔
      p ∈ (reached id maxPlayers commands).actor.room.members) ∧
    (reached id maxPlayers commands).actor.room.members.Nodup ∧
    (reached id maxPlayers commands).actor.room.members.length ≤ max maxPlayers 1 ∧
    ((reached id maxPlayers commands).actor.closed = true ↔
      (reached id maxPlayers commands).actor.room.state = .closed) ∧
    ((reached id maxPlayers commands).stopped = true ↔
      (reached id maxPlayers commands).actor.room.state = .closed) ∧
    ((reached id maxPlayers commands).stopped = false → ∀ (command : RoomCommand ρ) (a a' : RoomActor)
      (effects : List (Effect ρ)) (stop : Bool), a = (reached id maxPlayers commands).actor →
      a.handle command = (a', effects, stop) →
      (∀ p nickname sink reply, command = .join p nickname sink reply →
        ∃ outcome rest, effects = .replyJoin reply outcome :: rest ∧
          (outcome = .ok () ↔ p ∈ a.room.members ∨ a.room.members.length < max maxPlayers 1) ∧
          (outcome ≠ .ok () → a'.room = a.room ∧ a'.members = a.members)) ∧
      (stop = true ↔ (∃ reason, command = .close reason) ∨
        ∃ p reason reply, command = .leave p reason reply ∧
          a.room.members.length = 1 ∧ a'.room.members.length = 0) ∧
      (stop = true → a'.room.state = .closed ∧ a'.closed = true) ∧
      (∀ p r, (a.room.tryJoin p).1 ≠ .error (.roomClosed r) ∧ (a.room.tryLeave p).1 ≠ .error (.roomClosed r))) := by
  obtain ⟨hinv, hflag, -, hmax⟩ := reached_inv id maxPlayers commands
  have hclosed : (reached id maxPlayers commands).actor.closed = true ↔
      (reached id maxPlayers commands).actor.room.state = .closed := by
    rw [hinv.flag, Room.isClosed_iff]
  refine ⟨fun p => ?_, hinv.nodup, hmax ▸ hinv.bound, hclosed, hflag ▸ hclosed, ?_⟩
  · rw [← AList.mem_keys]
    exact hinv.keys p
  · rintro hrunning command a a' effects stop rfl hcall
    have hopen := hflag.trans hrunning
    have hh := handle_handled hinv hopen command
    rw [hcall] at hh
    dsimp only at hh
    obtain ⟨hinv', hstop, -⟩ := hh.inv hinv hopen
    refine ⟨?_, hh.stop_iff, fun hs => ?_, fun p r => ?_⟩
    · rintro p nickname sink reply rfl
      obtain ⟨outcome, rest, heffects, hok, hsame⟩ := hh.join_answer
      rw [hmax] at hok
      exact ⟨outcome, rest, heffects, hok, fun hne => by rw [hsame hne]; exact ⟨rfl, rfl⟩⟩
    · have hclosed' : a'.closed = true := hstop.trans hs
      exact ⟨Room.isClosed_iff.mp (hinv'.flag ▸ hclosed'), hclosed'⟩
    · have hroom := hinv.isClosed hopen
      constructor
      · unfold Room.tryJoin
        rw [if_neg (by rw [hroom]; decide)]
        split_ifs <;> simp
      · unfold Room.tryLeave
        rw [if_neg (by rw [hroom]; decide)]
        simp

end RoomActor

end LongshipX
