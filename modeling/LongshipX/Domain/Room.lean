import LongshipX.Domain.Types

/-!
# The room aggregate

`Room` holds the members in joining order, the capacity and the life-cycle state; every rule answers
with the aggregate after it.
-/

namespace LongshipX

inductive RoomState where
  | waiting
  | inProgress
  | settling
  | closed
  deriving DecidableEq, Repr

structure Room where
  id : RoomId
  members : List PlayerId
  maxPlayers : Nat
  state : RoomState
  deriving DecidableEq, Repr

namespace Room

/-- `Room::open`; the id is what `Uuid::now_v7` drew. -/
def «open» (id : RoomId) (maxPlayers : Nat) : Room := ⟨id, [], max maxPlayers 1, .waiting⟩

def memberCount (room : Room) : Nat := room.members.length

def isFull (room : Room) : Bool := decide (room.memberCount ≥ room.maxPlayers)

def isClosed (room : Room) : Bool := decide (room.state = .closed)

/-- `try_join`: `true` for a new member, `false` for one that is in already. -/
def tryJoin (room : Room) (player : PlayerId) : Except DomainError Bool × Room :=
  if room.isClosed then (.error (.roomClosed room.id), room)
  else if room.members.contains player then (.ok false, room)
  else if room.isFull then (.error (.roomFull room.id), room)
  else (.ok true, { room with members := room.members ++ [player] })

/-- `try_leave`: whether the player was a member. -/
def tryLeave (room : Room) (player : PlayerId) : Except DomainError Bool × Room :=
  if room.isClosed then (.error (.roomClosed room.id), room)
  else
    let before := room.members.length
    let members := room.members.filter (fun member => decide (member ≠ player))
    (.ok (decide (members.length ≠ before)), { room with members := members })

/-- `close`: `false` when the room was closed already. -/
def close (room : Room) : Bool × Room :=
  if room.isClosed then (false, room) else (true, { room with state := .closed })

variable {room : Room} {player : PlayerId}

@[simp] theorem isClosed_iff : room.isClosed = true ↔ room.state = .closed := decide_eq_true_iff

theorem tryJoin_member (hopen : room.isClosed = false) (hmem : player ∈ room.members) :
    room.tryJoin player = (.ok false, room) := by
  rw [tryJoin, if_neg (by simp [hopen]), if_pos (by simpa using hmem)]

theorem tryJoin_full (hopen : room.isClosed = false) (hmem : player ∉ room.members)
    (hfull : room.maxPlayers ≤ room.members.length) :
    room.tryJoin player = (.error (.roomFull room.id), room) := by
  have hfull' : room.isFull = true := decide_eq_true hfull
  rw [tryJoin, if_neg (by simp [hopen]), if_neg (by simpa using hmem), if_pos hfull']

theorem tryJoin_new (hopen : room.isClosed = false) (hmem : player ∉ room.members)
    (hplace : room.members.length < room.maxPlayers) :
    room.tryJoin player = (.ok true, { room with members := room.members ++ [player] }) := by
  have hfull' : room.isFull = false := decide_eq_false (Nat.not_le.mpr hplace)
  rw [tryJoin, if_neg (by simp [hopen]), if_neg (by simpa using hmem), if_neg (by simp [hfull'])]

theorem filter_ne_of_notMem {members : List PlayerId} (hmem : player ∉ members) :
    members.filter (fun member => decide (member ≠ player)) = members := by
  rw [List.filter_eq_self]
  intro member hmember
  exact decide_eq_true (fun he => hmem (he ▸ hmember))

theorem tryLeave_outsider (hopen : room.isClosed = false) (hmem : player ∉ room.members) :
    room.tryLeave player = (.ok false, room) := by
  rw [tryLeave, if_neg (by simp [hopen])]
  simp only [filter_ne_of_notMem hmem, ne_eq, not_true_eq_false, decide_false]

theorem tryLeave_member (hopen : room.isClosed = false) (hmem : player ∈ room.members) :
    room.tryLeave player =
      (.ok true, { room with members := room.members.filter (fun member => decide (member ≠ player)) }) := by
  have hlt : (room.members.filter (fun member => decide (member ≠ player))).length < room.members.length :=
    List.length_filter_lt_length_iff_exists.mpr ⟨player, hmem, by simp⟩
  rw [tryLeave, if_neg (by simp [hopen])]
  simp only [decide_eq_true (Nat.ne_of_lt hlt)]

theorem close_open (hopen : room.isClosed = false) : room.close = (true, { room with state := .closed }) := by
  rw [close, if_neg (by simp [hopen])]

theorem close_closed (hclosed : room.isClosed = true) : room.close = (false, room) := by
  rw [close, if_pos hclosed]

end Room

end LongshipX
