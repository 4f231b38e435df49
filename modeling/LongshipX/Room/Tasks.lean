import LongshipX.Room.Service

/-!
# What a room's task keeps, and what stays true of it

Most of what a call relies on, once true of a room, stays true: the room is closed, its receiver is gone, it
had a member, this command was handled. `RoomTask.Grows` collects these facts; every step of the service
makes tasks grow. `RoomInv` is the invariant of one task by itself.

* `Handled.had`, `Handled.members_of_had` : what a command does to `had_members`;
* `RoomInv.push`, `RoomInv.process`, `RoomInv.hangup`, `RoomInv.terminate` : the steps keep `RoomInv`;
* `RoomTask.grows_push`, `RoomTask.grows_process`, ... : and make the task grow.
-/

namespace LongshipX.Service
open RoomActor

/-! ## Facts that stay -/

/-- Somebody was in the room, or is about to enter it, or it is over. -/
def RoomTask.Alive (t : RoomTask) : Prop :=
  t.actor.closed = true ∨ t.actor.hadMembers = true ∨ ∃ command ∈ t.queue, (joinOf command).isSome

/-- The first `Join` queued for the room was not its creator's. -/
def RoomTask.Intruded (t : RoomTask) : Prop := ∃ k, t.firstJoin = some k ∧ k ≠ t.creator

/-- The actor handled the `Join` of call `k` and its player was in after that. -/
def RoomTask.JoinedBy (t : RoomTask) (k : CallId) : Prop :=
  ∃ h ∈ t.handled, ∃ p nickname sink, h.command = .join p nickname sink k ∧ p ∈ h.after.room.members

/-- The actor handled the `Leave` of call `k`. -/
def RoomTask.LeftBy (t : RoomTask) (k : CallId) : Prop :=
  ∃ h ∈ t.handled, ∃ p reason, h.command = .leave p reason k

/-- That `Leave` closed the room. -/
def RoomTask.EmptiedBy (t : RoomTask) (k : CallId) : Prop :=
  ∃ h ∈ t.handled, ∃ p reason, h.command = .leave p reason k ∧ h.after.closed = true

/-- A `Join` of call `k` was refused: the room had members, and if `k` created it, somebody came before it. -/
def RoomTask.Refused (t : RoomTask) (k : CallId) : Prop :=
  t.actor.hadMembers = true ∧ (k = t.creator → t.Intruded)

/-- The `Leave` of call `k` was handled, or will never be. -/
def RoomTask.Settled (t : RoomTask) (k : CallId) : Prop := t.LeftBy k ∨ t.receiver = false

/-- **How a task changes**: what is true of it for good. -/
structure RoomTask.Grows (t t' : RoomTask) : Prop where
  creator : t'.creator = t.creator
  inserted : t.inserted = true → t'.inserted = true
  closed : t.actor.closed = true → t'.actor.closed = true
  receiver : t.receiver = false → t'.receiver = false
  had : t.actor.hadMembers = true → t'.actor.hadMembers = true
  handled : ∀ h ∈ t.handled, h ∈ t'.handled
  firstJoin : ∀ k, t.firstJoin = some k → t'.firstJoin = some k
  alive : t.Alive → t'.Alive
  emptied : ∀ k, t.Settled k → t'.EmptiedBy k → t.EmptiedBy k

theorem RoomTask.Grows.refl (t : RoomTask) : t.Grows t :=
  ⟨rfl, id, id, id, id, fun _ h => h, fun _ h => h, id, fun _ _ h => h⟩

section
variable {t t' : RoomTask} {k : CallId}

theorem RoomTask.Grows.intruded (g : t.Grows t') : t.Intruded → t'.Intruded := by
  rintro ⟨k, hk, hne⟩
  exact ⟨k, g.firstJoin k hk, g.creator ▸ hne⟩

theorem RoomTask.Grows.joinedBy (g : t.Grows t') : t.JoinedBy k → t'.JoinedBy k := by
  rintro ⟨h, hmem, rest⟩
  exact ⟨h, g.handled h hmem, rest⟩

theorem RoomTask.Grows.leftBy (g : t.Grows t') : t.LeftBy k → t'.LeftBy k := by
  rintro ⟨h, hmem, rest⟩
  exact ⟨h, g.handled h hmem, rest⟩

theorem RoomTask.Grows.refused (g : t.Grows t') : t.Refused k → t'.Refused k := by
  rintro ⟨hhad, hcreator⟩
  exact ⟨g.had hhad, fun hk => g.intruded (hcreator (hk.trans g.creator))⟩

theorem RoomTask.Grows.settled (g : t.Grows t') : t.Settled k → t'.Settled k := by
  rintro (h | h)
  · exact Or.inl (g.leftBy h)
  · exact Or.inr (g.receiver h)

end

/-! ## The invariant of one task -/

/-- An effect that is still to be performed tells the truth about the room. -/
def RoomTask.Backs (t : RoomTask) : Effect CallId → Prop
  | .replyJoin k (.ok _) => t.JoinedBy k
  | .replyJoin k (.error _) => t.Refused k
  | .replyLeave k outcome => t.LeftBy k ∧ ∃ left, outcome = .ok left
  | .broadcast _ _ => True

theorem RoomTask.Grows.backs {t t' : RoomTask} (g : t.Grows t') {e : Effect CallId} (h : t.Backs e) : t'.Backs e := by
  cases e with
  | replyJoin k outcome =>
      cases outcome with
      | ok => exact g.joinedBy h
      | error => exact g.refused h
  | replyLeave k outcome => exact ⟨g.leftBy h.1, h.2⟩
  | broadcast => trivial

/-- The commands a room's queue ever took that were not dropped with it. -/
def RoomTask.accepted (t : RoomTask) : List (RoomCommand CallId) := t.handled.map Handling.command ++ t.queue

/-- The invariant of a room's task. -/
structure RoomInv (room : RoomId) (t : RoomTask) : Prop where
  actor : t.actor.Inv
  id : t.actor.room.id = room
  stopping : t.stopping = t.actor.closed
  dropped : t.receiver = false → t.actor.closed = true ∧ t.queue = [] ∧ t.outbox = []
  hidden : t.inserted = false → t.queue = [] ∧ t.handled = []
  history : ∀ h ∈ t.handled, h.before.Inv ∧ h.before.closed = false ∧ h.after = (h.before.handle h.command).1
  closedBy : ∀ h ∈ t.handled, h.after.closed = true → t.actor.closed = true
  joined : t.actor.hadMembers = true ↔ ∃ h ∈ t.handled, (joinOf h.command).isSome
  firstJoin : t.receiver = true → (t.accepted.filterMap joinOf).head? = t.firstJoin
  asked : (t.accepted.filterMap replyOf).Nodup
  backed : ∀ e ∈ t.outbox, t.Backs e

theorem RoomInv.spawn (config : RoomServiceConfig) (room : RoomId) (k : CallId) :
    RoomInv room (RoomTask.spawn config room k) where
  actor := spawn_inv room config.maxPlayers
  id := rfl
  stopping := rfl
  dropped h := absurd h (by simp [RoomTask.spawn])
  hidden _ := ⟨rfl, rfl⟩
  history _ h := absurd h List.not_mem_nil
  closedBy _ h := absurd h List.not_mem_nil
  joined := by simp [RoomTask.spawn, RoomActor.spawn]
  firstJoin _ := rfl
  asked := List.nodup_nil
  backed _ h := absurd h List.not_mem_nil

/-! ## A command is queued -/

theorem RoomTask.accepted_push (t : RoomTask) (command : RoomCommand CallId) :
    (t.push command).accepted = t.accepted ++ [command] := (List.append_assoc _ _ _).symm

theorem RoomTask.grows_push (t : RoomTask) (command : RoomCommand CallId) : t.Grows (t.push command) where
  creator := rfl
  inserted h := h
  closed h := h
  receiver h := h
  had h := h
  handled _ h := h
  firstJoin k h := by
    show t.firstJoin.or (joinOf command) = some k
    rw [h]
    rfl
  alive h := by
    obtain h | h | ⟨c, hc, hjoin⟩ := h
    · exact Or.inl h
    · exact Or.inr (Or.inl h)
    · exact Or.inr (Or.inr ⟨c, List.mem_append_left _ hc, hjoin⟩)
  emptied _ _ h := h

theorem RoomInv.push {room : RoomId} {t : RoomTask} (h : RoomInv room t) (hreceiver : t.receiver = true)
    (hinserted : t.inserted = true) {command : RoomCommand CallId}
    (hfresh : ∀ k, replyOf command = some k → k ∉ t.accepted.filterMap replyOf) : RoomInv room (t.push command) where
  actor := h.actor
  id := h.id
  stopping := h.stopping
  dropped hr := absurd hr (by rw [show (t.push command).receiver = t.receiver from rfl, hreceiver]; decide)
  hidden hi := absurd hi (by rw [show (t.push command).inserted = t.inserted from rfl, hinserted]; decide)
  history := h.history
  closedBy := h.closedBy
  joined := h.joined
  firstJoin hr := by
    rw [RoomTask.accepted_push, List.filterMap_append, List.head?_append, h.firstJoin hr]
    show _ = t.firstJoin.or (joinOf command)
    cases hc : joinOf command with
    | none => simp [hc]
    | some k => simp [hc]
  asked := by
    rw [RoomTask.accepted_push, List.filterMap_append]
    cases hc : replyOf command with
    | none => simpa [hc] using h.asked
    | some k =>
        have hk := hfresh k hc
        refine List.nodup_append'.mpr ⟨h.asked, by simp [hc], ?_⟩
        intro j hj hj'
        obtain rfl : j = k := by simpa [hc] using hj'
        exact hk hj
  backed e he := (t.grows_push command).backs (h.backed e he)

/-! ## The actor handles a command -/

theorem RoomTask.idle_iff {t : RoomTask} :
    t.idle = true ↔ t.receiver = true ∧ t.stopping = false ∧ t.outbox = [] := by
  unfold RoomTask.idle
  rw [Bool.and_eq_true, Bool.and_eq_true, Bool.not_eq_true', List.isEmpty_iff, and_assoc]

theorem RoomInv.process_eq {room : RoomId} {t : RoomTask} (h : RoomInv room t) (hidle : t.idle = true)
    (command : RoomCommand CallId) (rest : List (RoomCommand CallId)) :
    ∃ a effects stop, Handled t.actor command a effects stop ∧
      t.process command rest = { t with actor := a, queue := rest, outbox := effects, stopping := stop,
                                        handled := t.handled ++ [⟨command, t.actor, a⟩] } := by
  obtain ⟨-, hstopping, -⟩ := RoomTask.idle_iff.mp hidle
  exact ⟨_, _, _, handle_handled h.actor (h.stopping ▸ hstopping) command, rfl⟩

theorem RoomTask.accepted_process {t : RoomTask} {command : RoomCommand CallId} {rest : List (RoomCommand CallId)}
    (hqueue : t.queue = command :: rest) : (t.process command rest).accepted = t.accepted := by
  show (t.handled ++ [_]).map Handling.command ++ rest = t.handled.map Handling.command ++ t.queue
  rw [hqueue, List.map_append, List.append_assoc]
  rfl

theorem RoomInv.grows_process {room : RoomId} {t : RoomTask} (h : RoomInv room t) (hidle : t.idle = true)
    {command : RoomCommand CallId} {rest : List (RoomCommand CallId)} (hqueue : t.queue = command :: rest) :
    t.Grows (t.process command rest) := by
  obtain ⟨hreceiver, hstopping, -⟩ := RoomTask.idle_iff.mp hidle
  have hopen : t.actor.closed = false := h.stopping ▸ hstopping
  obtain ⟨a, effects, stop, hh, heq⟩ := h.process_eq hidle command rest
  rw [heq]
  refine ⟨rfl, fun hi => hi, fun hc => ?_, fun hr => hr, hh.had, fun _ hm => List.mem_append_left _ hm, fun _ hk => hk, ?_, ?_⟩
  · rw [hopen] at hc
    cases hc
  · intro halive
    obtain hc | hhad | ⟨c, hc, hjoin⟩ := halive
    · rw [hopen] at hc
      cases hc
    · exact Or.inr (Or.inl (hh.had hhad))
    · rw [hqueue] at hc
      obtain rfl | hc := List.mem_cons.mp hc
      · cases c with
        | join => exact Or.inr (Or.inl (hh.had_of_join h.actor hopen))
        | chat | leave | close => cases hjoin
      · exact Or.inr (Or.inr ⟨c, hc, hjoin⟩)
  · intro k hsettled hemptied
    obtain ⟨x, hx, p, reason, hcommand, hclosed⟩ := hemptied
    obtain hx | hx := List.mem_append.mp hx
    · exact ⟨x, hx, p, reason, hcommand, hclosed⟩
    · obtain rfl := List.mem_singleton.mp hx
      dsimp only at hcommand
      obtain ⟨y, hy, p', reason', hcommand'⟩ | hgone := hsettled
      · have hnodup := h.asked
        rw [RoomTask.accepted, hqueue, List.filterMap_append, hcommand] at hnodup
        refine absurd rfl ((List.nodup_append.mp hnodup).2.2 k ?_ k List.mem_cons_self)
        exact List.mem_filterMap.mpr ⟨_, List.mem_map_of_mem hy, by rw [hcommand']; rfl⟩
      · rw [hreceiver] at hgone
        cases hgone

/-- A refused `Join` of the creator means that somebody came before it: by the capacity the room has a
member, so an earlier `Join` was handled, and the creator sends only one. -/
theorem RoomInv.intruded_of_refused {room : RoomId} {t : RoomTask} (h : RoomInv room t) (hreceiver : t.receiver = true)
    (hhad : t.actor.hadMembers = true) {p : PlayerId} {nickname : String} {sink : SinkId} {k : CallId}
    {rest : List (RoomCommand CallId)} (hqueue : t.queue = .join p nickname sink k :: rest) (hk : k = t.creator) :
    t.Intruded := by
  obtain ⟨x, hx, hjoin⟩ := h.joined.mp hhad
  obtain ⟨j, hj⟩ := Option.isSome_iff_exists.mp hjoin
  have hfirst := h.firstJoin hreceiver
  rw [RoomTask.accepted, List.filterMap_append, List.head?_append] at hfirst
  have hmem : j ∈ (t.handled.map Handling.command).filterMap joinOf :=
    List.mem_filterMap.mpr ⟨_, List.mem_map_of_mem hx, hj⟩
  cases hhead : ((t.handled.map Handling.command).filterMap joinOf).head? with
  | none =>
      rw [List.head?_eq_none_iff] at hhead
      rw [hhead] at hmem
      cases hmem
  | some i =>
      rw [hhead, Option.some_or] at hfirst
      refine ⟨i, hfirst.symm, fun hi => ?_⟩
      obtain ⟨c, hc, hci⟩ := List.mem_filterMap.mp (List.mem_of_head? hhead)
      have hreply : replyOf c = some k := by
        cases c with
        | join => rw [hk, ← hi]; exact hci
        | chat | leave | close => cases hci
      have hnodup := h.asked
      rw [RoomTask.accepted, hqueue, List.filterMap_append] at hnodup
      exact (List.nodup_append.mp hnodup).2.2 k (List.mem_filterMap.mpr ⟨c, hc, hreply⟩) k List.mem_cons_self rfl

theorem RoomInv.backs_process {room : RoomId} {t : RoomTask} (h : RoomInv room t) (hidle : t.idle = true)
    {command : RoomCommand CallId} {rest : List (RoomCommand CallId)} (hqueue : t.queue = command :: rest) :
    ∀ e ∈ (t.process command rest).outbox, (t.process command rest).Backs e := by
  obtain ⟨hreceiver, hstopping, -⟩ := RoomTask.idle_iff.mp hidle
  have hopen : t.actor.closed = false := h.stopping ▸ hstopping
  obtain ⟨a, effects, stop, hh, heq⟩ := h.process_eq hidle command rest
  have hlast : ⟨command, t.actor, a⟩ ∈ (t.process command rest).handled := by
    rw [heq]
    exact List.mem_append_right _ List.mem_cons_self
  have houtbox : (t.process command rest).outbox = effects := by rw [heq]
  rw [houtbox]
  intro e he
  cases hh with
  | joinNew p nickname sink k hmem hplace =>
      obtain rfl | he := List.mem_cons.mp he
      · exact ⟨_, hlast, p, nickname, sink, rfl, List.mem_append_right _ List.mem_cons_self⟩
      · obtain rfl := List.mem_singleton.mp he
        trivial
  | joinAgain p nickname sink k hmem =>
      obtain rfl := List.mem_singleton.mp he
      exact ⟨_, hlast, p, nickname, sink, rfl, hmem⟩
  | joinFull p nickname sink k hmem hfull =>
      obtain rfl := List.mem_singleton.mp he
      have hhad := (Handled.joinFull p nickname sink k hmem hfull).had_of_join h.actor hopen
      have hgrow := h.grows_process hidle hqueue
      refine ⟨hgrow.had hhad, fun hk => hgrow.intruded (h.intruded_of_refused hreceiver hhad hqueue ?_)⟩
      exact hk.trans hgrow.creator
  | chatIgnored => cases he
  | chatSent | close =>
      obtain rfl := List.mem_singleton.mp he
      trivial
  | leaveOutsider p reason k hmem =>
      obtain rfl := List.mem_singleton.mp he
      exact ⟨⟨_, hlast, p, reason, rfl⟩, _, rfl⟩
  | leaveOthers p reason k hmem hothers =>
      obtain rfl | he := List.mem_cons.mp he
      · trivial
      · obtain rfl := List.mem_singleton.mp he
        exact ⟨⟨_, hlast, p, reason, rfl⟩, _, rfl⟩
  | leaveLast p reason k hlastMember =>
      obtain rfl | he := List.mem_cons.mp he
      · trivial
      · obtain rfl | he := List.mem_cons.mp he
        · trivial
        · obtain rfl := List.mem_singleton.mp he
          exact ⟨⟨_, hlast, p, reason, rfl⟩, _, rfl⟩

/-- **One command handled.** -/
theorem RoomInv.process {room : RoomId} {t : RoomTask} (h : RoomInv room t) (hidle : t.idle = true)
    {command : RoomCommand CallId} {rest : List (RoomCommand CallId)} (hqueue : t.queue = command :: rest) :
    RoomInv room (t.process command rest) := by
  obtain ⟨hreceiver, hstopping, -⟩ := RoomTask.idle_iff.mp hidle
  have hopen : t.actor.closed = false := h.stopping ▸ hstopping
  have haccepted := RoomTask.accepted_process hqueue
  have hbacked := h.backs_process hidle hqueue
  have hgrow := h.grows_process hidle hqueue
  obtain ⟨a, effects, stop, hh, heq⟩ := h.process_eq hidle command rest
  obtain ⟨hinv, hstop, hid, -⟩ := hh.inv h.actor hopen
  have hnew : ⟨command, t.actor, a⟩ ∈ (t.process command rest).handled := by
    rw [heq]
    exact List.mem_append_right _ List.mem_cons_self
  rw [heq] at haccepted hbacked hgrow hnew ⊢
  refine ⟨hinv, hid.trans h.id, hstop.symm, fun hr => ?_, fun hi => ?_, ?_, ?_, ⟨fun hhad => ?_, ?_⟩, ?_, ?_, hbacked⟩
  · rw [hreceiver] at hr
    cases hr
  · rw [(h.hidden hi).1] at hqueue
    cases hqueue
  · intro x hx
    obtain hx | hx := List.mem_append.mp hx
    · exact h.history x hx
    · obtain rfl := List.mem_singleton.mp hx
      refine ⟨h.actor, hopen, ?_⟩
      exact (congrArg RoomTask.actor heq).symm
  · intro x hx hclosed
    obtain hx | hx := List.mem_append.mp hx
    · rw [h.closedBy x hx hclosed] at hopen
      cases hopen
    · obtain rfl := List.mem_singleton.mp hx
      exact hclosed
  · obtain hhad | ⟨p, nickname, sink, k, rfl⟩ := hh.had_back hhad
    · obtain ⟨x, hx, hjoin⟩ := h.joined.mp hhad
      exact ⟨x, hgrow.handled x hx, hjoin⟩
    · exact ⟨_, hnew, rfl⟩
  · rintro ⟨x, hx, hjoin⟩
    obtain hx | hx := List.mem_append.mp hx
    · exact hgrow.had (h.joined.mpr ⟨x, hx, hjoin⟩)
    · obtain rfl := List.mem_singleton.mp hx
      cases command with
      | join => exact hh.had_of_join h.actor hopen
      | chat | leave | close => cases hjoin
  · intro _
    rw [haccepted]
    exact h.firstJoin hreceiver
  · rw [haccepted]
    exact h.asked

/-! ## The actor's other steps -/

theorem RoomInv.pop {room : RoomId} {t : RoomTask} (h : RoomInv room t) {e : Effect CallId} {rest : List (Effect CallId)}
    (houtbox : t.outbox = e :: rest) : RoomInv room { t with outbox := rest } where
  actor := h.actor
  id := h.id
  stopping := h.stopping
  dropped hr := absurd (h.dropped hr).2.2 (by rw [houtbox]; exact List.cons_ne_nil _ _)
  hidden := h.hidden
  history := h.history
  closedBy := h.closedBy
  joined := h.joined
  firstJoin := h.firstJoin
  asked := h.asked
  backed e' he' := h.backed e' (by rw [houtbox]; exact List.mem_cons_of_mem _ he')

theorem RoomTask.grows_pop (t : RoomTask) (rest : List (Effect CallId)) : t.Grows { t with outbox := rest } :=
  ⟨rfl, fun h => h, fun h => h, fun h => h, fun h => h, fun _ h => h, fun _ h => h, fun h => h, fun _ _ h => h⟩

def RoomTask.hungUp (t : RoomTask) : RoomTask :=
  { t with actor := t.actor.shut, stopping := true,
           outbox := [.broadcast t.actor.sinks (.closed t.actor.room.id "房间通道已关闭")] }

theorem RoomTask.grows_hungUp (t : RoomTask) : t.Grows t.hungUp :=
  ⟨rfl, fun h => h, fun _ => rfl, fun h => h, fun h => h, fun _ h => h, fun _ h => h, fun _ => Or.inl rfl, fun _ _ h => h⟩

theorem RoomInv.hangup_eq {room : RoomId} {t : RoomTask} (h : RoomInv room t) (hidle : t.idle = true) :
    { t with actor := (t.actor.finish (ρ := CallId) "房间通道已关闭").1,
             outbox := (t.actor.finish "房间通道已关闭").2, stopping := true } = t.hungUp := by
  obtain ⟨-, hstopping, -⟩ := RoomTask.idle_iff.mp hidle
  have hopen := h.actor.isClosed (h.stopping ▸ hstopping)
  rw [finish_open hopen]
  rfl

theorem RoomInv.hungUp {room : RoomId} {t : RoomTask} (h : RoomInv room t) (hidle : t.idle = true) :
    RoomInv room t.hungUp where
  actor := shut_inv h.actor.keys h.actor.nodup h.actor.bound h.actor.place
  id := h.id
  stopping := rfl
  dropped hr := absurd hr (by
    rw [show t.hungUp.receiver = t.receiver from rfl, (RoomTask.idle_iff.mp hidle).1]
    decide)
  hidden := h.hidden
  history := h.history
  closedBy _ _ _ := rfl
  joined := h.joined
  firstJoin := h.firstJoin
  asked := h.asked
  backed e he := by
    obtain rfl := List.mem_singleton.mp he
    trivial

def RoomTask.terminated (t : RoomTask) : RoomTask := { t with receiver := false, queue := [] }

theorem RoomTask.grows_terminated {t : RoomTask} (hclosed : t.actor.closed = true) : t.Grows t.terminated :=
  ⟨rfl, fun h => h, fun h => h, fun _ => rfl, fun h => h, fun _ h => h, fun _ h => h, fun _ => Or.inl hclosed,
    fun _ _ h => h⟩

theorem RoomInv.terminated {room : RoomId} {t : RoomTask} (h : RoomInv room t) (hstopping : t.stopping = true)
    (houtbox : t.outbox = []) : RoomInv room t.terminated where
  actor := h.actor
  id := h.id
  stopping := h.stopping
  dropped _ := ⟨h.stopping ▸ hstopping, rfl, houtbox⟩
  hidden hi := ⟨rfl, (h.hidden hi).2⟩
  history := h.history
  closedBy := h.closedBy
  joined := h.joined
  firstJoin hr := absurd hr (by simp [RoomTask.terminated])
  asked := by
    have hnodup := h.asked
    rw [RoomTask.accepted, List.filterMap_append] at hnodup
    show ((t.handled.map Handling.command ++ []).filterMap replyOf).Nodup
    rw [List.append_nil]
    exact (List.nodup_append'.mp hnodup).1
  backed := h.backed

theorem RoomInv.published {room : RoomId} {t : RoomTask} (h : RoomInv room t) : RoomInv room { t with inserted := true } where
  actor := h.actor
  id := h.id
  stopping := h.stopping
  dropped := h.dropped
  hidden hi := by cases hi
  history := h.history
  closedBy := h.closedBy
  joined := h.joined
  firstJoin := h.firstJoin
  asked := h.asked
  backed := h.backed

theorem RoomTask.grows_inserted (t : RoomTask) : t.Grows { t with inserted := true } :=
  ⟨rfl, fun _ => rfl, fun h => h, fun h => h, fun h => h, fun _ h => h, fun _ h => h, fun h => h, fun _ _ h => h⟩

end LongshipX.Service
