import LongshipX.Room.Runs

/-!
# A call that waits is owed an answer

A `Join` or a `Leave` carries the sender of a oneshot. As long as the call waits, that sender is somewhere: with
the command in the queue of the room, or with the effect that the actor still has to perform. So nobody waits
for an answer that nobody will give. Beside it stands the position of a call: each operation keeps to its own.

* `RoomTask.Owes` : where the sender is; `Pc.awaits` : who waits for it;
* `Op.Stands` : the positions of an operation;
* `Answerable` : both, for every call; `Answerable.step` : every step keeps it.
-/

namespace LongshipX.Service
open RoomActor

/-- What a oneshot carries: the answer to a `Join`, or to a `Leave`. -/
inductive Ask where
  | join
  | leave
  deriving DecidableEq, Repr

def senderOf : RoomCommand CallId → Option (Ask × CallId)
  | .join _ _ _ reply => some (.join, reply)
  | .leave _ _ reply => some (.leave, reply)
  | .chat _ _ => none
  | .close _ => none

def answerOf : Effect CallId → Option (Ask × CallId)
  | .replyJoin reply _ => some (.join, reply)
  | .replyLeave reply _ => some (.leave, reply)
  | .broadcast _ _ => none

def Pc.awaits : Pc → Option (RoomId × Ask)
  | .joinWait room none => some (room, .join)
  | .leaveWait room none _ => some (room, .leave)
  | _ => none

def RoomTask.Owes (t : RoomTask) (ask : Ask) (k : CallId) : Prop :=
  (∃ command ∈ t.queue, senderOf command = some (ask, k)) ∨ ∃ e ∈ t.outbox, answerOf e = some (ask, k)

/-- The positions of `create_and_join` and `join`. -/
def Pc.joins : Pc → Bool
  | .create => true
  | .insert _ => true
  | .joinLookup _ => true
  | .joinSend _ => true
  | .joinWait _ _ => true
  | .joinPublish _ => true
  | .undo _ _ => true
  | pc => pc.over

/-- The positions of `leave`. -/
def Pc.leaves : Pc → Bool
  | .leaveLookup _ _ => true
  | .leaveSend _ _ => true
  | .leaveWait _ _ _ => true
  | .leaveForget _ _ _ => true
  | .leavePublish _ _ => true
  | pc => pc.over

/-- The positions of `leave_all`. -/
def Pc.leavesAll : Pc → Bool
  | .liveHandles => true
  | pc => pc.leaves

/-- The positions of `chat`. -/
def Pc.chats : Pc → Bool
  | .chatLookup _ => true
  | .chatSend _ => true
  | pc => pc.over

/-- The positions of `close_all`. -/
def Pc.closes : Pc → Bool
  | .drain => true
  | .closeSend _ _ => true
  | pc => pc.over

def Op.stands (op : Op) (pc : Pc) : Bool :=
  match op with
  | .joinOrCreate _ _ _ _ => pc.joins
  | .leave _ _ _ => pc.leaves
  | .leaveAll _ _ => pc.leavesAll
  | .chat _ _ _ => pc.chats
  | .closeAll _ => pc.closes

/-- **Every call stands where its operation can stand, and if it waits, it is owed an answer.** -/
structure Answerable (s : State) : Prop where
  stands : ∀ (k : CallId) (c : Call), s.calls[k]? = some c → c.op.stands c.pc = true
  owed : ∀ (k : CallId) (c : Call), s.calls[k]? = some c → ∀ room ask, c.pc.awaits = some (room, ask) →
    s.At room (fun t => t.Owes ask k)

/-! ## Positions -/

theorem Op.stands_start (op : Op) : op.stands op.start = true := by
  cases op with
  | joinOrCreate room player nickname sink => cases room <;> rfl
  | leave | leaveAll | chat | closeAll => rfl

theorem Op.stands_over {op : Op} {pc : Pc} (h : pc.over = true) : op.stands pc = true := by
  cases pc with
  | returned | failed | cancelled => cases op <;> rfl
  | create | insert | joinLookup | joinSend | joinWait | joinPublish | undo | liveHandles | leaveLookup | leaveSend
  | leaveWait | leaveForget | leavePublish | chatLookup | chatSend | drain | closeSend => cases h

theorem Pc.leavesAll_of_leaves {pc : Pc} (h : pc.leaves = true) : pc.leavesAll = true := by
  cases pc with
  | liveHandles => rfl
  | create | insert | joinLookup | joinSend | joinWait | joinPublish | undo | leaveLookup | leaveSend | leaveWait
  | leaveForget | leavePublish | chatLookup | chatSend | drain | closeSend | returned | failed | cancelled => exact h

/-- A next position: it is right, and if the call waits there, it has just sent its command to the room. -/
structure Lands (right : Prop) (s : State) (k : CallId) (act : Act) (pc : Pc) : Prop where
  right : right
  sent : ∀ room ask, pc.awaits = some (room, ask) → ∃ command t, act = .enqueue room command ∧
    senderOf command = some (ask, k) ∧ s.rooms room = some t

section
variable {config : RoomServiceConfig} {s s' : State} {k : CallId} {act : Act} {pc : Pc}

theorem Lands.silent {right : Prop} (h : right) (hpc : pc.awaits = none) : Lands right s k act pc :=
  ⟨h, fun _ _ ha => by rw [hpc] at ha; cases ha⟩

theorem Lands.imp {right right' : Prop} (h : Lands right s k act pc) (himp : right → right') :
    Lands right' s k act pc :=
  ⟨himp h.right, h.sent⟩

theorem lands_leaveNext (todo : List RoomId) : Lands ((leaveNext todo).leaves = true) s k act (leaveNext todo) := by
  cases todo <;> exact .silent rfl rfl

theorem lands_joinFailed (creates : Bool) (room : RoomId) (err : AppError) :
    Lands ((joinFailed creates room err).joins = true) s k act (joinFailed creates room err) := by
  cases creates <;> exact .silent rfl rfl

theorem lands_closeNext (todo : List RoomId) : Lands ((closeNext todo).closes = true) s k act (closeNext todo) := by
  cases todo <;> exact .silent rfl rfl

theorem room_of_gate {room : RoomId} (h : s.gate config room = .open) : ∃ t, s.rooms room = some t := by
  unfold State.gate at h
  cases ht : s.rooms room with
  | none =>
      rw [ht] at h
      cases h
  | some t => exact ⟨t, rfl⟩

theorem advanceJoin_lands {creates : Bool} {player : PlayerId} {nickname : String} {sink : SinkId} {pc' : Pc}
    (hadvance : advanceJoin config s k creates player nickname sink pc = some (act, pc')) :
    Lands (pc'.joins = true) s k act pc' := by
  cases pc with
  | insert r | joinPublish r | undo r err =>
      obtain ⟨-, rfl⟩ := Prod.mk.inj (Option.some.inj hadvance)
      exact .silent rfl rfl
  | joinLookup r =>
      simp only [advanceJoin] at hadvance
      split at hadvance
      · obtain ⟨-, rfl⟩ := Prod.mk.inj (Option.some.inj hadvance)
        exact .silent rfl rfl
      · obtain ⟨-, rfl⟩ := Prod.mk.inj (Option.some.inj hadvance)
        exact lands_joinFailed _ _ _
  | joinSend r =>
      simp only [advanceJoin] at hadvance
      split at hadvance
      · next hgate =>
          obtain ⟨rfl, rfl⟩ := Prod.mk.inj (Option.some.inj hadvance)
          refine ⟨rfl, fun room ask ha => ?_⟩
          obtain ⟨rfl, rfl⟩ := Prod.mk.inj (Option.some.inj ha)
          obtain ⟨t, ht⟩ := room_of_gate hgate
          exact ⟨_, t, rfl, rfl, ht⟩
      · cases hadvance
      · obtain ⟨-, rfl⟩ := Prod.mk.inj (Option.some.inj hadvance)
        exact lands_joinFailed _ _ _
  | joinWait r reply =>
      obtain _ | (_ | _) | _ := reply
      · cases hadvance
      · obtain ⟨-, rfl⟩ := Prod.mk.inj (Option.some.inj hadvance)
        exact lands_joinFailed _ _ _
      · obtain ⟨-, rfl⟩ := Prod.mk.inj (Option.some.inj hadvance)
        exact .silent rfl rfl
      · obtain ⟨-, rfl⟩ := Prod.mk.inj (Option.some.inj hadvance)
        exact lands_joinFailed _ _ _
  | create | liveHandles | leaveLookup | leaveSend | leaveWait | leaveForget | leavePublish | chatLookup | chatSend
  | drain | closeSend | returned | failed | cancelled => cases hadvance

theorem advanceLeave_lands {player : PlayerId} {reason : String} {pc' : Pc}
    (hadvance : advanceLeave config s k player reason pc = some (act, pc')) : Lands (pc'.leaves = true) s k act pc' := by
  cases pc with
  | leaveLookup r todo =>
      simp only [advanceLeave] at hadvance
      split at hadvance
      · obtain ⟨-, rfl⟩ := Prod.mk.inj (Option.some.inj hadvance)
        exact .silent rfl rfl
      · obtain ⟨-, rfl⟩ := Prod.mk.inj (Option.some.inj hadvance)
        exact lands_leaveNext todo
  | leaveSend r todo =>
      simp only [advanceLeave] at hadvance
      split at hadvance
      · next hgate =>
          obtain ⟨rfl, rfl⟩ := Prod.mk.inj (Option.some.inj hadvance)
          refine ⟨rfl, fun room ask ha => ?_⟩
          obtain ⟨rfl, rfl⟩ := Prod.mk.inj (Option.some.inj ha)
          obtain ⟨t, ht⟩ := room_of_gate hgate
          exact ⟨_, t, rfl, rfl, ht⟩
      · cases hadvance
      · split_ifs at hadvance
        all_goals
          obtain ⟨-, rfl⟩ := Prod.mk.inj (Option.some.inj hadvance)
          exact .silent rfl rfl
  | leaveWait r reply todo =>
      obtain _ | (err | left) | _ := reply
      · cases hadvance
      · obtain ⟨-, rfl⟩ := Prod.mk.inj (Option.some.inj hadvance)
        exact .silent rfl rfl
      · simp only [advanceLeave] at hadvance
        split_ifs at hadvance
        · obtain ⟨-, rfl⟩ := Prod.mk.inj (Option.some.inj hadvance)
          exact .silent rfl rfl
        · obtain ⟨-, rfl⟩ := Prod.mk.inj (Option.some.inj hadvance)
          exact .silent rfl rfl
        · obtain ⟨-, rfl⟩ := Prod.mk.inj (Option.some.inj hadvance)
          exact lands_leaveNext todo
      · simp only [advanceLeave] at hadvance
        split_ifs at hadvance
        all_goals
          obtain ⟨-, rfl⟩ := Prod.mk.inj (Option.some.inj hadvance)
          exact .silent rfl rfl
  | leaveForget r left todo =>
      obtain ⟨-, rfl⟩ := Prod.mk.inj (Option.some.inj hadvance)
      cases left with
      | true => exact .silent rfl rfl
      | false => exact lands_leaveNext todo
  | leavePublish r todo =>
      obtain ⟨-, rfl⟩ := Prod.mk.inj (Option.some.inj hadvance)
      exact lands_leaveNext todo
  | create | insert | joinLookup | joinSend | joinWait | joinPublish | undo | liveHandles | chatLookup | chatSend
  | drain | closeSend | returned | failed | cancelled => cases hadvance

theorem advanceChat_lands {player : PlayerId} {text : String} {pc' : Pc}
    (hadvance : advanceChat config s player text pc = some (act, pc')) :
    Lands (pc'.chats = true) s k act pc' := by
  cases pc with
  | chatLookup r =>
      simp only [advanceChat] at hadvance
      split_ifs at hadvance
      · obtain ⟨-, rfl⟩ := Prod.mk.inj (Option.some.inj hadvance)
        exact .silent rfl rfl
      · obtain ⟨-, rfl⟩ := Prod.mk.inj (Option.some.inj hadvance)
        exact .silent rfl rfl
      · split at hadvance
        · obtain ⟨-, rfl⟩ := Prod.mk.inj (Option.some.inj hadvance)
          exact .silent rfl rfl
        · obtain ⟨-, rfl⟩ := Prod.mk.inj (Option.some.inj hadvance)
          exact .silent rfl rfl
  | chatSend r =>
      simp only [advanceChat] at hadvance
      split at hadvance
      all_goals
        obtain ⟨-, rfl⟩ := Prod.mk.inj (Option.some.inj hadvance)
        exact .silent rfl rfl
  | create | insert | joinLookup | joinSend | joinWait | joinPublish | undo | liveHandles | leaveLookup | leaveSend
  | leaveWait | leaveForget | leavePublish | drain | closeSend | returned | failed | cancelled => cases hadvance

theorem advanceClose_lands {reason : String} {pc' : Pc}
    (hadvance : advanceClose config s reason pc = some (act, pc')) :
    Lands (pc'.closes = true) s k act pc' := by
  cases pc with
  | closeSend r todo =>
      simp only [advanceClose] at hadvance
      split at hadvance
      · obtain ⟨-, rfl⟩ := Prod.mk.inj (Option.some.inj hadvance)
        exact lands_closeNext todo
      · cases hadvance
      · obtain ⟨-, rfl⟩ := Prod.mk.inj (Option.some.inj hadvance)
        exact lands_closeNext todo
  | create | insert | joinLookup | joinSend | joinWait | joinPublish | undo | liveHandles | leaveLookup | leaveSend
  | leaveWait | leaveForget | leavePublish | chatLookup | chatSend | drain | returned | failed | cancelled =>
      cases hadvance

theorem advance_lands {c : Call} (hadvance : advance config s k c = some (act, pc)) :
    Lands (c.op.stands pc = true) s k act pc := by
  obtain ⟨op, pc₀, sent⟩ := c
  cases op with
  | joinOrCreate room player nickname sink => exact advanceJoin_lands hadvance
  | leave room player reason => exact advanceLeave_lands hadvance
  | leaveAll player reason => exact (advanceLeave_lands hadvance).imp Pc.leavesAll_of_leaves
  | chat room player text => exact advanceChat_lands hadvance
  | closeAll reason => exact advanceClose_lands hadvance

/-! ## Senders -/

/-- A room that keeps its queue and its outbox, up to a command it takes in, keeps what it owes. -/
theorem RoomTask.Owes.mono {t t' : RoomTask} {ask : Ask} (h : t.Owes ask k) (hqueue : ∀ command ∈ t.queue, command ∈ t'.queue)
    (houtbox : ∀ e ∈ t.outbox, e ∈ t'.outbox) : t'.Owes ask k :=
  h.imp (fun ⟨command, hmem, hsender⟩ => ⟨command, hqueue command hmem, hsender⟩)
    fun ⟨e, hmem, hanswer⟩ => ⟨e, houtbox e hmem, hanswer⟩

/-- **A command that carries a sender is answered** by the effects of its handling. -/
theorem handled_answers {a a' : RoomActor} {command : RoomCommand CallId} {effects : List (Effect CallId)} {stop : Bool}
    (h : Handled a command a' effects stop) {ask : Ask} (hsender : senderOf command = some (ask, k)) :
    ∃ e ∈ effects, answerOf e = some (ask, k) := by
  cases h with
  | joinNew | joinAgain | joinFull | leaveOutsider => exact ⟨_, List.mem_cons_self, hsender⟩
  | leaveOthers => exact ⟨_, List.mem_cons_of_mem _ List.mem_cons_self, hsender⟩
  | leaveLast => exact ⟨_, List.mem_cons_of_mem _ (List.mem_cons_of_mem _ List.mem_cons_self), hsender⟩
  | chatIgnored | chatSent | close => cases hsender

theorem RoomInv.owes_process {room : RoomId} {t : RoomTask} (h : RoomInv room t) (hidle : t.idle = true)
    {command : RoomCommand CallId} {rest : List (RoomCommand CallId)} (hqueue : t.queue = command :: rest) {ask : Ask}
    (howes : t.Owes ask k) : (t.process command rest).Owes ask k := by
  obtain ⟨-, -, houtbox⟩ := RoomTask.idle_iff.mp hidle
  obtain ⟨a, effects, stop, hh, heq⟩ := h.process_eq hidle command rest
  rw [heq]
  obtain ⟨command', hmem, hsender⟩ | ⟨e, hmem, -⟩ := howes
  · rw [hqueue] at hmem
    obtain rfl | hmem := List.mem_cons.mp hmem
    · exact Or.inr (handled_answers hh hsender)
    · exact Or.inl ⟨command', hmem, hsender⟩
  · rw [houtbox] at hmem
    cases hmem

theorem owes_move {room : RoomId} {ask : Ask} {j : CallId} (h : s.At room (fun t => t.Owes ask j)) :
    (s.move k act pc).At room (fun t => t.Owes ask j) := by
  obtain ⟨t, ht, howes⟩ := h
  cases act with
  | skip | forget | retain | drain | publish => exact ⟨t, ht, howes⟩
  | register r =>
      by_cases hr : room = r
      · subst hr
        exact ⟨_, State.update_self ht, howes⟩
      · exact ⟨t, (State.update_of_ne hr).trans ht, howes⟩
  | enqueue r command =>
      by_cases hr : room = r
      · subst hr
        exact ⟨_, State.update_self ht, howes.mono (fun _ hm => List.mem_append_left _ hm) fun _ hm => hm⟩
      · exact ⟨t, (State.update_of_ne hr).trans ht, howes⟩

theorem owes_update {room r : RoomId} {f : RoomTask → RoomTask} {ask : Ask} {j : CallId} {t₀ : RoomTask}
    (ht₀ : s.rooms r = some t₀) (hf : t₀.Owes ask j → (f t₀).Owes ask j) (h : s.At room (fun t => t.Owes ask j)) :
    (s.update r f).At room (fun t => t.Owes ask j) := by
  obtain ⟨t, ht, howes⟩ := h
  by_cases hr : room = r
  · subst hr
    obtain rfl := Option.some.inj (ht₀.symm.trans ht)
    exact ⟨_, State.update_self ht, hf howes⟩
  · exact ⟨t, (State.update_of_ne hr).trans ht, howes⟩

/-! ## Answers -/

theorem Answered.stands {r : RoomId} {c c' : Call} (h : Answered r c c') (hstands : c.op.stands c.pc = true) :
    c'.op.stands c'.pc = true := by
  obtain ⟨op, pc, sent⟩ := c
  cases h with
  | same => exact hstands
  | join reply hpc =>
      dsimp only at hpc
      subst hpc
      cases op <;> exact hstands
  | leave reply todo hpc =>
      dsimp only at hpc
      subst hpc
      cases op <;> exact hstands

theorem Answered.awaits {r : RoomId} {c c' : Call} (h : Answered r c c') {x : RoomId × Ask} (hx : c'.pc.awaits = some x) :
    c' = c := by
  cases h with
  | same => rfl
  | join | leave => cases hx

theorem awaits_answerJoin {room : RoomId} {c : Call} (reply : Reply Unit) (h : c.pc.awaits = some (room, .join)) :
    (c.answerJoin room reply).pc.awaits = none := by
  obtain ⟨op, pc, sent⟩ := c
  cases pc with
  | joinWait r x =>
      cases x with
      | none =>
          obtain ⟨rfl, -⟩ := Prod.mk.inj (Option.some.inj h)
          simp [Call.answerJoin, Pc.awaits]
      | some => cases h
  | leaveWait r x => cases x <;> cases h
  | create | insert | joinLookup | joinSend | joinPublish | undo | liveHandles | leaveLookup | leaveSend
  | leaveForget | leavePublish | chatLookup | chatSend | drain | closeSend | returned | failed | cancelled => cases h

theorem awaits_answerLeave {room : RoomId} {c : Call} (reply : Reply Bool) (h : c.pc.awaits = some (room, .leave)) :
    (c.answerLeave room reply).pc.awaits = none := by
  obtain ⟨op, pc, sent⟩ := c
  cases pc with
  | leaveWait r x =>
      cases x with
      | none =>
          obtain ⟨rfl, -⟩ := Prod.mk.inj (Option.some.inj h)
          simp [Call.answerLeave, Pc.awaits]
      | some => cases h
  | joinWait r x => cases x <;> cases h
  | create | insert | joinLookup | joinSend | joinPublish | undo | liveHandles | leaveLookup | leaveSend
  | leaveForget | leavePublish | chatLookup | chatSend | drain | closeSend | returned | failed | cancelled => cases h

theorem awaits_lose {room : RoomId} {c : Call} {ask : Ask} (h : c.pc.awaits = some (room, ask)) :
    (c.lose room).pc.awaits = none := by
  unfold Call.lose
  cases ask with
  | join =>
      have hjoin := awaits_answerJoin .lost h
      obtain hsame | ⟨todo, -, hnew⟩ := answerLeave_cases room .lost (c.answerJoin room .lost)
      · rw [hsame]
        exact hjoin
      · rw [hnew]
        rfl
  | leave =>
      obtain hsame | ⟨hpc, -⟩ := answerJoin_cases room .lost c
      · rw [hsame]
        exact awaits_answerLeave .lost h
      · rw [hpc] at h
        cases h

theorem replyOf_of_sender {command : RoomCommand CallId} {ask : Ask} (h : senderOf command = some (ask, k)) :
    replyOf command = some k := by
  cases command with
  | join | leave =>
      obtain ⟨-, rfl⟩ := Prod.mk.inj (Option.some.inj h)
      rfl
  | chat | close => cases h

/-! ## Every step -/

/-- The rule for a step of an actor: its room keeps its debts, unless the call has its answer. -/
theorem Answerable.actor_step (h : Answerable s)
    (hcalls : ∀ (k : CallId) (c' : Call), s'.calls[k]? = some c' → ∃ c r, s.calls[k]? = some c ∧ Answered r c c')
    (howed : ∀ (k : CallId) (c : Call), s.calls[k]? = some c → s'.calls[k]? = some c → ∀ room ask,
      c.pc.awaits = some (room, ask) → s.At room (fun t => t.Owes ask k) → s'.At room (fun t => t.Owes ask k)) :
    Answerable s' where
  stands k c' hc' := by
    obtain ⟨c, r, hc, hanswered⟩ := hcalls k c' hc'
    exact hanswered.stands (h.stands k c hc)
  owed k c' hc' room ask hawaits := by
    obtain ⟨c, r, hc, hanswered⟩ := hcalls k c' hc'
    obtain rfl := hanswered.awaits hawaits
    exact howed k c' hc hc' room ask hawaits (h.owed k c' hc room ask hawaits)

/-- The rule for a step of a call. -/
theorem Answerable.move (h : Answerable s) {c : Call} (hc : s.calls[k]? = some c)
    (hlands : Lands (c.op.stands pc = true) s k act pc) : Answerable (s.move k act pc) where
  stands j c' hc' := by
    obtain ⟨c₀, rfl, hc₀, rfl⟩ | ⟨-, hold⟩ := State.move_cases hc'
    · obtain rfl := Option.some.inj (hc.symm.trans hc₀)
      exact hlands.right
    · exact h.stands j c' hold
  owed j c' hc' room ask hawaits := by
    obtain ⟨c₀, rfl, hc₀, rfl⟩ | ⟨-, hold⟩ := State.move_cases hc'
    · obtain ⟨command, t, rfl, hsender, ht⟩ := hlands.sent room ask hawaits
      exact ⟨_, State.update_self ht, Or.inl ⟨command, List.mem_append_right _ List.mem_cons_self, hsender⟩⟩
    · exact owes_move (h.owed j c' hold room ask hawaits)

theorem Answerable.perform (h : Answerable s) {r : RoomId} {t : RoomTask} {e : Effect CallId}
    {rest : List (Effect CallId)} (ht : s.rooms r = some t) (houtbox : t.outbox = e :: rest)
    (hcalls : ∀ (k : CallId) (c' : Call), ((s.update r fun t => { t with outbox := rest }).perform r e).calls[k]? = some c' →
      ∃ c r, s.calls[k]? = some c ∧ Answered r c c') :
    Answerable ((s.update r fun t => { t with outbox := rest }).perform r e) := by
  refine h.actor_step hcalls fun j c hc hc' room ask hawaits howes => ?_
  have hrooms : ((s.update r fun t => { t with outbox := rest }).perform r e).rooms =
      (s.update r fun t => { t with outbox := rest }).rooms := by
    cases e <;> rfl
  unfold State.At at howes ⊢
  rw [hrooms]
  by_cases hr : room = r
  · subst hr
    obtain ⟨t', ht', howes⟩ := howes
    obtain rfl := Option.some.inj (ht.symm.trans ht')
    refine ⟨_, State.update_self ht, ?_⟩
    obtain hqueue | ⟨e', hmem, hanswer⟩ := howes
    · exact Or.inl hqueue
    · rw [houtbox] at hmem
      obtain rfl | hmem := List.mem_cons.mp hmem
      · cases e' with
        | replyJoin i outcome =>
            obtain ⟨rfl, rfl⟩ := Prod.mk.inj (Option.some.inj hanswer)
            have hanswered := awaits_answerJoin (.answer outcome) hawaits
            rw [← Option.some.inj (hc'.symm.trans (modify_self hc)), hawaits] at hanswered
            cases hanswered
        | replyLeave i outcome =>
            obtain ⟨rfl, rfl⟩ := Prod.mk.inj (Option.some.inj hanswer)
            have hanswered := awaits_answerLeave (.answer outcome) hawaits
            rw [← Option.some.inj (hc'.symm.trans (modify_self hc)), hawaits] at hanswered
            cases hanswered
        | broadcast => cases hanswer
      · exact Or.inr ⟨e', hmem, hanswer⟩
  · obtain ⟨t', ht', howes⟩ := howes
    exact ⟨t', (State.update_of_ne hr).trans ht', howes⟩

theorem Answerable.terminate (h : Answerable s) {r : RoomId} {t : RoomTask} (ht : s.rooms r = some t)
    (houtbox : t.outbox = []) {s' : State} (hrooms : s'.rooms = (s.update r RoomTask.terminated).rooms)
    (hdropped : s'.calls = s.calls.mapIdx fun k c => if k ∈ t.queue.filterMap replyOf then c.lose r else c)
    (hcalls : ∀ (k : CallId) (c' : Call), s'.calls[k]? = some c' → ∃ c r, s.calls[k]? = some c ∧ Answered r c c') :
    Answerable s' := by
  refine h.actor_step hcalls fun k c hc hc' room ask hawaits howes => ?_
  obtain ⟨t', ht', howes⟩ := howes
  unfold State.At
  rw [hrooms]
  by_cases hr : room = r
  · subst hr
    obtain rfl := Option.some.inj (ht.symm.trans ht')
    obtain ⟨command, hmem, hsender⟩ | ⟨e, hmem, -⟩ := howes
    · have hk : k ∈ t.queue.filterMap replyOf := List.mem_filterMap.mpr ⟨command, hmem, replyOf_of_sender hsender⟩
      rw [hdropped, List.getElem?_mapIdx, hc, Option.map_some, if_pos hk] at hc'
      have hlost := awaits_lose hawaits
      rw [Option.some.inj hc', hawaits] at hlost
      cases hlost
    · rw [houtbox] at hmem
      cases hmem
  · exact ⟨t', (State.update_of_ne hr).trans ht', howes⟩

theorem Answerable.opened (h : Answerable s) {r : RoomId} {c : Call} (hc : s.calls[k]? = some c) (hpc : c.pc = .create)
    (hfree : s.rooms r = none) : Answerable (s.opened config k r) where
  stands j c' hc' := by
    obtain ⟨c₀, rfl, hc₀, rfl⟩ | ⟨-, hold⟩ := modify_cases hc'
    · obtain rfl := Option.some.inj (hc.symm.trans hc₀)
      have hstands := h.stands j c hc
      obtain ⟨op, pc, sent⟩ := c
      dsimp only at hpc
      subst hpc
      cases op with
      | joinOrCreate => rfl
      | leave | leaveAll | chat | closeAll => cases hstands
    · exact h.stands j c' hold
  owed j c' hc' room ask hawaits := by
    obtain ⟨c₀, rfl, hc₀, rfl⟩ | ⟨-, hold⟩ := modify_cases hc'
    · cases hawaits
    · obtain ⟨t, ht, howes⟩ := h.owed j c' hold room ask hawaits
      have hne : room ≠ r := fun he => by rw [he, hfree] at ht; cases ht
      exact ⟨t, (Function.update_of_ne hne _ s.rooms).trans ht, howes⟩

/-- **One step of the service** keeps every waiting call's sender somewhere. -/
theorem Answerable.step (h : Answerable s) (hinv : Inv s) {label : Label} (hstep : s.step config label = some s') :
    Answerable s' := by
  have hself : ∀ (k : CallId) (c' : Call), s.calls[k]? = some c' → ∃ c r, s.calls[k]? = some c ∧ Answered r c c' :=
    fun k c' hc' => ⟨c', ⟨0⟩, hc', .same⟩
  have hanswered : ∀ {label : Label} {s' : State}, Taken config s label s' → (∃ r, label = .perform r ∨ label = .terminate r) →
      ∀ (k : CallId) (c' : Call), s'.calls[k]? = some c' → ∃ c r, s.calls[k]? = some c ∧ Answered r c c' := by
    rintro label s' htaken ⟨r, rfl | rfl⟩
    all_goals
      cases htaken with
      | actor _ _ _ _ hcalls => exact hcalls
  have htaken := step_taken hstep
  cases step_stepped hstep with
  | start op =>
      refine ⟨fun k c hc => ?_, fun k c hc room ask hawaits => ?_⟩
      · obtain hold | ⟨-, rfl⟩ := Indexed.append_cases hc
        · exact h.stands k c hold
        · exact op.stands_start
      · obtain hold | ⟨-, rfl⟩ := Indexed.append_cases hc
        · exact h.owed k c hold room ask hawaits
        · cases op with
          | joinOrCreate target => cases target <;> cases hawaits
          | leave | leaveAll | chat | closeAll => cases hawaits
  | openRoom k r op sent hc hfree => exact h.opened hc rfl hfree
  | next k c act pc hc hadvance => exact h.move hc (advance_lands hadvance)
  | liveHandles k order op sent hc horder =>
      refine h.move hc ((lands_leaveNext order).imp fun hleaves => ?_)
      have hstands := h.stands k _ hc
      cases op with
      | leaveAll => exact Pc.leavesAll_of_leaves hleaves
      | joinOrCreate | leave | chat | closeAll => cases hstands
  | drain k order op sent hc horder =>
      refine h.move hc ((lands_closeNext order).imp fun hcloses => ?_)
      obtain ⟨reason, rfl⟩ : ∃ reason, op = .closeAll reason := (hinv.calls k _ hc).1
      exact hcloses
  | cancel k c hc hover => exact h.move hc (.silent (Op.stands_over rfl) rfl)
  | process r t command rest ht hidle hqueue =>
      exact h.actor_step hself fun k c hc hc' room ask hawaits howes =>
        owes_update ht (fun ho => (hinv.rooms r t ht).owes_process hidle hqueue ho) howes
  | perform r t e rest ht houtbox => exact h.perform ht houtbox (hanswered htaken ⟨r, Or.inl rfl⟩)
  | hangup r t ht hidle =>
      refine h.actor_step hself fun k c hc hc' room ask hawaits howes => owes_update ht (fun ho => ?_) howes
      obtain ⟨-, -, houtbox⟩ := RoomTask.idle_iff.mp hidle
      exact ho.mono (fun _ hm => hm) fun e he => absurd he (by rw [houtbox]; exact List.not_mem_nil)
  | terminate r t ht hstopping houtbox =>
      exact h.terminate ht houtbox rfl rfl (hanswered htaken ⟨r, Or.inr rfl⟩)

theorem init_answerable (config : RoomServiceConfig) : Answerable (system config).init where
  stands _ _ h := by cases h
  owed _ _ h := by cases h

theorem run_answerable {labels : List Label} (hrun : (system config).run (system config).init labels = some s) :
    Inv s ∧ Answerable s :=
  TransitionSystem.run_invariant (I := fun s => Inv s ∧ Answerable s)
    (fun _ _ _ h hstep => ⟨(h.1.step hstep).inv, h.2.step h.1 hstep⟩) ⟨init_inv config, init_answerable config⟩ hrun

end

end LongshipX.Service
