import LongshipX.Gateway.Lifecycle
import LongshipX.Gateway.Membership
import LongshipX.Lib.Indexed
import LongshipX.Room.Calls
import Mathlib.Logic.Relation

/-!
# The atomic operations are runs of the room service

Each operation of `Sequential.Rooms` is what the room service of `Service.State.step` does when one call runs alone:
its steps one after the other, and the actor it sends a command to handles it before the call goes on.

* `Alone` : one call stands here, everything else is at rest, and the actors and the registry are as `Rooms` says;
* `Alone.next`, `Alone.ask` : one step of the call, and a command with its answer;
* `Alone.join`, `Alone.leave`, `Alone.closeEach` : the operations.
-/

namespace LongshipX.Sequential
open RoomActor Service
open Gateway (internal)

/-! ## Commands and effects with other reply channels -/

section
variable {ρ σ : Type}

def mapEffect (f : ρ → σ) : Effect ρ → Effect σ
  | .replyJoin reply outcome => .replyJoin (f reply) outcome
  | .replyLeave reply outcome => .replyLeave (f reply) outcome
  | .broadcast targets event => .broadcast targets event

def mapCommand (f : ρ → σ) : RoomCommand ρ → RoomCommand σ
  | .join player nickname sink reply => .join player nickname sink (f reply)
  | .chat player text => .chat player text
  | .leave player reason reply => .leave player reason (f reply)
  | .close reason => .close reason

theorem finish_map (f : ρ → σ) (a : RoomActor) (reason : String) :
    @finish σ a reason = ((@finish ρ a reason).1, (@finish ρ a reason).2.map (mapEffect f)) := by
  unfold finish
  split <;> rfl

theorem handle_map (f : ρ → σ) (a : RoomActor) (command : RoomCommand ρ) :
    a.handle (mapCommand f command) =
      ((a.handle command).1, (a.handle command).2.1.map (mapEffect f), (a.handle command).2.2) := by
  cases command with
  | join player nickname sink reply =>
      simp only [mapCommand, handle, handleJoin]
      split <;> rfl
  | chat player text =>
      simp only [mapCommand, handle, handleChat]
      split
      · rfl
      · split_ifs <;> rfl
  | leave player reason reply =>
      simp only [mapCommand, handle, handleLeave]
      split
      · split_ifs
        · rw [finish_map f]
          simp [mapEffect, broadcast]
        · rfl
      · rfl
      · rfl
  | close reason =>
      simp only [mapCommand, handle]
      rw [finish_map f]

end

/-! ## One call alone -/

/-- The task waits for commands, or has ended. -/
structure AtRest (t : RoomTask) : Prop where
  queue : t.queue = []
  outbox : t.outbox = []
  stopping : t.stopping = t.actor.closed
  receiver : t.receiver = !t.actor.closed

/-- Call `k` stands at `pc` and every other call is over. -/
structure Sole (k : CallId) (op : Op) (pc : Pc) (s : Service.State) : Prop where
  call : ∃ sent, s.calls[k]? = some ⟨op, pc, sent⟩
  others : ∀ (j : CallId) (c : Call), j ≠ k → s.calls[j]? = some c → c.pc.over = true

/-- Besides, all rooms are at rest, with the actors and the registry of `rooms`. -/
structure Alone (rooms : Rooms) (k : CallId) (op : Op) (pc : Pc) (s : Service.State) : Prop where
  sole : Sole k op pc s
  rest : ∀ r t, s.rooms r = some t → AtRest t
  actors : ∀ r, (s.rooms r).map RoomTask.actor = rooms.actors r
  registry : s.registry = rooms.registry

def Inner (config : RoomServiceConfig) (s s' : Service.State) : Prop :=
  ∃ label, internal label = true ∧ s.step config label = some s'

abbrev Reaches (config : RoomServiceConfig) : Service.State → Service.State → Prop := Relation.ReflTransGen (Inner config)

/-- What a call does to the actors and the registry, apart from commands. -/
def Rooms.apply (rooms : Rooms) : Act → Rooms
  | .skip => rooms
  | .register room => { rooms with registry := rooms.registry.insert room }
  | .forget room => rooms.forget room
  | .retain => rooms.retainLive
  | .drain => { rooms with registry := [] }
  | .enqueue _ _ => rooms
  | .publish _ => rooms

section
variable {config : RoomServiceConfig} {rooms : Rooms} {k : CallId} {op : Op} {pc pc' : Pc} {act : Act}
  {s s' : Service.State} {r : RoomId}

theorem Alone.isClosed (h : Alone rooms k op pc s) (r : RoomId) : s.isClosed r = rooms.isClosed r := by
  unfold Service.State.isClosed Rooms.isClosed
  rw [← h.actors r]
  cases s.rooms r <;> rfl

theorem Alone.handleFor (h : Alone rooms k op pc s) (r : RoomId) :
    (s.handleFor r).1 = (rooms.handleFor r).1 ∧ rooms.apply (s.handleFor r).2 = (rooms.handleFor r).2 ∧
      ∀ room command, (s.handleFor r).2 ≠ .enqueue room command := by
  unfold Service.State.handleFor Rooms.handleFor
  rw [h.registry, h.isClosed r]
  split_ifs <;> exact ⟨rfl, rfl, by simp⟩

theorem Sole.move (h : Sole k op pc s) (act : Act) (pc' : Pc) : Sole k op pc' (s.move k act pc') := by
  obtain ⟨sent, hc⟩ := h.call
  refine ⟨⟨_, Service.State.move_self hc⟩, fun j c hj hmove => ?_⟩
  obtain ⟨c', hjk, -⟩ | ⟨-, hold⟩ := Service.State.move_cases hmove
  · exact absurd hjk hj
  · exact h.others j c hj hold

theorem Alone.move (h : Alone rooms k op pc s) (hact : ∀ room command, act ≠ .enqueue room command) (pc' : Pc) :
    Alone (rooms.apply act) k op pc' (s.move k act pc') := by
  have hrest : ∀ x t, (s.move k act pc').rooms x = some t → AtRest t := by
    intro x t ht
    obtain ⟨t₀, ht₀, rfl | ⟨-, rfl⟩ | ⟨command, henqueue, -⟩⟩ := Service.State.move_rooms ht
    · exact h.rest x t ht₀
    · have := h.rest x t₀ ht₀
      exact ⟨this.queue, this.outbox, this.stopping, this.receiver⟩
    · exact absurd henqueue (hact x command)
  refine ⟨h.sole.move act pc', hrest, fun x => ?_, ?_⟩
  · cases act with
    | skip => exact h.actors x
    | forget room => exact h.actors x
    | retain => exact h.actors x
    | drain => exact h.actors x
    | publish event => exact h.actors x
    | enqueue room command => exact absurd rfl (hact room command)
    | register room =>
        show (Function.update s.rooms room _ x).map _ = rooms.actors x
        rw [← h.actors x]
        by_cases hx : x = room
        · subst hx
          rw [Function.update_self]
          cases s.rooms x <;> rfl
        · rw [Function.update_of_ne hx]
  · cases act with
    | skip => exact h.registry
    | forget room => exact congrArg _ h.registry
    | retain =>
        show s.registry.filter _ = rooms.registry.filter _
        rw [h.registry]
        exact List.filter_congr fun x _ => by rw [h.isClosed x]
    | drain => rfl
    | publish event => exact h.registry
    | enqueue room command => exact absurd rfl (hact room command)
    | register room =>
        show s.registry.insert room = rooms.registry.insert room
        rw [h.registry]

theorem Alone.next (h : Alone rooms k op pc s)
    (hadvance : ∀ sent, advance config s k ⟨op, pc, sent⟩ = some (act, pc'))
    (hact : ∀ room command, act ≠ .enqueue room command) :
    ∃ s', Inner config s s' ∧ Alone (rooms.apply act) k op pc' s' := by
  obtain ⟨sent, hc⟩ := h.sole.call
  refine ⟨_, ⟨.next k, rfl, ?_⟩, h.move hact pc'⟩
  simp only [Service.State.step, hc, hadvance sent, Option.map_some]

/-! ## A command and its answer -/

/-- The room's actor has handled a command of the call: it is `a` now and has these effects to perform. Everything else
is at rest. -/
structure Busy (rooms : Rooms) (r : RoomId) (a : RoomActor) (outbox : List (Effect CallId)) (stop : Bool) (k : CallId)
    (op : Op) (pc : Pc) (s : Service.State) : Prop where
  sole : Sole k op pc s
  task : ∃ t, s.rooms r = some t ∧ t.actor = a ∧ t.queue = [] ∧ t.outbox = outbox ∧ t.stopping = stop ∧ t.receiver = true
  rest : ∀ x t, x ≠ r → s.rooms x = some t → AtRest t
  actors : ∀ x, x ≠ r → (s.rooms x).map RoomTask.actor = rooms.actors x
  registry : s.registry = rooms.registry

/-- A reply of this effect is for call `k`. -/
def AnswersTo (k : CallId) : Effect CallId → Prop
  | .replyJoin reply _ => reply = k
  | .replyLeave reply _ => reply = k
  | .broadcast _ _ => True

def answered (r : RoomId) (pc : Pc) : Effect CallId → Pc
  | .replyJoin _ outcome =>
    match pc with
    | .joinWait x none => if x = r then .joinWait x (some (.answer outcome)) else .joinWait x none
    | _ => pc
  | .replyLeave _ outcome =>
    match pc with
    | .leaveWait x none todo => if x = r then .leaveWait x (some (.answer outcome)) todo else .leaveWait x none todo
    | _ => pc
  | .broadcast _ _ => pc

theorem Sole.modify {f : Call → Call} (h : Sole k op pc s) (hf : ∀ sent, f ⟨op, pc, sent⟩ = ⟨op, pc', sent⟩) :
    Sole k op pc' { s with calls := s.calls.modify k f } := by
  obtain ⟨sent, hc⟩ := h.call
  refine ⟨⟨sent, ?_⟩, fun j c hj hmodify => ?_⟩
  · rw [← hf sent]
    exact modify_self hc
  · obtain ⟨c', hjk, -⟩ | ⟨-, hold⟩ := modify_cases hmodify
    · exact absurd hjk hj
    · exact h.others j c hj hold

theorem Sole.perform {effect : Effect CallId} (h : Sole k op pc s) (heffect : AnswersTo k effect) (r : RoomId) :
    Sole k op (answered r pc effect) (s.perform r effect) := by
  cases effect with
  | broadcast targets event => exact h
  | replyJoin reply outcome =>
      obtain rfl : reply = k := heffect
      refine h.modify fun sent => ?_
      cases pc with
      | joinWait x reply =>
          cases reply with
          | none =>
              simp only [Call.answerJoin, answered]
              split_ifs <;> rfl
          | some => rfl
      | _ => rfl
  | replyLeave reply outcome =>
      obtain rfl : reply = k := heffect
      refine h.modify fun sent => ?_
      cases pc with
      | leaveWait x reply todo =>
          cases reply with
          | none =>
              simp only [Call.answerLeave, answered]
              split_ifs <;> rfl
          | some => rfl
      | _ => rfl

theorem update_other {f : RoomTask → RoomTask} {x : RoomId} (hx : x ≠ r) : (s.update r f).rooms x = s.rooms x :=
  Function.update_of_ne hx _ s.rooms

theorem update_this {f : RoomTask → RoomTask} {t : RoomTask} (ht : s.rooms r = some t) :
    (s.update r f).rooms r = some (f t) := by
  show Function.update s.rooms r ((s.rooms r).map f) r = _
  rw [Function.update_self, ht, Option.map_some]

theorem perform_rooms (s : Service.State) (r : RoomId) (effect : Effect CallId) :
    (s.perform r effect).rooms = s.rooms ∧ (s.perform r effect).registry = s.registry := by
  cases effect <;> exact ⟨rfl, rfl⟩

variable {a : RoomActor} {effect : Effect CallId} {outbox : List (Effect CallId)} {stop : Bool}

theorem Busy.perform (config : RoomServiceConfig) (h : Busy rooms r a (effect :: outbox) stop k op pc s) (heffect : AnswersTo k effect) :
    ∃ s', Inner config s s' ∧ Busy rooms r a outbox stop k op (answered r pc effect) s' := by
  obtain ⟨t, ht, hactor, hqueue, houtbox, hstop, hreceiver⟩ := h.task
  refine ⟨(s.update r fun task => { task with outbox := outbox }).perform r effect, ⟨.perform r, rfl, ?_⟩, ?_⟩
  · simp only [Service.State.step, ht, houtbox]
  · obtain ⟨hrooms, hregistry⟩ := perform_rooms (s.update r fun task => { task with outbox := outbox }) r effect
    have hsole : Sole k op pc (s.update r fun task => { task with outbox := outbox }) := ⟨h.sole.call, h.sole.others⟩
    refine ⟨hsole.perform heffect r, ?_, fun x t' hx ht' => ?_, fun x hx => ?_, ?_⟩
    · exact ⟨_, (congrFun hrooms r).trans (update_this ht), hactor, hqueue, rfl, hstop, hreceiver⟩
    · rw [hrooms, update_other hx] at ht'
      exact h.rest x t' hx ht'
    · rw [hrooms, update_other hx]
      exact h.actors x hx
    · rw [hregistry]
      exact h.registry

theorem Busy.performAll (config : RoomServiceConfig) (h : Busy rooms r a outbox stop k op pc s)
    (houtbox : ∀ effect ∈ outbox, AnswersTo k effect) :
    ∃ s', Reaches config s s' ∧ Busy rooms r a [] stop k op (outbox.foldl (answered r) pc) s' := by
  induction outbox generalizing s pc with
  | nil => exact ⟨s, .refl, h⟩
  | cons effect outbox ih =>
      obtain ⟨s', hinner, h'⟩ := h.perform config (houtbox effect List.mem_cons_self)
      obtain ⟨s'', hreaches, h''⟩ := ih h' fun e he => houtbox e (List.mem_cons_of_mem _ he)
      exact ⟨s'', .head hinner hreaches, h''⟩

theorem Alone.put {t : RoomTask} (hsole : Sole k op pc s) (ht : s.rooms r = some t) (hat : AtRest t) (hactor : t.actor = a)
    (hrest : ∀ x t, x ≠ r → s.rooms x = some t → AtRest t)
    (hactors : ∀ x, x ≠ r → (s.rooms x).map RoomTask.actor = rooms.actors x) (hregistry : s.registry = rooms.registry) :
    Alone (rooms.put r a) k op pc s := by
  refine ⟨hsole, fun x t' ht' => ?_, fun x => ?_, hregistry⟩
  · by_cases hx : x = r
    · subst hx
      obtain rfl := Option.some.inj (ht.symm.trans ht')
      exact hat
    · exact hrest x t' hx ht'
  · by_cases hx : x = r
    · subst hx
      rw [ht, Option.map_some, hactor, Rooms.put_self]
    · rw [Rooms.put_of_ne hx]
      exact hactors x hx

theorem Busy.settles (config : RoomServiceConfig) (h : Busy rooms r a [] stop k op pc s) (hstop : stop = a.closed) :
    ∃ s', Reaches config s s' ∧ Alone (rooms.put r a) k op pc s' := by
  obtain ⟨t, ht, hactor, hqueue, houtbox, hstopping, hreceiver⟩ := h.task
  have hflag : t.stopping = t.actor.closed := by rw [hstopping, hstop, hactor]
  cases hclosed : a.closed with
  | false =>
      have hat : AtRest t := ⟨hqueue, houtbox, hflag, by rw [hreceiver, hactor, hclosed, Bool.not_false]⟩
      exact ⟨s, .refl, .put h.sole ht hat hactor h.rest h.actors h.registry⟩
  | true =>
      have hkeep : (s.calls.mapIdx fun j c => if j ∈ t.queue.filterMap replyOf then c.lose r else c) = s.calls := by
        apply List.ext_getElem?
        intro j
        rw [List.getElem?_mapIdx, hqueue]
        simp
      refine ⟨s.update r fun task => { task with receiver := false, queue := [] }, .single ⟨.terminate r, rfl, ?_⟩, ?_⟩
      · simp only [Service.State.step, ht, hreceiver, hstopping, hstop, hclosed, houtbox]
        exact congrArg (fun calls => some { s.update r _ with calls := calls }) hkeep
      · refine .put ⟨h.sole.call, h.sole.others⟩ (update_this ht) ⟨rfl, houtbox, hflag, ?_⟩ hactor ?_ ?_ h.registry
        · rw [hactor, hclosed, Bool.not_true]
        · intro x t' hx ht'
          exact h.rest x t' hx ((update_other hx).symm.trans ht')
        · intro x hx
          rw [update_other hx]
          exact h.actors x hx

/-- **A command and its answer**: the call sends it, the actor handles it and performs its effects, and all is at rest
again. -/
theorem Alone.ask {command : RoomCommand CallId} (h : Alone rooms k op pc s) (ha : rooms.actors r = some a) (hinv : a.Inv)
    (hopen : a.closed = false) (hadvance : ∀ sent, advance config s k ⟨op, pc, sent⟩ = some (.enqueue r command, pc'))
    (hanswers : ∀ effect ∈ (a.handle command).2.1, AnswersTo k effect) :
    ∃ s', Reaches config s s' ∧
      Alone (rooms.put r (a.handle command).1) k op ((a.handle command).2.1.foldl (answered r) pc') s' := by
  obtain ⟨sent, hc⟩ := h.sole.call
  obtain ⟨t, ht, rfl⟩ := Option.map_eq_some_iff.mp ((h.actors r).trans ha)
  have hat := h.rest r t ht
  have hsend : Inner config s (s.move k (.enqueue r command) pc') := by
    refine ⟨.next k, rfl, ?_⟩
    simp only [Service.State.step, hc, hadvance sent, Option.map_some]
  have hpushed : (s.move k (.enqueue r command) pc').rooms r = some (t.push command) := update_this ht
  have hqueue : (t.push command).queue = [command] := by
    show t.queue ++ [command] = _
    rw [hat.queue, List.nil_append]
  have hidle : (t.push command).idle = true := by
    show (t.receiver && !t.stopping && t.outbox.isEmpty) = true
    rw [hat.receiver, hat.stopping, hat.outbox, hopen]
    rfl
  have hprocess : Inner config (s.move k (.enqueue r command) pc')
      ((s.move k (.enqueue r command) pc').update r fun task => task.process command []) := by
    refine ⟨.process r, rfl, ?_⟩
    simp only [Service.State.step, hpushed, hidle, hqueue]
  have hsole := h.sole.move (.enqueue r command) pc'
  have hbusy : Busy rooms r (t.actor.handle command).1 (t.actor.handle command).2.1 (t.actor.handle command).2.2 k op pc'
      ((s.move k (.enqueue r command) pc').update r fun task => task.process command []) := by
    refine ⟨⟨hsole.call, hsole.others⟩, ?_, ?_, ?_, h.registry⟩
    · refine ⟨_, update_this hpushed, rfl, rfl, rfl, rfl, ?_⟩
      show t.receiver = true
      rw [hat.receiver, hopen, Bool.not_false]
    · intro x t' hx ht'
      rw [update_other hx] at ht'
      exact h.rest x t' ((update_other hx).symm.trans ht')
    · intro x hx
      rw [update_other hx]
      exact (congrArg _ (update_other hx)).trans (h.actors x)
  obtain ⟨s', hperformed, h'⟩ := hbusy.performAll config hanswers
  have hstop := ((handle_handled hinv hopen command).inv hinv hopen).2.1
  obtain ⟨s'', hsettled, h''⟩ := h'.settles config hstop.symm
  exact ⟨s'', .head hsend (.head hprocess (hperformed.trans hsettled)), h''⟩

/-! ## `join` -/

theorem Alone.gate (h : Alone rooms k op pc s) (hcapacity : 0 < config.commandCapacity) (ha : rooms.actors r = some a)
    (hopen : a.closed = false) : s.gate config r = .open := by
  obtain ⟨t, ht, rfl⟩ := Option.map_eq_some_iff.mp ((h.actors r).trans ha)
  have hat := h.rest r t ht
  unfold Service.State.gate
  rw [ht]
  dsimp only
  rw [if_neg (by rw [hat.receiver, hopen]; decide), hat.queue, List.length_nil, if_pos hcapacity]

theorem send_eq (ha : rooms.actors r = some a) (hopen : a.closed = false) (command : RoomCommand CallId) :
    rooms.send r (mapCommand (fun _ => ()) command) =
      some (rooms.put r (a.handle command).1, (a.handle command).2.1.map (mapEffect fun _ => ())) := by
  unfold Rooms.send
  rw [ha]
  dsimp only
  rw [if_neg (by rw [hopen]; decide), handle_map]
  rfl

variable {a' : RoomActor} {effects : List (Effect CallId)} {p : PlayerId} {nickname reason : String} {sink : SinkId}

theorem Handled.answersTo {command : RoomCommand CallId} (hh : Handled a command a' effects stop)
    (hreply : ∀ reply, replyOf command = some reply → reply = k) : ∀ effect ∈ effects, AnswersTo k effect := by
  cases hh with
  | joinNew | joinAgain | joinFull => simp [AnswersTo, hreply _ rfl]
  | leaveOutsider | leaveOthers | leaveLast => simp [AnswersTo, hreply _ rfl]
  | chatIgnored | chatSent | close => simp [AnswersTo]

theorem Handled.joinAnswer (hh : Handled a (.join p nickname sink k) a' effects stop) (r : RoomId) :
    ∃ outcome, effects.foldl (answered r) (.joinWait r none) = .joinWait r (some (.answer outcome)) ∧
      Rooms.joinReply (effects.map (mapEffect fun _ => ())) = some outcome := by
  cases hh with
  | joinNew => exact ⟨.ok (), by simp [answered], rfl⟩
  | joinAgain => exact ⟨.ok (), by simp [answered], rfl⟩
  | joinFull => exact ⟨.error _, by simp [answered], rfl⟩

/-- Where a `join` ends. -/
def joinDone (creates : Bool) (r : RoomId) : Except AppError Unit → Pc
  | .ok _ => .returned (some r)
  | .error err => joinFailed creates r err

theorem Alone.join_answered {target : Option RoomId} (config : RoomServiceConfig) {outcome : Except AppError Unit}
    (h : Alone rooms k (.joinOrCreate target p nickname sink) (.joinWait r (some (.answer outcome))) s) :
    ∃ s', Reaches config s s' ∧
      Alone rooms k (.joinOrCreate target p nickname sink) (joinDone target.isNone r outcome) s' := by
  cases outcome with
  | error err =>
      have hadvance : ∀ sent, advance config s k ⟨.joinOrCreate target p nickname sink,
          .joinWait r (some (.answer (.error err))), sent⟩ = some (.skip, joinFailed target.isNone r err) := fun _ => rfl
      obtain ⟨s', hinner, h'⟩ := h.next hadvance nofun
      exact ⟨s', .single hinner, h'⟩
  | ok =>
      have hanswer : ∀ sent, advance config s k ⟨.joinOrCreate target p nickname sink,
          .joinWait r (some (.answer (.ok ()))), sent⟩ = some (.skip, .joinPublish r) := fun _ => rfl
      obtain ⟨s', hinner, h'⟩ := h.next hanswer nofun
      have hpublish : ∀ sent, advance config s' k ⟨.joinOrCreate target p nickname sink, .joinPublish r, sent⟩ =
          some (.publish (.playerJoinedRoom r p), .returned (some r)) := fun _ => rfl
      obtain ⟨s'', hinner', h''⟩ := h'.next hpublish nofun
      exact ⟨s'', .head hinner (.single hinner'), h''⟩

/-- **`join` alone** is the atomic `join`. -/
theorem Alone.join {target : Option RoomId} (h : Alone rooms k (.joinOrCreate target p nickname sink) (.joinLookup r) s)
    (hinv : rooms.Inv) (hcapacity : 0 < config.commandCapacity) :
    ∃ s', Reaches config s s' ∧ Alone (rooms.join r p nickname sink).1 k (.joinOrCreate target p nickname sink)
      (joinDone target.isNone r (rooms.join r p nickname sink).2) s' := by
  obtain ⟨hfound, hrooms, hact⟩ := h.handleFor r
  cases hfor : (rooms.handleFor r).1 with
  | false =>
      have hadvance : ∀ sent, advance config s k ⟨.joinOrCreate target p nickname sink, .joinLookup r, sent⟩ =
          some ((s.handleFor r).2, joinFailed target.isNone r (.notFound "房间不存在")) := by
        intro sent
        show advanceJoin config s k target.isNone p nickname sink (.joinLookup r) = _
        rw [advanceJoin, show s.handleFor r = (false, (s.handleFor r).2) from Prod.ext (hfound.trans hfor) rfl]
      obtain ⟨s', hinner, h'⟩ := h.next hadvance hact
      refine ⟨s', .single hinner, ?_⟩
      rw [hrooms] at h'
      unfold Rooms.join
      rw [show rooms.handleFor r = (false, (rooms.handleFor r).2) from Prod.ext hfor rfl]
      exact h'
  | true =>
      obtain ⟨hfor', a, ha, hopen⟩ | ⟨hnone | hnone, -⟩ := Rooms.handleFor_cases hinv r
      · have hadvance : ∀ sent, advance config s k ⟨.joinOrCreate target p nickname sink, .joinLookup r, sent⟩ =
            some ((s.handleFor r).2, .joinSend r) := by
          intro sent
          show advanceJoin config s k target.isNone p nickname sink (.joinLookup r) = _
          rw [advanceJoin, show s.handleFor r = (true, (s.handleFor r).2) from Prod.ext (hfound.trans hfor) rfl]
        obtain ⟨s₁, hlookup, h₁⟩ := h.next hadvance hact
        rw [hrooms, hfor'] at h₁
        have hsend : ∀ sent, advance config s₁ k ⟨.joinOrCreate target p nickname sink, .joinSend r, sent⟩ =
            some (.enqueue r (.join p nickname sink k), .joinWait r none) := by
          intro sent
          show advanceJoin config s₁ k target.isNone p nickname sink (.joinSend r) = _
          rw [advanceJoin, h₁.gate hcapacity ha hopen]
        have hhandled := handle_handled (hinv.actors r a ha) hopen (.join p nickname sink k)
        obtain ⟨outcome, hpc, hreply⟩ := Handled.joinAnswer hhandled r
        obtain ⟨s₂, hasked, h₂⟩ := h₁.ask ha (hinv.actors r a ha) hopen hsend
          (Handled.answersTo hhandled fun _ heq => (Option.some.inj heq).symm)
        rw [hpc] at h₂
        obtain ⟨s₃, hanswered, h₃⟩ := h₂.join_answered config
        refine ⟨s₃, .head hlookup (hasked.trans hanswered), ?_⟩
        have hatomic : rooms.join r p nickname sink = (rooms.put r (a.handle (.join p nickname sink k)).1, outcome) := by
          unfold Rooms.join
          rw [hfor']
          dsimp only
          rw [show RoomCommand.join p nickname sink () = mapCommand (fun _ => ()) (.join p nickname sink k) from rfl,
            send_eq ha hopen]
          dsimp only
          rw [hreply]
        rw [hatomic]
        exact h₃
      · rw [hnone] at hfor
        cases hfor
      · rw [hnone] at hfor
        cases hfor

/-! ## `leave` -/

theorem Handled.leaveAnswer (hh : Handled a (.leave p reason k) a' effects stop) (r : RoomId) (todo : List RoomId) :
    ∃ left, effects.foldl (answered r) (.leaveWait r none todo) = .leaveWait r (some (.answer (.ok left))) todo ∧
      Rooms.leaveReply (effects.map (mapEffect fun _ => ())) = some (.ok left) := by
  cases hh with
  | leaveOutsider => exact ⟨false, by simp [answered], rfl⟩
  | leaveOthers => exact ⟨true, by simp [answered], rfl⟩
  | leaveLast => exact ⟨true, by simp [answered], rfl⟩

/-- The calls whose steps are those of `leave`. -/
def Leaves (p : PlayerId) (reason : String) (op : Op) : Prop := (∃ room, op = .leave room p reason) ∨ op = .leaveAll p reason

theorem Leaves.advance (hop : Leaves p reason op) (config : RoomServiceConfig) (s : Service.State) (pc : Pc)
    (sent : List RoomId) : Service.advance config s k ⟨op, pc, sent⟩ = advanceLeave config s k p reason pc := by
  obtain ⟨room, rfl⟩ | rfl := hop
  · rfl
  · rfl

theorem Alone.leave_answered (config : RoomServiceConfig) {left : Bool} {todo : List RoomId} (hop : Leaves p reason op)
    (h : Alone rooms k op (.leaveWait r (some (.answer (.ok left))) todo) s) :
    ∃ s', Reaches config s s' ∧ Alone (if rooms.isClosed r then rooms.forget r else rooms) k op (leaveNext todo) s' := by
  have hclosed := h.isClosed r
  have hrest : ∀ {rooms : Rooms} {s : Service.State},
      Alone rooms k op (if left then .leavePublish r todo else leaveNext todo) s →
        ∃ s', Reaches config s s' ∧ Alone rooms k op (leaveNext todo) s' := by
    intro rooms s h
    cases left with
    | false => exact ⟨s, .refl, h⟩
    | true =>
        have hpublish : ∀ sent, advance config s k ⟨op, .leavePublish r todo, sent⟩ =
            some (.publish (.playerLeftRoom r p reason), leaveNext todo) := fun sent => hop.advance config s _ sent
        obtain ⟨s', hinner, h'⟩ := h.next hpublish nofun
        exact ⟨s', .single hinner, h'⟩
  cases hisClosed : rooms.isClosed r with
  | true =>
      rw [hisClosed] at hclosed
      have hanswer : ∀ sent, advance config s k ⟨op, .leaveWait r (some (.answer (.ok left))) todo, sent⟩ =
          some (.skip, .leaveForget r left todo) := by
        intro sent
        rw [hop.advance, advanceLeave, if_pos hclosed]
      obtain ⟨s₁, hinner, h₁⟩ := h.next hanswer nofun
      have hforget : ∀ sent, advance config s₁ k ⟨op, .leaveForget r left todo, sent⟩ =
          some (.forget r, if left then .leavePublish r todo else leaveNext todo) := fun sent => hop.advance config s₁ _ sent
      obtain ⟨s₂, hinner', h₂⟩ := h₁.next hforget nofun
      obtain ⟨s₃, hreaches, h₃⟩ := hrest h₂
      exact ⟨s₃, .head hinner (.head hinner' hreaches), h₃⟩
  | false =>
      rw [hisClosed] at hclosed
      have hanswer : ∀ sent, advance config s k ⟨op, .leaveWait r (some (.answer (.ok left))) todo, sent⟩ =
          some (.skip, if left then .leavePublish r todo else leaveNext todo) := by
        intro sent
        rw [hop.advance, advanceLeave, if_neg (by rw [hclosed]; decide)]
        cases left <;> rfl
      obtain ⟨s₁, hinner, h₁⟩ := h.next hanswer nofun
      obtain ⟨s₂, hreaches, h₂⟩ := hrest h₁
      exact ⟨s₂, .head hinner hreaches, h₂⟩

/-- **`leave` alone** is the atomic `leave`. -/
theorem Alone.leave {todo : List RoomId} (h : Alone rooms k op (.leaveLookup r todo) s) (hop : Leaves p reason op)
    (hinv : rooms.Inv) (hcapacity : 0 < config.commandCapacity) :
    ∃ s', Reaches config s s' ∧ Alone (rooms.leave r p reason).1 k op (leaveNext todo) s' := by
  obtain ⟨hfound, hrooms, hact⟩ := h.handleFor r
  cases hfor : (rooms.handleFor r).1 with
  | false =>
      have hadvance : ∀ sent, advance config s k ⟨op, .leaveLookup r todo, sent⟩ =
          some ((s.handleFor r).2, leaveNext todo) := by
        intro sent
        rw [hop.advance, advanceLeave, show s.handleFor r = (false, (s.handleFor r).2) from Prod.ext (hfound.trans hfor) rfl]
      obtain ⟨s', hinner, h'⟩ := h.next hadvance hact
      refine ⟨s', .single hinner, ?_⟩
      rw [hrooms] at h'
      unfold Rooms.leave
      rw [show rooms.handleFor r = (false, (rooms.handleFor r).2) from Prod.ext hfor rfl]
      exact h'
  | true =>
      obtain ⟨hfor', a, ha, hopen⟩ | ⟨hnone | hnone, -⟩ := Rooms.handleFor_cases hinv r
      · have hadvance : ∀ sent, advance config s k ⟨op, .leaveLookup r todo, sent⟩ =
            some ((s.handleFor r).2, .leaveSend r todo) := by
          intro sent
          rw [hop.advance, advanceLeave, show s.handleFor r = (true, (s.handleFor r).2) from Prod.ext (hfound.trans hfor) rfl]
        obtain ⟨s₁, hlookup, h₁⟩ := h.next hadvance hact
        rw [hrooms, hfor'] at h₁
        have hsend : ∀ sent, advance config s₁ k ⟨op, .leaveSend r todo, sent⟩ =
            some (.enqueue r (.leave p reason k), .leaveWait r none todo) := by
          intro sent
          rw [hop.advance, advanceLeave, h₁.gate hcapacity ha hopen]
        have hhandled := handle_handled (hinv.actors r a ha) hopen (.leave p reason k)
        obtain ⟨left, hpc, hreply⟩ := Handled.leaveAnswer hhandled r todo
        obtain ⟨s₂, hasked, h₂⟩ := h₁.ask ha (hinv.actors r a ha) hopen hsend
          (Handled.answersTo hhandled fun _ heq => (Option.some.inj heq).symm)
        rw [hpc] at h₂
        obtain ⟨s₃, hanswered, h₃⟩ := h₂.leave_answered config hop
        refine ⟨s₃, .head hlookup (hasked.trans hanswered), ?_⟩
        unfold Rooms.leave
        rw [hfor']
        dsimp only
        rw [show RoomCommand.leave p reason () = mapCommand (fun _ => ()) (.leave p reason k) from rfl, send_eq ha hopen]
        dsimp only
        rw [hreply]
        exact h₃
      · rw [hnone] at hfor
        cases hfor
      · rw [hnone] at hfor
        cases hfor

/-- **The loop of `leave_all`.** -/
theorem Alone.leaveEach {order : List RoomId} (h : Alone rooms k op (leaveNext order) s) (hop : Leaves p reason op)
    (hinv : rooms.Inv) (hcapacity : 0 < config.commandCapacity) :
    ∃ s', Reaches config s s' ∧ Alone (rooms.leaveEach p reason order).1 k op (.returned none) s' := by
  induction order generalizing rooms s with
  | nil => exact ⟨s, .refl, h⟩
  | cons r order ih =>
      obtain ⟨hok, hleft⟩ := Rooms.leave_spec hinv r p reason
      obtain ⟨s₁, hreaches, h₁⟩ := h.leave hop hinv hcapacity
      obtain ⟨s₂, hreaches', h₂⟩ := ih h₁ hleft.inv
      refine ⟨s₂, hreaches.trans hreaches', ?_⟩
      unfold Rooms.leaveEach
      rw [show rooms.leave r p reason = ((rooms.leave r p reason).1, .ok ()) from Prod.ext rfl hok]
      exact h₂

/-! ## `close_all` -/

theorem Alone.gate_closed (h : Alone rooms k op pc s) (hclosed : ∀ a, rooms.actors r = some a → a.closed = true) :
    s.gate config r = .closed := by
  unfold Service.State.gate
  cases ht : s.rooms r with
  | none => rfl
  | some t =>
      have ha : rooms.actors r = some t.actor := by rw [← h.actors r, ht, Option.map_some]
      exact if_pos (by rw [(h.rest r t ht).receiver, hclosed _ ha, Bool.not_true])

/-- **The loop of `close_all`.** -/
theorem Alone.closeEach {order : List RoomId} (h : Alone rooms k (.closeAll reason) (closeNext order) s)
    (hactors : ∀ r a, rooms.actors r = some a → a.Inv) (hcapacity : 0 < config.commandCapacity) :
    ∃ s', Reaches config s s' ∧ Alone (rooms.closeEach reason order) k (.closeAll reason) (.returned none) s' := by
  induction order generalizing rooms s with
  | nil => exact ⟨s, .refl, h⟩
  | cons r order ih =>
      unfold Rooms.closeEach
      by_cases hsome : ∃ a, rooms.actors r = some a ∧ a.closed = false
      · obtain ⟨a, ha, hopen⟩ := hsome
        have hsend : ∀ sent, advance config s k ⟨.closeAll reason, .closeSend r order, sent⟩ =
            some (.enqueue r (.close reason), closeNext order) := by
          intro sent
          show advanceClose config s reason (.closeSend r order) = _
          rw [advanceClose, h.gate hcapacity ha hopen]
        have hhandled := handle_handled (hactors r a ha) hopen (.close reason : RoomCommand CallId)
        obtain ⟨s₁, hasked, h₁⟩ := h.ask ha (hactors r a ha) hopen hsend (Handled.answersTo hhandled (by simp [replyOf]))
        rw [show RoomCommand.close reason = mapCommand (fun _ => ()) (.close reason : RoomCommand CallId) from rfl,
          send_eq ha hopen]
        have hinv' := (hhandled.inv (hactors r a ha) hopen).1
        generalize a.handle (.close reason : RoomCommand CallId) = handled at hhandled h₁ hinv' ⊢
        obtain ⟨a', effects, stop⟩ := handled
        have hactors' : ∀ x b, (rooms.put r a').actors x = some b → b.Inv := by
          intro x b hb
          by_cases hx : x = r
          · subst hx
            obtain rfl := Option.some.inj ((Rooms.put_self rooms x a').symm.trans hb)
            exact hinv'
          · exact hactors x b ((Rooms.put_of_ne hx).symm.trans hb)
        cases hhandled
        obtain ⟨s₂, hreaches, h₂⟩ := ih h₁ hactors'
        exact ⟨s₂, hasked.trans hreaches, h₂⟩
      · have hclosed : ∀ a, rooms.actors r = some a → a.closed = true := fun a ha =>
          Bool.eq_true_of_not_eq_false fun hopen => hsome ⟨a, ha, hopen⟩
        have hskip : ∀ sent, advance config s k ⟨.closeAll reason, .closeSend r order, sent⟩ =
            some (.skip, closeNext order) := by
          intro sent
          show advanceClose config s reason (.closeSend r order) = _
          rw [advanceClose, h.gate_closed hclosed]
        obtain ⟨s₁, hinner, h₁⟩ := h.next hskip (by simp)
        obtain ⟨s₂, hreaches, h₂⟩ := ih h₁ hactors
        refine ⟨s₂, .head hinner hreaches, ?_⟩
        have hnone : rooms.send r (.close reason) = none := by
          unfold Rooms.send
          cases ha : rooms.actors r with
          | none => rfl
          | some a => exact if_pos (hclosed a ha)
        rw [hnone]
        exact h₂

/-! ## The operations -/

/-- Where a call of `join_or_create` ends. -/
def joined : Except AppError RoomId → Pc
  | .ok room => .returned (some room)
  | .error err => .failed err

theorem Alone.opens {fresh : RoomId} (h : Alone rooms k (.joinOrCreate none p nickname sink) .create s)
    (hfresh : rooms.actors fresh = none) : ∃ s', Reaches config s s' ∧
      Alone (rooms.opened config fresh) k (.joinOrCreate none p nickname sink) (.joinLookup fresh) s' := by
  obtain ⟨sent, hc⟩ := h.sole.call
  have hnone : s.rooms fresh = none := Option.map_eq_none_iff.mp ((h.actors fresh).trans hfresh)
  have hopened : Inner config s (s.opened config k fresh) := by
    refine ⟨.openRoom k fresh, rfl, ?_⟩
    simp only [Service.State.step, hc, hnone, Option.isNone_none, if_true]
  have h₁ : Alone (rooms.put fresh (RoomActor.spawn (Room.open fresh config.maxPlayers))) k
      (.joinOrCreate none p nickname sink) (.insert fresh) (s.opened config k fresh) := by
    have hsole : Sole k (.joinOrCreate none p nickname sink) (.insert fresh) (s.opened config k fresh) := by
      have := h.sole.modify (f := fun c => { c with pc := .insert fresh }) fun _ => rfl
      exact ⟨this.call, this.others⟩
    refine .put hsole (Function.update_self fresh _ s.rooms) ⟨rfl, rfl, rfl, rfl⟩ rfl ?_ ?_ h.registry
    · intro x t hx ht
      exact h.rest x t ((Function.update_of_ne hx _ s.rooms).symm.trans ht)
    · intro x hx
      exact (congrArg _ (Function.update_of_ne hx _ s.rooms)).trans (h.actors x)
  have hinsert : ∀ sent, advance config (s.opened config k fresh) k ⟨.joinOrCreate none p nickname sink, .insert fresh, sent⟩ =
      some (.register fresh, .joinLookup fresh) := fun _ => rfl
  obtain ⟨s₂, hinner, h₂⟩ := h₁.next hinsert nofun
  exact ⟨s₂, .head hopened (.single hinner), h₂⟩

theorem createAndJoin_eq {fresh : RoomId} : rooms.createAndJoin config fresh p nickname sink =
    match (rooms.opened config fresh).join fresh p nickname sink with
    | (s, .ok _) => (s, .ok fresh)
    | (s, .error err) => ((s.forget fresh).hangUp fresh, .error err) := rfl

/-- **`join_or_create` alone** is the atomic one. -/
theorem Alone.joinOrCreate {target : Option RoomId} {fresh : RoomId}
    (h : Alone rooms k (.joinOrCreate target p nickname sink) (Op.joinOrCreate target p nickname sink).start s)
    (hinv : rooms.Inv) (hcapacity : 0 < config.commandCapacity) (hfresh : rooms.actors fresh = none) :
    ∃ s', Reaches config s s' ∧ Alone (rooms.joinOrCreate config target fresh p nickname sink).1 k
      (.joinOrCreate target p nickname sink) (joined (rooms.joinOrCreate config target fresh p nickname sink).2) s' := by
  cases target with
  | some room =>
      obtain ⟨s', hreaches, h'⟩ := Alone.join h hinv hcapacity
      refine ⟨s', hreaches, ?_⟩
      unfold Rooms.joinOrCreate
      dsimp only
      generalize rooms.join room p nickname sink = outcome at h' ⊢
      obtain ⟨rooms', outcome⟩ := outcome
      cases outcome <;> exact h'
  | none =>
      obtain ⟨s₁, hopened, h₁⟩ := h.opens hfresh
      have hinv₁ := Rooms.opened_inv config hinv fresh
      obtain ⟨s₂, hjoined, h₂⟩ := h₁.join hinv₁ hcapacity
      refine ⟨s₂, hopened.trans hjoined, ?_⟩
      unfold Rooms.joinOrCreate
      dsimp only
      obtain ⟨-, ⟨err, -, -, hfull⟩ | ⟨hok, -⟩⟩ := Rooms.join_spec hinv₁ fresh p nickname sink
      · have hplace := hfull _ (Function.update_self fresh _ rooms.actors) rfl
        exact absurd hplace (Nat.not_le_of_lt (Nat.lt_of_lt_of_le Nat.zero_lt_one (Nat.le_max_right _ _)))
      · rw [hok] at h₂
        rw [createAndJoin_eq,
          show (rooms.opened config fresh).join fresh p nickname sink = (_, .ok ()) from Prod.ext rfl hok]
        exact h₂

/-- **`leave_all` alone** is the atomic one. -/
theorem Alone.leaveAll {order : List RoomId} (h : Alone rooms k (.leaveAll p reason) .liveHandles s) (hinv : rooms.Inv)
    (hcapacity : 0 < config.commandCapacity) (horder : order.Perm rooms.retainLive.registry) :
    ∃ s', Reaches config s s' ∧ Alone (rooms.leaveAll p reason order).1 k (.leaveAll p reason) (.returned none) s' := by
  obtain ⟨sent, hc⟩ := h.sole.call
  have hretain : Alone (rooms.apply .retain) k (.leaveAll p reason) (leaveNext order)
      (s.move k .retain (leaveNext order)) := h.move (by simp) (leaveNext order)
  have hinner : Inner config s (s.move k .retain (leaveNext order)) := by
    refine ⟨.liveHandles k order, rfl, ?_⟩
    have hperm : order.Perm (s.apply .retain).registry := by
      rw [show (s.apply .retain).registry = rooms.retainLive.registry from hretain.registry]
      exact horder
    simp only [Service.State.step, hc, if_pos hperm]
  obtain ⟨s', hreaches, h'⟩ := hretain.leaveEach (Or.inr rfl) (Rooms.retainLive_inv hinv) hcapacity
  exact ⟨s', .head hinner hreaches, h'⟩

/-- **`close_all` alone** is the atomic one. -/
theorem Alone.closeAll {order : List RoomId} (h : Alone rooms k (.closeAll reason) .drain s) (hinv : rooms.Inv)
    (hcapacity : 0 < config.commandCapacity) (horder : order.Perm rooms.registry) :
    ∃ s', Reaches config s s' ∧ Alone (rooms.closeAll reason order) k (.closeAll reason) (.returned none) s' := by
  obtain ⟨sent, hc⟩ := h.sole.call
  have hdrain : Alone (rooms.apply .drain) k (.closeAll reason) (closeNext order)
      (s.move k .drain (closeNext order)) := h.move (by simp) (closeNext order)
  have hinner : Inner config s (s.move k .drain (closeNext order)) := by
    refine ⟨.drain k order, rfl, ?_⟩
    have hperm : order.Perm s.registry := by
      rw [h.registry]
      exact horder
    simp only [Service.State.step, hc, if_pos hperm]
  obtain ⟨s', hreaches, h'⟩ := hdrain.closeEach hinv.actors hcapacity
  exact ⟨s', .head hinner hreaches, h'⟩

/-! ## Between the operations -/

/-- No call runs, all rooms are at rest, with the actors and the registry of `rooms`. -/
structure Resting (rooms : Rooms) (s : Service.State) : Prop where
  calls : ∀ c ∈ s.calls, c.pc.over = true
  rest : ∀ r t, s.rooms r = some t → AtRest t
  actors : ∀ r, (s.rooms r).map RoomTask.actor = rooms.actors r
  registry : s.registry = rooms.registry

theorem Resting.start (h : Resting rooms s) (op : Op) :
    Alone rooms s.calls.length op op.start { s with calls := s.calls ++ [⟨op, op.start, []⟩] } := by
  refine ⟨⟨⟨[], by simp⟩, fun j c hj hc => ?_⟩, h.rest, h.actors, h.registry⟩
  obtain hold | ⟨hlast, -⟩ := Indexed.append_cases hc
  · exact h.calls c (List.mem_of_getElem? hold)
  · exact absurd hlast hj

theorem Alone.resting (h : Alone rooms k op pc s) (hover : pc.over = true) : Resting rooms s := by
  refine ⟨fun c hc => ?_, h.rest, h.actors, h.registry⟩
  obtain ⟨j, hj⟩ := List.getElem?_of_mem hc
  by_cases hjk : j = k
  · subst hjk
    obtain ⟨sent, hcall⟩ := h.sole.call
    obtain rfl := Option.some.inj (hcall.symm.trans hj)
    exact hover
  · exact h.sole.others j c hjk hj

end

end LongshipX.Sequential
