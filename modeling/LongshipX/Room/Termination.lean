import LongshipX.Lib.Quiescence
import LongshipX.Room.Answers

/-!
# The service does a bounded amount of work

Each call has a number of steps before it, and each command that it sends costs its actor a number more. Only
`leave_all` and `close_all` have as many steps before them as there are rooms in the registry when they look;
that number is bounded by the rooms that are registered already and the calls that may still register one.

* `Pc.work`, `RoomTask.work`, `State.work` : what is still to be done, at most;
* `Opened` : the rooms that were ever opened, no more than there are calls;
* `ranks` : every step but a new call leaves less to do; `runs_bounded` : so no run goes on for ever.
-/

namespace LongshipX.Service
open RoomActor

def Pc.opening : Pc → Nat
  | .create => 1
  | .insert _ => 1
  | _ => 0

def Pc.reached : Pc → Bool
  | .create => false
  | .insert _ => false
  | .cancelled => false
  | _ => true

def Pc.creating : Pc → Nat
  | .create => 1
  | _ => 0

/-- The steps a call has before it, and those it causes: a command is handled and its effects are performed
in at most four. `rooms` bounds the registry. -/
def Pc.work (rooms : Nat) : Pc → Nat
  | .create => 13
  | .insert _ => 9
  | .joinLookup _ => 8
  | .joinSend _ => 7
  | .joinWait _ _ => 2
  | .joinPublish _ => 1
  | .undo _ _ => 1
  | .liveHandles => 9 * rooms + 1
  | .leaveLookup _ todo => 9 * todo.length + 9
  | .leaveSend _ todo => 9 * todo.length + 8
  | .leaveWait _ _ todo => 9 * todo.length + 3
  | .leaveForget _ _ todo => 9 * todo.length + 2
  | .leavePublish _ todo => 9 * todo.length + 1
  | .chatLookup _ => 6
  | .chatSend _ => 5
  | .drain => 5 * rooms + 1
  | .closeSend _ todo => 5 * todo.length + 5
  | .returned _ => 0
  | .failed _ => 0
  | .cancelled => 0

def Act.load : Act → Nat
  | .enqueue _ _ => 4
  | _ => 0

def RoomTask.work (t : RoomTask) : Nat :=
  4 * t.queue.length + t.outbox.length + (if t.stopping then 0 else 2) + if t.receiver then 1 else 0

/-- The rooms that `leave_all` or `close_all` can meet in the registry from now on, at most. -/
def State.prospects (s : State) : Nat := s.registry.length + (s.calls.map fun c => c.pc.opening).sum

/-- **What is still to be done**, when these are the rooms. -/
def State.work (s : State) (ids : Finset RoomId) : Nat :=
  (s.calls.map fun c => c.pc.work s.prospects).sum + ∑ r ∈ ids, (s.rooms r).elim 0 RoomTask.work

/-- The rooms that were ever opened. Each came from a call, so they are no more than the calls. -/
structure Opened (s : State) (ids : Finset RoomId) : Prop where
  rooms : ∀ r, r ∈ ids ↔ (s.rooms r).isSome = true
  calls : ids.card + (s.calls.map fun c => c.pc.creating).sum ≤ s.calls.length

/-- A step after which less is to be done. -/
structure Eases (s s' : State) (ids ids' : Finset RoomId) : Prop where
  opened : Opened s' ids'
  work : s'.work ids' < s.work ids
  prospects : s'.prospects ≤ s.prospects
  calls : s'.calls.length = s.calls.length

/-! ## The work of a call -/

theorem Pc.work_mono {p q : Nat} (h : p ≤ q) (pc : Pc) : pc.work p ≤ pc.work q := by
  cases pc with
  | liveHandles | drain => simp only [Pc.work]; omega
  | create | insert | joinLookup | joinSend | joinWait | joinPublish | undo | leaveLookup | leaveSend | leaveWait
  | leaveForget | leavePublish | chatLookup | chatSend | closeSend | returned | failed | cancelled => exact Nat.le_refl _

theorem Pc.work_pos {pc : Pc} (h : pc.over = false) (p : Nat) : 0 < pc.work p := by
  cases pc with
  | returned | failed | cancelled => cases h
  | create | insert | joinLookup | joinSend | joinWait | joinPublish | undo | liveHandles | leaveLookup | leaveSend
  | leaveWait | leaveForget | leavePublish | chatLookup | chatSend | drain | closeSend => simp [Pc.work]

@[simp] theorem work_leaveNext (p : Nat) (todo : List RoomId) : (leaveNext todo).work p = 9 * todo.length := by
  cases todo with
  | nil => rfl
  | cons r todo => simp only [leaveNext, Pc.work, List.length_cons]; omega

@[simp] theorem work_closeNext (p : Nat) (todo : List RoomId) : (closeNext todo).work p = 5 * todo.length := by
  cases todo with
  | nil => rfl
  | cons r todo => simp only [closeNext, Pc.work, List.length_cons]; omega

theorem work_joinFailed (p : Nat) (creates : Bool) (r : RoomId) (err : AppError) : (joinFailed creates r err).work p ≤ 1 := by
  cases creates <;> simp [joinFailed, Pc.work]

@[simp] theorem reached_leaveNext (todo : List RoomId) : (leaveNext todo).reached = true := by
  cases todo <;> rfl

@[simp] theorem reached_closeNext (todo : List RoomId) : (closeNext todo).reached = true := by
  cases todo <;> rfl

@[simp] theorem reached_joinFailed (creates : Bool) (r : RoomId) (err : AppError) :
    (joinFailed creates r err).reached = true := by
  cases creates <;> rfl

theorem Pc.opening_of_reached {pc : Pc} (h : pc.reached = true) : pc.opening = 0 := by
  cases pc with
  | create | insert => cases h
  | joinLookup | joinSend | joinWait | joinPublish | undo | liveHandles | leaveLookup | leaveSend | leaveWait | leaveForget
  | leavePublish | chatLookup | chatSend | drain | closeSend | returned | failed | cancelled => rfl

theorem creating_le_opening (pc : Pc) : pc.creating ≤ pc.opening := by
  cases pc <;> simp [Pc.creating, Pc.opening]

/-- A call's step does some of the work, and leads to no position from which a room is registered. -/
structure Spends (p : Nat) (before : Pc) (act : Act) (after : Pc) : Prop where
  work : after.work p + act.load < before.work p
  reached : after.reached = true

section
variable {config : RoomServiceConfig} {s s' : State} {k : CallId} {act : Act} {pc : Pc} {p : Nat}

theorem spends_leaveNext {todo : List RoomId} (h : 9 * todo.length + act.load < pc.work p) :
    Spends p pc act (leaveNext todo) :=
  ⟨(work_leaveNext p todo).symm ▸ h, reached_leaveNext todo⟩

theorem spends_closeNext {todo : List RoomId} (h : 5 * todo.length + act.load < pc.work p) :
    Spends p pc act (closeNext todo) :=
  ⟨(work_closeNext p todo).symm ▸ h, reached_closeNext todo⟩

theorem load_handleFor {r : RoomId} {found : Bool} (h : s.handleFor r = (found, act)) : act.load = 0 := by
  obtain ⟨hfor, -⟩ | ⟨hfor, -⟩ | ⟨hfor, -⟩ := handleFor_cases s r
  all_goals
    rw [hfor] at h
    obtain ⟨-, rfl⟩ := Prod.mk.inj h
    rfl

theorem advanceJoin_spends {creates : Bool} {player : PlayerId} {nickname : String} {sink : SinkId} {pc' : Pc}
    (hadvance : advanceJoin config s k creates player nickname sink pc = some (act, pc')) : Spends p pc act pc' := by
  have hfailed : ∀ {r : RoomId} {err : AppError} {act : Act} {pc : Pc}, act.load = 0 → 2 ≤ pc.work p →
      Spends p pc act (joinFailed creates r err) := by
    intro r err act pc hload hwork
    have hle := work_joinFailed p creates r err
    exact ⟨by omega, reached_joinFailed creates r err⟩
  cases pc with
  | insert r | joinPublish r | undo r err =>
      obtain ⟨rfl, rfl⟩ := Prod.mk.inj (Option.some.inj hadvance)
      exact ⟨by simp [Pc.work, Act.load], rfl⟩
  | joinLookup r =>
      simp only [advanceJoin] at hadvance
      split at hadvance
      · next hfor =>
          obtain ⟨rfl, rfl⟩ := Prod.mk.inj (Option.some.inj hadvance)
          exact ⟨by simp [Pc.work, load_handleFor hfor], rfl⟩
      · next hfor =>
          obtain ⟨rfl, rfl⟩ := Prod.mk.inj (Option.some.inj hadvance)
          exact hfailed (load_handleFor hfor) (by simp [Pc.work])
  | joinSend r =>
      simp only [advanceJoin] at hadvance
      split at hadvance
      · obtain ⟨rfl, rfl⟩ := Prod.mk.inj (Option.some.inj hadvance)
        exact ⟨by simp [Pc.work, Act.load], rfl⟩
      · cases hadvance
      · obtain ⟨rfl, rfl⟩ := Prod.mk.inj (Option.some.inj hadvance)
        exact hfailed rfl (by simp [Pc.work])
  | joinWait r reply =>
      obtain _ | (_ | _) | _ := reply
      · cases hadvance
      · obtain ⟨rfl, rfl⟩ := Prod.mk.inj (Option.some.inj hadvance)
        exact hfailed rfl (by simp [Pc.work])
      · obtain ⟨rfl, rfl⟩ := Prod.mk.inj (Option.some.inj hadvance)
        exact ⟨by simp [Pc.work, Act.load], rfl⟩
      · obtain ⟨rfl, rfl⟩ := Prod.mk.inj (Option.some.inj hadvance)
        exact hfailed rfl (by simp [Pc.work])
  | create | liveHandles | leaveLookup | leaveSend | leaveWait | leaveForget | leavePublish | chatLookup | chatSend
  | drain | closeSend | returned | failed | cancelled => cases hadvance

theorem advanceLeave_spends {player : PlayerId} {reason : String} {pc' : Pc}
    (hadvance : advanceLeave config s k player reason pc = some (act, pc')) : Spends p pc act pc' := by
  cases pc with
  | leaveLookup r todo =>
      simp only [advanceLeave] at hadvance
      split at hadvance
      · next hfor =>
          obtain ⟨rfl, rfl⟩ := Prod.mk.inj (Option.some.inj hadvance)
          exact ⟨by simp [Pc.work, load_handleFor hfor], rfl⟩
      · next hfor =>
          obtain ⟨rfl, rfl⟩ := Prod.mk.inj (Option.some.inj hadvance)
          exact spends_leaveNext (by simp [Pc.work, load_handleFor hfor])
  | leaveSend r todo =>
      simp only [advanceLeave] at hadvance
      split at hadvance
      · obtain ⟨rfl, rfl⟩ := Prod.mk.inj (Option.some.inj hadvance)
        exact ⟨by simp [Pc.work, Act.load], rfl⟩
      · cases hadvance
      · split_ifs at hadvance
        all_goals
          obtain ⟨rfl, rfl⟩ := Prod.mk.inj (Option.some.inj hadvance)
          exact ⟨by simp [Pc.work, Act.load], rfl⟩
  | leaveWait r reply todo =>
      obtain _ | (err | left) | _ := reply
      · cases hadvance
      · obtain ⟨rfl, rfl⟩ := Prod.mk.inj (Option.some.inj hadvance)
        exact ⟨by simp [Pc.work, Act.load], rfl⟩
      · simp only [advanceLeave] at hadvance
        split_ifs at hadvance
        · obtain ⟨rfl, rfl⟩ := Prod.mk.inj (Option.some.inj hadvance)
          exact ⟨by simp [Pc.work, Act.load], rfl⟩
        · obtain ⟨rfl, rfl⟩ := Prod.mk.inj (Option.some.inj hadvance)
          exact ⟨by simp [Pc.work, Act.load], rfl⟩
        · obtain ⟨rfl, rfl⟩ := Prod.mk.inj (Option.some.inj hadvance)
          exact spends_leaveNext (by simp [Pc.work, Act.load])
      · simp only [advanceLeave] at hadvance
        split_ifs at hadvance
        all_goals
          obtain ⟨rfl, rfl⟩ := Prod.mk.inj (Option.some.inj hadvance)
          exact ⟨by simp [Pc.work, Act.load], rfl⟩
  | leaveForget r left todo =>
      obtain ⟨rfl, rfl⟩ := Prod.mk.inj (Option.some.inj hadvance)
      cases left with
      | true => exact ⟨by simp [Pc.work, Act.load], rfl⟩
      | false => exact spends_leaveNext (by simp [Pc.work, Act.load])
  | leavePublish r todo =>
      obtain ⟨rfl, rfl⟩ := Prod.mk.inj (Option.some.inj hadvance)
      exact spends_leaveNext (by simp [Pc.work, Act.load])
  | create | insert | joinLookup | joinSend | joinWait | joinPublish | undo | liveHandles | chatLookup | chatSend
  | drain | closeSend | returned | failed | cancelled => cases hadvance

theorem advanceChat_spends {player : PlayerId} {text : String} {pc' : Pc}
    (hadvance : advanceChat config s player text pc = some (act, pc')) : Spends p pc act pc' := by
  cases pc with
  | chatLookup r =>
      simp only [advanceChat] at hadvance
      split_ifs at hadvance
      · obtain ⟨rfl, rfl⟩ := Prod.mk.inj (Option.some.inj hadvance)
        exact ⟨by simp [Pc.work, Act.load], rfl⟩
      · obtain ⟨rfl, rfl⟩ := Prod.mk.inj (Option.some.inj hadvance)
        exact ⟨by simp [Pc.work, Act.load], rfl⟩
      · split at hadvance
        all_goals
          next hfor =>
            obtain ⟨rfl, rfl⟩ := Prod.mk.inj (Option.some.inj hadvance)
            exact ⟨by simp [Pc.work, load_handleFor hfor], rfl⟩
  | chatSend r =>
      simp only [advanceChat] at hadvance
      split at hadvance
      all_goals
        obtain ⟨rfl, rfl⟩ := Prod.mk.inj (Option.some.inj hadvance)
        exact ⟨by simp [Pc.work, Act.load], rfl⟩
  | create | insert | joinLookup | joinSend | joinWait | joinPublish | undo | liveHandles | leaveLookup | leaveSend
  | leaveWait | leaveForget | leavePublish | drain | closeSend | returned | failed | cancelled => cases hadvance

theorem advanceClose_spends {reason : String} {pc' : Pc}
    (hadvance : advanceClose config s reason pc = some (act, pc')) : Spends p pc act pc' := by
  cases pc with
  | closeSend r todo =>
      simp only [advanceClose] at hadvance
      split at hadvance
      · obtain ⟨rfl, rfl⟩ := Prod.mk.inj (Option.some.inj hadvance)
        exact spends_closeNext (by simp [Pc.work, Act.load])
      · cases hadvance
      · obtain ⟨rfl, rfl⟩ := Prod.mk.inj (Option.some.inj hadvance)
        exact spends_closeNext (by simp [Pc.work, Act.load])
  | create | insert | joinLookup | joinSend | joinWait | joinPublish | undo | liveHandles | leaveLookup | leaveSend
  | leaveWait | leaveForget | leavePublish | chatLookup | chatSend | drain | returned | failed | cancelled =>
      cases hadvance

theorem advance_spends {c : Call} (hadvance : advance config s k c = some (act, pc)) (p : Nat) : Spends p c.pc act pc := by
  obtain ⟨op, pc₀, sent⟩ := c
  cases op with
  | joinOrCreate room player nickname sink => exact advanceJoin_spends hadvance
  | leave room player reason => exact advanceLeave_spends hadvance
  | leaveAll player reason => exact advanceLeave_spends hadvance
  | chat room player text => exact advanceChat_spends hadvance
  | closeAll reason => exact advanceClose_spends hadvance

/-! ## The work of the service -/

variable {c : Call} {ids : Finset RoomId} {r : RoomId} {t : RoomTask}

def Act.registers : Act → Nat
  | .register _ => 1
  | _ => 0

theorem registry_apply (s : State) (act : Act) : (s.apply act).registry.length ≤ s.registry.length + act.registers := by
  cases act with
  | skip | enqueue | publish => exact Nat.le_refl _
  | forget | retain => exact List.length_filter_le _ _
  | drain => exact Nat.zero_le _
  | register r =>
      show (s.registry.insert r).length ≤ s.registry.length + 1
      by_cases hr : r ∈ s.registry
      · rw [List.insert_of_mem hr]
        omega
      · rw [List.insert_of_not_mem hr, List.length_cons]

theorem calls_move (s : State) (k : CallId) (act : Act) (pc : Pc) :
    (s.move k act pc).calls = s.calls.modify k fun c => c.moved act pc := by
  show (s.apply act).calls.modify k _ = _
  rw [State.apply_calls]
  rfl

theorem prospects_move (hc : s.calls[k]? = some c) :
    (s.move k act pc).prospects + c.pc.opening ≤ s.prospects + act.registers + pc.opening := by
  have hregistry : (s.move k act pc).registry.length ≤ s.registry.length + act.registers := registry_apply s act
  have hcalls := Sums.modify hc (fun c => c.moved act pc) fun c => c.pc.opening
  have hmoved : (c.moved act pc).pc.opening = pc.opening := rfl
  unfold State.prospects
  rw [calls_move]
  omega

theorem work_push (t : RoomTask) (command : RoomCommand CallId) : (t.push command).work = t.work + 4 := by
  have hqueue : (t.push command).queue.length = t.queue.length + 1 := by simp [RoomTask.push]
  have hrest : (t.push command).outbox = t.outbox ∧ (t.push command).stopping = t.stopping ∧
      (t.push command).receiver = t.receiver := ⟨rfl, rfl, rfl⟩
  unfold RoomTask.work
  rw [hqueue, hrest.1, hrest.2.1, hrest.2.2]
  ring

theorem Opened.mem (h : Opened s ids) (ht : s.rooms r = some t) : r ∈ ids := (h.rooms r).mpr (by rw [ht]; rfl)

theorem rooms_apply (h : Opened s ids) (act : Act) :
    ∑ r ∈ ids, ((s.apply act).rooms r).elim 0 RoomTask.work ≤ ∑ r ∈ ids, (s.rooms r).elim 0 RoomTask.work + act.load := by
  have hupdate : ∀ {r : RoomId} {f : RoomTask → RoomTask} {d : Nat}, (∀ t, (f t).work = t.work + d) →
      ∑ x ∈ ids, ((s.update r f).rooms x).elim 0 RoomTask.work ≤ ∑ x ∈ ids, (s.rooms x).elim 0 RoomTask.work + d := by
    intro r f d hf
    have hsame : ∀ x, x ≠ r → ((s.update r f).rooms x).elim 0 RoomTask.work = (s.rooms x).elim 0 RoomTask.work :=
      fun x hx => by rw [State.update_of_ne hx]
    cases ht : s.rooms r with
    | none =>
        refine (Finset.sum_congr rfl fun x _ => ?_).le.trans (Nat.le_add_right _ _)
        by_cases hx : x = r
        · subst hx
          show (Function.update s.rooms x ((s.rooms x).map f) x).elim 0 RoomTask.work = _
          rw [Function.update_self, ht]
          rfl
        · exact hsame x hx
    | some t =>
        have hsum := Sums.update (h.mem ht) _ _ hsame
        rw [State.update_self ht, ht] at hsum
        have hfold := hf t
        simp only [Option.elim_some] at hsum
        omega
  cases act with
  | skip | forget | retain | drain | publish => exact Nat.le_refl _
  | register r => exact hupdate fun _ => rfl
  | enqueue r command => exact hupdate fun t => work_push t command

theorem work_move (h : Opened s ids) (hc : s.calls[k]? = some c) (hprospects : (s.move k act pc).prospects ≤ s.prospects)
    (hwork : pc.work s.prospects + act.load < c.pc.work s.prospects) : (s.move k act pc).work ids < s.work ids := by
  have hrooms : ∑ r ∈ ids, ((s.move k act pc).rooms r).elim 0 RoomTask.work ≤ _ := rooms_apply h act
  have hcalls := Sums.modify hc (fun c => c.moved act pc) fun c => c.pc.work s.prospects
  have hmono : ((s.move k act pc).calls.map fun c => c.pc.work (s.move k act pc).prospects).sum ≤
      ((s.move k act pc).calls.map fun c => c.pc.work s.prospects).sum :=
    Sums.le_of_fun fun c => c.pc.work_mono hprospects
  have hmoved : (c.moved act pc).pc.work s.prospects = pc.work s.prospects := rfl
  rw [calls_move] at hmono
  unfold State.work
  rw [calls_move]
  omega

theorem rooms_isSome_move (x : RoomId) : ((s.move k act pc).rooms x).isSome = (s.rooms x).isSome := by
  have hupdate : ∀ {r : RoomId} {f : RoomTask → RoomTask}, ((s.update r f).rooms x).isSome = (s.rooms x).isSome := by
    intro r f
    by_cases hx : x = r
    · subst hx
      show (Function.update s.rooms x ((s.rooms x).map f) x).isSome = _
      rw [Function.update_self, Option.isSome_map]
    · rw [State.update_of_ne hx]
  cases act with
  | skip | forget | retain | drain | publish => rfl
  | register r => exact hupdate
  | enqueue r command => exact hupdate
theorem Opened.move (h : Opened s ids) (hc : s.calls[k]? = some c) (hpc : pc.opening = 0) :
    Opened (s.move k act pc) ids where
  rooms x := (h.rooms x).trans (by rw [rooms_isSome_move])
  calls := by
    have hcalls := Sums.modify hc (fun c => c.moved act pc) fun c => c.pc.creating
    have hmoved : (c.moved act pc).pc.creating = pc.creating := rfl
    have hle := creating_le_opening pc
    have hcount := h.calls
    rw [calls_move, List.length_modify]
    omega

/-- What an actor's step leaves alone, and what it does. -/
structure ActorStep (s s' : State) (r : RoomId) : Prop where
  registry : s'.registry = s.registry
  length : s'.calls.length = s.calls.length
  calls : ∀ (k : CallId) (c' : Call), s'.calls[k]? = some c' → ∃ c r, s.calls[k]? = some c ∧ Answered r c c'
  others : ∀ x, x ≠ r → s'.rooms x = s.rooms x
  work : ∃ t t', s.rooms r = some t ∧ s'.rooms r = some t' ∧ t'.work < t.work

theorem Answered.measure {c c' : Call} (h : Answered r c c') {f : Pc → Nat}
    (hjoin : ∀ reply, f (.joinWait r (some reply)) ≤ f (.joinWait r none))
    (hleave : ∀ reply todo, f (.leaveWait r (some reply) todo) ≤ f (.leaveWait r none todo)) : f c'.pc ≤ f c.pc := by
  cases h with
  | same => exact Nat.le_refl _
  | join reply hpc =>
      rw [hpc]
      exact hjoin reply
  | leave reply todo hpc =>
      rw [hpc]
      exact hleave reply todo

theorem ActorStep.measure (a : ActorStep s s' r) (f : Pc → Nat)
    (hjoin : ∀ r reply, f (.joinWait r (some reply)) ≤ f (.joinWait r none))
    (hleave : ∀ r reply todo, f (.leaveWait r (some reply) todo) ≤ f (.leaveWait r none todo)) :
    (s'.calls.map fun c => f c.pc).sum ≤ (s.calls.map fun c => f c.pc).sum := by
  refine Sums.le_of_places a.length fun k c' hc' => ?_
  obtain ⟨c, x, hc, hanswered⟩ := a.calls k c' hc'
  exact ⟨c, hc, hanswered.measure (hjoin x) (hleave x)⟩

theorem Opened.actor (h : Opened s ids) (a : ActorStep s s' r) : Opened s' ids where
  rooms x := by
    obtain ⟨t, t', ht, ht', -⟩ := a.work
    refine (h.rooms x).trans ?_
    by_cases hx : x = r
    · rw [hx, ht, ht']
      exact Iff.rfl
    · rw [a.others x hx]
  calls := by
    have hcalls := a.measure Pc.creating (fun _ _ => Nat.le_refl _) fun _ _ _ => Nat.le_refl _
    have hcount := h.calls
    rw [a.length]
    omega

theorem ActorStep.prospects (a : ActorStep s s' r) : s'.prospects ≤ s.prospects := by
  have hcalls := a.measure Pc.opening (fun _ _ => Nat.le_refl _) fun _ _ _ => Nat.le_refl _
  unfold State.prospects
  rw [a.registry]
  omega

theorem work_actor (h : Opened s ids) (a : ActorStep s s' r) : s'.work ids < s.work ids := by
  obtain ⟨t, t', ht, ht', hwork⟩ := a.work
  have hcalls := a.measure (Pc.work s.prospects) (fun _ _ => Nat.le_refl _) fun _ _ _ => Nat.le_refl _
  have hmono : (s'.calls.map fun c => c.pc.work s'.prospects).sum ≤ (s'.calls.map fun c => c.pc.work s.prospects).sum :=
    Sums.le_of_fun fun c => c.pc.work_mono a.prospects
  have hrooms := Sums.update (h.mem ht) (fun x => (s.rooms x).elim 0 RoomTask.work)
    (fun x => (s'.rooms x).elim 0 RoomTask.work) fun x hx => by rw [a.others x hx]
  rw [ht, ht'] at hrooms
  simp only [Option.elim_some] at hrooms
  unfold State.work
  omega

theorem Opened.opened (h : Opened s ids) (hc : s.calls[k]? = some c) (hpc : c.pc = .create) (hfree : s.rooms r = none) :
    Eases s (s.opened config k r) ids (insert r ids) := by
  have hr : r ∉ ids := fun hmem => by
    rw [h.rooms r, hfree] at hmem
    cases hmem
  have hrooms : ∀ x, x ≠ r → (s.opened config k r).rooms x = s.rooms x := fun x hx => Function.update_of_ne hx _ _
  have hself : (s.opened config k r).rooms r = some (RoomTask.spawn config r k) := Function.update_self r _ _
  have hmodify := fun (f : Pc → Nat) => Sums.modify hc (fun c => { c with pc := .insert r }) fun c => f c.pc
  have hprospects : (s.opened config k r).prospects = s.prospects := by
    have hopening := hmodify Pc.opening
    rw [hpc] at hopening
    show s.registry.length + _ = s.registry.length + _
    exact congrArg (s.registry.length + ·) (Nat.add_right_cancel hopening)
  refine ⟨⟨fun x => ?_, ?_⟩, ?_, hprospects.le, List.length_modify _ _ _⟩
  · by_cases hx : x = r
    · rw [hx, hself]
      simp
    · rw [hrooms x hx, Finset.mem_insert, or_iff_right hx]
      exact h.rooms x
  · have hcreating := hmodify Pc.creating
    have hcount := h.calls
    rw [hpc] at hcreating
    rw [Finset.card_insert_of_notMem hr]
    show ids.card + 1 + ((s.calls.modify k _).map fun c => c.pc.creating).sum ≤ (s.calls.modify k _).length
    rw [List.length_modify]
    replace hcreating : _ + 1 = _ + 0 := hcreating
    omega
  · have hwork := hmodify (Pc.work s.prospects)
    have hother : ∑ x ∈ ids, ((s.opened config k r).rooms x).elim 0 RoomTask.work =
        ∑ x ∈ ids, (s.rooms x).elim 0 RoomTask.work :=
      Finset.sum_congr rfl fun x hx => by rw [hrooms x fun he => hr (he ▸ hx)]
    have hspawn : (RoomTask.spawn config r k).work = 3 := rfl
    rw [hpc] at hwork
    unfold State.work
    rw [hprospects, Finset.sum_insert hr, hother, hself, Option.elim_some, hspawn]
    show ((s.calls.modify k _).map _).sum + _ < _
    replace hwork : _ + 13 = _ + 9 := hwork
    omega

theorem work_process {room : RoomId} (h : RoomInv room t) (hidle : t.idle = true) {command : RoomCommand CallId}
    {rest : List (RoomCommand CallId)} (hqueue : t.queue = command :: rest) : (t.process command rest).work < t.work := by
  obtain ⟨hreceiver, hstopping, houtbox⟩ := RoomTask.idle_iff.mp hidle
  obtain ⟨a, effects, stop, hh, heq⟩ := h.process_eq hidle command rest
  have heffects : effects.length ≤ 3 := by
    cases hh <;> simp
  rw [heq]
  unfold RoomTask.work
  rw [hqueue, hstopping, houtbox, List.length_cons, List.length_nil, if_neg Bool.false_ne_true]
  dsimp only
  split_ifs <;> omega

theorem receiver_of_terminate (hstep : s.step config (.terminate r) = some s') (ht : s.rooms r = some t) :
    t.receiver = true := by
  simp only [State.step, ht] at hstep
  split_ifs at hstep with hguard
  simp only [Bool.and_eq_true] at hguard
  exact hguard.1.1

/-- The rule for a call's step. -/
theorem Opened.eases_move (h : Opened s ids) (hc : s.calls[k]? = some c) (hpc : pc.opening = 0)
    (hregisters : act.registers ≤ c.pc.opening) (hwork : pc.work s.prospects + act.load < c.pc.work s.prospects) :
    Eases s (s.move k act pc) ids ids := by
  have hprospects : (s.move k act pc).prospects ≤ s.prospects := by
    have hle : (s.move k act pc).prospects + c.pc.opening ≤ s.prospects + act.registers + pc.opening := prospects_move hc
    omega
  exact ⟨h.move hc hpc, work_move h hc hprospects hwork, hprospects, by rw [calls_move, List.length_modify]⟩

/-- The rule for an actor's step. -/
theorem Opened.eases_actor (h : Opened s ids) (a : ActorStep s s' r) : Eases s s' ids ids :=
  ⟨h.actor a, work_actor h a, a.prospects, a.length⟩

/-- **Every step but a new call leaves less to do.** -/
theorem Opened.step (h : Opened s ids) (hinv : Inv s) {label : Label} (hlabel : ∀ op, label ≠ .start op)
    (hstep : s.step config label = some s') : ∃ ids', Eases s s' ids ids' := by
  have htaken := step_taken hstep
  cases step_stepped hstep with
  | start op => exact absurd rfl (hlabel op)
  | openRoom k r op sent hc hfree => exact ⟨_, h.opened hc rfl hfree⟩
  | next k c act pc hc hadvance =>
      have hspends := advance_spends hadvance s.prospects
      refine ⟨ids, h.eases_move hc (Pc.opening_of_reached hspends.reached) ?_ hspends.work⟩
      cases advance_acts hadvance with
      | register r hpc =>
          rw [hpc]
          exact Nat.le_refl _
      | skip | publish | enqueue | forgetClosed | forget => exact Nat.zero_le _
  | liveHandles k order op sent hc horder =>
      have hlength : order.length ≤ s.registry.length := horder.length_eq.trans_le (List.length_filter_le _ _)
      refine ⟨ids, h.eases_move hc (Pc.opening_of_reached (reached_leaveNext order)) (Nat.zero_le _) ?_⟩
      rw [work_leaveNext]
      simp only [Act.load, Pc.work, State.prospects]
      omega
  | drain k order op sent hc horder =>
      have hlength : order.length = s.registry.length := horder.length_eq
      refine ⟨ids, h.eases_move hc (Pc.opening_of_reached (reached_closeNext order)) (Nat.zero_le _) ?_⟩
      rw [work_closeNext]
      simp only [Act.load, Pc.work, State.prospects]
      omega
  | cancel k c hc hover => exact ⟨ids, h.eases_move hc rfl (Nat.zero_le _) (Pc.work_pos hover _)⟩
  | process r t command rest ht hidle hqueue =>
      have a : ActorStep s (s.update r fun t => t.process command rest) r :=
        ⟨rfl, rfl, fun k c' hc' => ⟨c', r, hc', .same⟩, fun _ hx => State.update_of_ne hx,
          t, _, ht, State.update_self ht, work_process (hinv.rooms r t ht) hidle hqueue⟩
      exact ⟨ids, h.eases_actor a⟩
  | perform r t e rest ht houtbox =>
      have hrooms : ((s.update r fun t => { t with outbox := rest }).perform r e).rooms =
          (s.update r fun t => { t with outbox := rest }).rooms := by
        cases e <;> rfl
      have hlength : ((s.update r fun t => { t with outbox := rest }).perform r e).calls.length = s.calls.length := by
        cases e with
        | replyJoin | replyLeave => exact List.length_modify _ _ _
        | broadcast => rfl
      have a : ActorStep s ((s.update r fun t => { t with outbox := rest }).perform r e) r := by
        cases htaken with
        | actor _ _ hregistry _ hcalls =>
            refine ⟨hregistry, hlength, hcalls, fun x hx => ?_, t, { t with outbox := rest }, ht, ?_, ?_⟩
            · rw [hrooms, State.update_of_ne hx]
            · rw [hrooms, State.update_self ht]
            · simp only [RoomTask.work, houtbox, List.length_cons]
              omega
      exact ⟨ids, h.eases_actor a⟩
  | hangup r t ht hidle =>
      have heq := (hinv.rooms r t ht).hangup_eq hidle
      obtain ⟨-, hstopping, houtbox⟩ := RoomTask.idle_iff.mp hidle
      refine ⟨ids, ?_⟩
      have a : ActorStep s (s.update r fun t => { t with
          actor := (t.actor.finish (ρ := CallId) "房间通道已关闭").1,
          outbox := (t.actor.finish "房间通道已关闭").2, stopping := true }) r := by
        refine ⟨rfl, rfl, fun k c' hc' => ⟨c', r, hc', .same⟩, fun _ hx => State.update_of_ne hx, t, t.hungUp, ht, ?_, ?_⟩
        · exact (State.update_self ht).trans (congrArg some heq)
        · simp only [RoomTask.work, RoomTask.hungUp, hstopping, houtbox, List.length_cons, List.length_nil]
          split_ifs <;> simp_all
      exact h.eases_actor a
  | terminate r t ht hstopping houtbox =>
      have hreceiver := receiver_of_terminate hstep ht
      have hself : (s.update r RoomTask.terminated).rooms r = some t.terminated := State.update_self ht
      have hwork : t.terminated.work < t.work := by
        simp only [RoomTask.work, RoomTask.terminated, hreceiver, hstopping, List.length_nil, if_true, if_neg Bool.false_ne_true]
        omega
      cases htaken with
      | actor _ _ hregistry _ hcalls =>
          have a := ActorStep.mk hregistry List.length_mapIdx hcalls (fun x hx => State.update_of_ne hx)
            ⟨t, t.terminated, ht, hself, hwork⟩
          exact ⟨ids, h.eases_actor a⟩

/-! ## New calls, and every run -/

theorem Pc.work_succ (pc : Pc) : pc.work (p + 1) ≤ pc.work p + 9 := by
  cases pc with
  | liveHandles | drain => simp only [Pc.work]; omega
  | create | insert | joinLookup | joinSend | joinWait | joinPublish | undo | leaveLookup | leaveSend | leaveWait
  | leaveForget | leavePublish | chatLookup | chatSend | closeSend | returned | failed | cancelled => exact Nat.le_add_right _ _

theorem Op.start_work (op : Op) (p : Nat) :
    (op.start.opening = 1 ∧ op.start.creating = 1 ∧ op.start.work (p + 1) = 13) ∨
      (op.start.opening = 0 ∧ op.start.creating = 0 ∧ op.start.work p ≤ 9 * p + 13) := by
  cases op with
  | joinOrCreate room player nickname sink =>
      cases room with
      | none => exact Or.inl ⟨rfl, rfl, rfl⟩
      | some r => exact Or.inr ⟨rfl, rfl, by simp [Op.start, Pc.work]⟩
  | leave | leaveAll | chat | closeAll => exact Or.inr ⟨rfl, rfl, by simp only [Op.start, Pc.work, List.length_nil]; omega⟩

theorem Opened.start (h : Opened s ids) (hprospects : s.prospects ≤ s.calls.length) (op : Op) {s' : State}
    (hs' : s' = { s with calls := s.calls ++ [⟨op, op.start, []⟩] }) :
    Opened s' ids ∧ s'.prospects ≤ s'.calls.length ∧ s'.work ids ≤ s.work ids + 9 * s.calls.length + 13 ∧
      s'.calls.length = s.calls.length + 1 := by
  have hsum : ∀ f : Call → Nat, (s'.calls.map f).sum = (s.calls.map f).sum + f ⟨op, op.start, []⟩ := fun f => by
    rw [hs', List.map_append, List.sum_append]
    rfl
  have hlength : s'.calls.length = s.calls.length + 1 := by
    rw [hs', List.length_append, List.length_singleton]
  have hregistry : s'.registry = s.registry := by rw [hs']
  have hrooms : s'.rooms = s.rooms := by rw [hs']
  have hp : s'.prospects = s.prospects + op.start.opening := by
    unfold State.prospects
    rw [hsum, hregistry, Nat.add_assoc]
  have hcount := h.calls
  have hwork : s'.work ids = (s.calls.map fun c => c.pc.work s'.prospects).sum + op.start.work s'.prospects +
      ∑ r ∈ ids, (s.rooms r).elim 0 RoomTask.work := by
    unfold State.work
    rw [hsum, hrooms]
  have hopened : Opened s' ids ↔ ids.card + ((s.calls.map fun c => c.pc.creating).sum + op.start.creating) ≤
      s.calls.length + 1 := by
    rw [← hlength, ← hsum fun c => c.pc.creating]
    exact ⟨fun h => h.calls, fun hc => ⟨hrooms ▸ h.rooms, hc⟩⟩
  rw [hopened, hwork, hlength, hp]
  unfold State.work
  obtain ⟨hopening, hcreating, hstart⟩ | ⟨hopening, hcreating, hstart⟩ := op.start_work s.prospects
  · have hmono : (s.calls.map fun c => c.pc.work (s.prospects + 1)).sum ≤ _ :=
      Sums.le_add_of_fun fun c : Call => c.pc.work_succ
    rw [hopening, hcreating, hstart]
    refine ⟨?_, ?_, ?_, rfl⟩ <;> omega
  · rw [hopening, hcreating, Nat.add_zero s.prospects]
    refine ⟨?_, ?_, ?_, rfl⟩ <;> omega

/-- The bound that goes down, with what a new call relies on. -/
def Within (s : State) (n : Nat) : Prop :=
  Inv s ∧ s.prospects ≤ s.calls.length ∧ ∃ ids, Opened s ids ∧ s.work ids = n

theorem Within.eases {n : Nat} (h : Within s n) {label : Label} (hlabel : ∀ op, label ≠ .start op)
    (hstep : s.step config label = some s') : ∃ m, m < n ∧ Within s' m ∧ s'.calls.length = s.calls.length := by
  obtain ⟨hinv, hprospects, ids, hopened, rfl⟩ := h
  obtain ⟨ids', heases⟩ := hopened.step hinv hlabel hstep
  exact ⟨_, heases.work, ⟨(hinv.step hstep).inv, heases.prospects.trans (heases.calls ▸ hprospects), ids', heases.opened, rfl⟩,
    heases.calls⟩

theorem ranks (config : RoomServiceConfig) : (system config).Ranks (fun label => ∀ op, label ≠ .start op) Within := by
  intro s n label s' h hlabel hstep
  obtain ⟨m, hm, hwithin, -⟩ := h.eases hlabel hstep
  exact ⟨m, hm, hwithin⟩

def callBudget (calls : Nat) : Nat := 5 * calls * calls + 9 * calls

theorem Within.step {n : Nat} (h : Within s n) {label : Label} (hstep : s.step config label = some s') :
    ∃ m, Within s' m ∧ m + 1 + callBudget s.calls.length ≤ n + callBudget s'.calls.length := by
  obtain ⟨hinv, hprospects, ids, hopened, rfl⟩ := h
  by_cases hlabel : ∃ op, label = .start op
  · obtain ⟨op, rfl⟩ := hlabel
    obtain ⟨hopened', hprospects', hwork, hlength⟩ := hopened.start hprospects op (Option.some.inj hstep).symm
    refine ⟨_, ⟨(hinv.step hstep).inv, hprospects', ids, hopened', rfl⟩, ?_⟩
    rw [hlength]
    have hbudget : callBudget (s.calls.length + 1) = callBudget s.calls.length + 10 * s.calls.length + 14 := by
      unfold callBudget
      ring
    omega
  · obtain ⟨ids', heases⟩ := hopened.step hinv (fun op he => hlabel ⟨op, he⟩) hstep
    refine ⟨_, ⟨(hinv.step hstep).inv, heases.prospects.trans (heases.calls ▸ hprospects), ids', heases.opened, rfl⟩, ?_⟩
    have hwork := heases.work
    rw [heases.calls]
    omega

theorem init_within (config : RoomServiceConfig) : Within (system config).init 0 := by
  refine ⟨init_inv config, Nat.le_refl _, ∅, ⟨fun r => ?_, Nat.le_refl _⟩, rfl⟩
  exact ⟨fun h => absurd h (Finset.notMem_empty r), fun h => by cases h⟩

theorem run_within {labels : List Label} (hrun : (system config).run (system config).init labels = some s) :
    ∃ n, Within s n ∧ n + labels.length ≤ callBudget s.calls.length := by
  obtain ⟨n, hwithin, hpaid⟩ := TransitionSystem.run_length_le (fun s => callBudget s.calls.length)
    (fun _ _ _ _ h hstep => h.step hstep) (init_within config) hrun
  have hnone : callBudget (system config).init.calls.length = 0 := rfl
  exact ⟨n, hwithin, by omega⟩

/-- **The service cannot run for ever.** Whatever the operations, the schedule, and the calls that are dropped:
`n` calls and all the actors together take at most `5 n² + 9 n` steps. -/
theorem steps_of_calls {labels : List Label} (hrun : (system config).run (system config).init labels = some s) :
    labels.length ≤ 5 * s.calls.length * s.calls.length + 9 * s.calls.length := by
  obtain ⟨n, -, hle⟩ := run_within hrun
  exact (Nat.le_add_left _ _).trans hle

end

/-- A call creates a room and joins it, with nobody else around. -/
def createLabels : List Label :=
  [.start (.joinOrCreate none ⟨1⟩ "a" 0), .openRoom 0 ⟨7⟩, .next 0, .next 0, .next 0, .process ⟨7⟩, .perform ⟨7⟩,
    .perform ⟨7⟩, .next 0, .next 0]

theorem steps_of_calls_create : ∃ s, (system ⟨16, 4⟩).run (system ⟨16, 4⟩).init createLabels = some s ∧
    s.calls.length = 1 ∧ createLabels.length ≤ 14 :=
  ⟨_, rfl, rfl, steps_of_calls (show (system ⟨16, 4⟩).run (system ⟨16, 4⟩).init createLabels = some _ from rfl)⟩

end LongshipX.Service
