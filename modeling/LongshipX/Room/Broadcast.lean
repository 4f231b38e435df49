import LongshipX.Lib.Channel
import LongshipX.Lib.Transition
import LongshipX.Room.Actor

/-!
# Room broadcasts: a total order, and no silent loss

The actor's broadcasts are performed one `try_send` after the other, and between any two of them the
receivers may take events or go away. `World` puts the actor and the sinks of its members together;
`Action` is one step of either.

* `after` : the actor after a list of inputs, a function of the inputs alone;
* `foldMembers`, `period` : what a log says about membership, and the part of it one member should see;
* `after_members`, `after_closedLast`, `after_closedWhenEmptied` : the log against the room;
* `Opens.received` : what is sent to one member's sink is that member's part of the log;
* `Delivered` : what is enqueued and what is pending on a sink add up to what was sent to it;
* `broadcast_total_order` : the four together.
-/

namespace LongshipX.Broadcast
open RoomActor

variable {ρ : Type}

/-- `RoomEventSink`: a bounded queue and a failure flag that stays up. -/
structure RoomEventSink where
  tx : Channel RoomEvent
  failed : Bool
  deriving DecidableEq, Repr

/-- `RoomEventSink::try_send`. -/
def RoomEventSink.trySend (sink : RoomEventSink) (event : RoomEvent) : RoomEventSink :=
  match sink.tx.trySend event with
  | (.ok _, tx) => { sink with tx := tx }
  | (.error _, tx) => { tx := tx, failed := true }

theorem RoomEventSink.trySend_up {sink : RoomEventSink} {event : RoomEvent}
    (h : (sink.trySend event).failed = false) :
    sink.failed = false ∧ (sink.trySend event).tx.enqueued = sink.tx.enqueued ++ [event] := by
  unfold trySend at h ⊢
  obtain ⟨hok, hqueue⟩ | ⟨herr, -⟩ := sink.tx.trySend_cases event
  · split at h
    · next heq =>
        rw [heq] at hqueue
        exact ⟨h, hqueue⟩
    · cases h
  · split at h
    · next heq => exact absurd (by rw [heq]) herr
    · cases h

/-! ## The actor over its inputs -/

/-- What the loop of `run` reacts to: a command, or its end (the channel closed, or the actor stopped). -/
inductive Input (ρ : Type) where
  | command (command : RoomCommand ρ)
  | finish
  deriving DecidableEq, Repr

/-- One input; `run` calls `finish` after its loop whatever ended it. -/
def input (p : Progress ρ) : Input ρ → Progress ρ
  | .command command => p.feed command
  | .finish =>
    let (a, effects) := p.actor.finish "房间通道已关闭"
    ⟨a, p.effects ++ effects, true⟩

/-- The actor of a new room after these inputs. -/
def after (id : RoomId) (maxPlayers : Nat) (inputs : List (Input ρ)) : Progress ρ :=
  inputs.foldl input ⟨spawn (Room.open id maxPlayers), [], false⟩

/-- The event an effect broadcasts. -/
def eventOf : Effect ρ → Option RoomEvent
  | .broadcast _ event => some event
  | .replyJoin _ _ => none
  | .replyLeave _ _ => none

def sendsOf : Effect ρ → List (SinkId × RoomEvent)
  | .broadcast targets event => targets.map (fun s => (s, event))
  | .replyJoin _ _ => []
  | .replyLeave _ _ => []

/-- The room's log: everything that was broadcast, in order. -/
def log (p : Progress ρ) : List RoomEvent := p.effects.filterMap eventOf

/-- Everything that was sent, sink by sink, in order. -/
def sends (p : Progress ρ) : List (SinkId × RoomEvent) := p.effects.flatMap sendsOf

def eventsTo (s : SinkId) (l : List (SinkId × RoomEvent)) : List RoomEvent :=
  (l.filter (fun x => decide (x.1 = s))).map Prod.snd

/-! ## Reading membership off a log -/

def memberStep (members : List PlayerId) : RoomEvent → List PlayerId
  | .memberJoined _ p _ => members ++ [p]
  | .memberLeft _ p => members.filter (fun member => decide (member ≠ p))
  | .chat _ _ _ _ => members
  | .closed _ _ => members

def foldMembers (members : List PlayerId) (events : List RoomEvent) : List PlayerId :=
  events.foldl memberStep members

def isClosed : RoomEvent → Bool
  | .closed _ _ => true
  | _ => false

/-- The part of a log that belongs to a member, read from the member's own `MemberJoined` on: up to and
including its own `MemberLeft`, with the `Closed` that follows if that departure emptied the room; or all
of it, if the member never left. -/
def period (p : PlayerId) (members : List PlayerId) : List RoomEvent → List RoomEvent
  | [] => []
  | .memberLeft r q :: rest =>
    if q = p then
      if members.filter (fun member => decide (member ≠ p)) = [] then .memberLeft r q :: rest.takeWhile isClosed
      else [.memberLeft r q]
    else .memberLeft r q :: period p (memberStep members (.memberLeft r q)) rest
  | .memberJoined r q n :: rest =>
    .memberJoined r q n :: period p (memberStep members (.memberJoined r q n)) rest
  | .chat r q n t :: rest => .chat r q n t :: period p members rest
  | .closed r reason :: rest => .closed r reason :: period p members rest

/-- No event of the list is a departure of `p`. -/
def Stays (p : PlayerId) (events : List RoomEvent) : Prop := ∀ r, RoomEvent.memberLeft r p ∉ events

theorem foldMembers_append (members : List PlayerId) (x y : List RoomEvent) :
    foldMembers members (x ++ y) = foldMembers (foldMembers members x) y := List.foldl_append

theorem period_append {p : PlayerId} {x : List RoomEvent} (hx : Stays p x) (members : List PlayerId)
    (y : List RoomEvent) : period p members (x ++ y) = x ++ period p (foldMembers members x) y := by
  induction x generalizing members with
  | nil => rfl
  | cons e x ih =>
      have hrest : Stays p x := fun r hr => hx r (List.mem_cons_of_mem _ hr)
      cases e with
      | memberLeft r q =>
          have hne : q ≠ p := fun he => hx r (by rw [he]; exact List.mem_cons_self)
          rw [List.cons_append, period, if_neg hne, ih hrest]
          rfl
      | memberJoined r q n => rw [List.cons_append, period, ih hrest]; rfl
      | chat r q n t => rw [List.cons_append, period, ih hrest]; rfl
      | closed r reason => rw [List.cons_append, period, ih hrest]; rfl

theorem period_of_stays {p : PlayerId} {x : List RoomEvent} (hx : Stays p x) (members : List PlayerId) :
    period p members x = x := by
  have h := period_append hx members []
  rwa [List.append_nil, period, List.append_nil] at h

theorem eventsTo_append (s : SinkId) (x y : List (SinkId × RoomEvent)) :
    eventsTo s (x ++ y) = eventsTo s x ++ eventsTo s y := by
  simp only [eventsTo, List.filter_append, List.map_append]

theorem eventsTo_broadcast {targets : List SinkId} (hnodup : targets.Nodup) (s : SinkId) (event : RoomEvent) :
    eventsTo s (targets.map fun t => (t, event)) = if s ∈ targets then [event] else [] := by
  induction targets with
  | nil => rfl
  | cons t targets ih =>
      obtain ⟨hnot, hrest⟩ := List.nodup_cons.mp hnodup
      have ih := ih hrest
      simp only [eventsTo, List.map_cons, List.filter_cons] at ih ⊢
      by_cases hts : t = s
      · subst hts
        rw [if_neg hnot] at ih
        simp [ih]
      · have hst : ¬ s = t := fun he => hts he.symm
        simp [hts, hst, ih]

/-- A period is a contiguous part of the log: it is a prefix of what follows the member's arrival. -/
theorem period_prefix (p : PlayerId) (members : List PlayerId) (x : List RoomEvent) : period p members x <+: x := by
  induction x generalizing members with
  | nil => exact List.prefix_rfl
  | cons e x ih =>
      cases e with
      | memberLeft r q =>
          rw [period]
          split_ifs
          · exact List.prefix_cons_inj _ |>.mpr (List.takeWhile_prefix _)
          · exact List.prefix_cons_inj _ |>.mpr List.nil_prefix
          · exact List.prefix_cons_inj _ |>.mpr (ih _)
      | memberJoined r q n => exact List.prefix_cons_inj _ |>.mpr (ih _)
      | chat r q n t => exact List.prefix_cons_inj _ |>.mpr (ih _)
      | closed r reason => exact List.prefix_cons_inj _ |>.mpr (ih _)

/-! ## The sinks of the members -/

theorem sinks_joined {a : RoomActor} {p : PlayerId} (h : a.Inv) (hmem : p ∉ a.room.members) (member : Member) :
    (a.joined p member).sinks = member.sink :: a.sinks := by
  have hnot : p ∉ a.members := fun hp => hmem ((h.keys p).mp hp)
  show (a.members.insert p member).entries.map _ = _
  rw [AList.entries_insert_of_notMem hnot]
  rfl

theorem sinks_left_sublist (a : RoomActor) (p : PlayerId) : (a.left p).sinks.Sublist a.sinks :=
  (List.kerase_sublist p a.members.entries).map _

theorem mem_sinks_of_lookup {a : RoomActor} {p : PlayerId} {member : Member} (h : a.members.lookup p = some member) :
    member.sink ∈ a.sinks := by
  have hentry : (⟨p, member⟩ : Sigma fun _ : PlayerId => Member) ∈ a.members.entries := AList.mem_lookup_iff.mp h
  exact List.mem_map.mpr ⟨_, hentry, rfl⟩

theorem notMem_sinks_left {a : RoomActor} (hnodup : a.sinks.Nodup) {p : PlayerId} {member : Member}
    (h : a.members.lookup p = some member) : member.sink ∉ (a.left p).sinks := by
  intro hmem
  have hentry : (⟨p, member⟩ : Sigma fun _ : PlayerId => Member) ∈ a.members.entries := AList.mem_lookup_iff.mp h
  obtain ⟨e, he, hsink⟩ := List.mem_map.mp hmem
  have he' : e ∈ a.members.entries := (List.kerase_sublist p a.members.entries).subset he
  have heq : e = ⟨p, member⟩ := List.inj_on_of_nodup_map hnodup he' hentry hsink
  have hkey : e.1 ∈ a.members.erase p := List.mem_keys_of_mem he
  rw [AList.mem_erase] at hkey
  exact hkey.1 (by rw [heq])

/-! ## One input -/

def commandSink : RoomCommand ρ → Option SinkId
  | .join _ _ sink _ => some sink
  | _ => none

def joinSink : Input ρ → Option SinkId
  | .command command => commandSink command
  | .finish => none

/-- The sinks that the joins among these inputs brought along. -/
def joinSinks (inputs : List (Input ρ)) : List SinkId := inputs.filterMap joinSink

/-- **What one input does**: nothing once the actor has stopped; else what a command does, where the end of
the loop acts like one more `Close`. -/
theorem input_cases {p : Progress ρ} (hinv : p.actor.Inv) (hflag : p.actor.closed = p.stopped) (i : Input ρ) :
    (p.stopped = true ∧ input p i = p) ∨
      (p.stopped = false ∧ ∃ command a effects stop, Handled p.actor command a effects stop ∧
        input p i = ⟨a, p.effects ++ effects, stop⟩ ∧
        (i = .command command ∨ (i = .finish ∧ ∃ reason, command = .close reason))) := by
  cases hstop : p.stopped with
  | true =>
      refine Or.inl ⟨rfl, ?_⟩
      cases i with
      | command command => exact p.feed_stopped hstop command
      | finish =>
          have hclosed : p.actor.closed = true := hflag.trans hstop
          have hfinish := finish_closed (ρ := ρ) (hinv.flag ▸ hclosed) hclosed "房间通道已关闭"
          simp only [input, hfinish, List.append_nil]
          rw [← hstop]
  | false =>
      refine Or.inr ⟨rfl, ?_⟩
      have hopen : p.actor.closed = false := hflag.trans hstop
      cases i with
      | command command =>
          exact ⟨command, _, _, _, handle_handled hinv hopen command, p.feed_running hstop command, Or.inl rfl⟩
      | finish =>
          refine ⟨.close "房间通道已关闭", _, _, _, .close _, ?_, Or.inr ⟨rfl, _, rfl⟩⟩
          simp only [input, finish_open (ρ := ρ) (hinv.isClosed hopen)]

theorem after_concat (id : RoomId) (maxPlayers : Nat) (inputs : List (Input ρ)) (i : Input ρ) :
    after id maxPlayers (inputs ++ [i]) = input (after id maxPlayers inputs) i := by
  simp only [after, List.foldl_append, List.foldl_cons, List.foldl_nil]

theorem after_inv (id : RoomId) (maxPlayers : Nat) (inputs : List (Input ρ)) :
    (after id maxPlayers inputs).actor.Inv ∧
      (after id maxPlayers inputs).actor.closed = (after id maxPlayers inputs).stopped ∧
      (after id maxPlayers inputs).actor.room.id = id := by
  induction inputs using List.reverseRecOn with
  | nil => exact ⟨spawn_inv id maxPlayers, rfl, rfl⟩
  | append_singleton inputs i ih =>
      obtain ⟨hinv, hflag, hid⟩ := ih
      rw [after_concat]
      obtain ⟨-, heq⟩ | ⟨hrun, command, a, effects, stop, hh, heq, -⟩ := input_cases hinv hflag i
      · rw [heq]
        exact ⟨hinv, hflag, hid⟩
      · rw [heq]
        obtain ⟨hinv', hflag', hid', -⟩ := hh.inv hinv (hflag.trans hrun)
        exact ⟨hinv', hflag', hid'.trans hid⟩

/-- The rule for properties of the actor over its inputs: what each handled command preserves holds after
every list of inputs. -/
theorem after_induction {id : RoomId} {maxPlayers : Nat} (P : List (Input ρ) → Progress ρ → Prop)
    (before : List (Input ρ))
    (hskip : ∀ inputs i p, p = after id maxPlayers inputs → P inputs p → p.stopped = true → P (inputs ++ [i]) p)
    (hhandle : ∀ inputs i p command a effects stop, p = after id maxPlayers inputs → P inputs p → p.actor.Inv →
      p.stopped = false → Handled p.actor command a effects stop →
      (i = .command command ∨ (i = .finish ∧ ∃ reason, command = .close reason)) →
      P (inputs ++ [i]) ⟨a, p.effects ++ effects, stop⟩)
    (hbefore : P before (after id maxPlayers before)) (rest : List (Input ρ)) :
    P (before ++ rest) (after id maxPlayers (before ++ rest)) := by
  induction rest using List.reverseRecOn with
  | nil => rwa [List.append_nil]
  | append_singleton rest i ih =>
      obtain ⟨hinv, hflag, hid⟩ := after_inv id maxPlayers (before ++ rest)
      rw [← List.append_assoc, after_concat]
      obtain ⟨hstop, heq⟩ | ⟨hrun, command, a, effects, stop, hh, heq, hi⟩ := input_cases hinv hflag i
      · rw [heq]
        exact hskip _ i _ rfl ih hstop
      · rw [heq]
        exact hhandle _ i _ command a effects stop rfl ih hinv hrun hh hi

theorem log_append (a : RoomActor) (x y : List (Effect ρ)) (stop : Bool) :
    log ⟨a, x ++ y, stop⟩ = x.filterMap eventOf ++ y.filterMap eventOf := List.filterMap_append

theorem sends_append (a : RoomActor) (x y : List (Effect ρ)) (stop : Bool) :
    sends ⟨a, x ++ y, stop⟩ = x.flatMap sendsOf ++ y.flatMap sendsOf := List.flatMap_append

/-! ## The log against the room -/

theorem handled_members {a a' : RoomActor} {command : RoomCommand ρ} {effects : List (Effect ρ)} {stop : Bool}
    (hh : Handled a command a' effects stop) :
    foldMembers a.room.members (effects.filterMap eventOf) = a'.room.members := by
  cases hh <;> rfl

theorem after_members (id : RoomId) (maxPlayers : Nat) (inputs : List (Input ρ)) :
    foldMembers [] (log (after id maxPlayers inputs)) = (after id maxPlayers inputs).actor.room.members := by
  refine after_induction (fun _ p => foldMembers [] (log p) = p.actor.room.members) []
    (fun _ _ _ _ h _ => h) ?_ rfl inputs
  intro inputs i p command a effects stop hp ih hinv hrun hh hi
  rw [log_append, foldMembers_append]
  show foldMembers (foldMembers [] (log p)) _ = _
  rw [ih, handled_members hh]

/-- No `Closed` before the actor stops, and exactly one, at the end, after it stopped. -/
def ClosedLast (p : Progress ρ) : Prop :=
  if p.stopped then ∃ before r reason, log p = before ++ [.closed r reason] ∧ ∀ e ∈ before, isClosed e = false
  else ∀ e ∈ log p, isClosed e = false

theorem handled_closedLast {a a' : RoomActor} {command : RoomCommand ρ} {effects : List (Effect ρ)} {stop : Bool}
    (hh : Handled a command a' effects stop) {x : List (Effect ρ)}
    (hx : ∀ e ∈ x.filterMap eventOf, isClosed e = false) : ClosedLast ⟨a', x ++ effects, stop⟩ := by
  have hone : ∀ event, isClosed event = false → ∀ e ∈ x.filterMap eventOf ++ [event], isClosed e = false := by
    intro event hevent e he
    obtain he | he := List.mem_append.mp he
    · exact hx e he
    · rw [List.mem_singleton.mp he]
      exact hevent
  have hnone : ∀ e ∈ x.filterMap eventOf ++ [], isClosed e = false := by
    rwa [List.append_nil]
  unfold ClosedLast
  rw [log_append]
  cases hh with
  | joinNew | chatSent | leaveOthers => exact hone _ rfl
  | joinAgain | joinFull | chatIgnored | leaveOutsider => exact hnone
  | leaveLast p reason reply hlast =>
      refine ⟨x.filterMap eventOf ++ [.memberLeft a.room.id p], a.room.id, "最后一名成员已离开", ?_, hone _ rfl⟩
      rw [List.append_assoc]
      rfl
  | close reason => exact ⟨x.filterMap eventOf, a.room.id, reason, rfl, hx⟩

theorem after_closedLast (id : RoomId) (maxPlayers : Nat) (inputs : List (Input ρ)) :
    ClosedLast (after id maxPlayers inputs) := by
  refine after_induction (fun _ p => ClosedLast p) [] (fun _ _ _ _ h _ => h) ?_ ?_ inputs
  · intro inputs i p command a effects stop hp ih hinv hrun hh hi
    unfold ClosedLast at ih
    rw [if_neg (by rw [hrun]; decide)] at ih
    exact handled_closedLast hh ih
  · intro e he
    cases he

/-- Where a departure stands among the events of one command: first, and the `Closed` of an emptied room behind it. -/
theorem handled_left {a a' : RoomActor} {command : RoomCommand ρ} {effects : List (Effect ρ)} {stop : Bool}
    (hh : Handled a command a' effects stop) {x y : List RoomEvent} {r : RoomId} {q : PlayerId}
    (hevents : effects.filterMap eventOf = x ++ .memberLeft r q :: y) :
    x = [] ∧ q ∈ a.room.members ∧
      (a.room.members ≠ [q] ∧ y = [] ∨ a.room.members = [q] ∧ y = [.closed a.room.id "最后一名成员已离开"]) := by
  cases hh with
  | joinAgain | joinFull | chatIgnored | leaveOutsider | joinNew | chatSent | close =>
      simp [List.filterMap_cons, eventOf, List.cons_eq_append_iff] at hevents
  | leaveOthers p reason reply hmem hothers =>
      simp only [List.filterMap_cons, List.filterMap_nil, eventOf, List.cons_eq_append_iff] at hevents
      obtain ⟨rfl, hevent⟩ | ⟨x', rfl, hevent⟩ := hevents
      · cases hevent
        exact ⟨rfl, hmem, Or.inl ⟨hothers, rfl⟩⟩
      · simp at hevent
  | leaveLast p reason reply hlast =>
      simp only [List.filterMap_cons, List.filterMap_nil, eventOf, List.cons_eq_append_iff] at hevents
      obtain ⟨rfl, hevent⟩ | ⟨x', rfl, ⟨rfl, hevent⟩ | ⟨x'', rfl, hevent⟩⟩ := hevents
      · cases hevent
        exact ⟨rfl, by rw [hlast]; exact List.mem_singleton_self _, Or.inr ⟨hlast, rfl⟩⟩
      · cases hevent
      · simp at hevent

/-- A departure after which no member is left is followed by `Closed`, and by nothing else. -/
def ClosedWhenEmptied (id : RoomId) (events : List RoomEvent) : Prop :=
  ∀ x r q y, events = x ++ .memberLeft r q :: y → foldMembers [] (x ++ [.memberLeft r q]) = [] →
    y = [.closed id "最后一名成员已离开"]

/-- A departure that empties the room is one of the last command's: an earlier one would have closed it. -/
theorem ClosedWhenEmptied.recent {id : RoomId} {before events x y : List RoomEvent} {r : RoomId} {q : PlayerId}
    (h : ClosedWhenEmptied id before) (hopen : ∀ e ∈ before, isClosed e = false)
    (hlog : before ++ events = x ++ .memberLeft r q :: y) (hempty : foldMembers [] (x ++ [.memberLeft r q]) = []) :
    ∃ x', x = before ++ x' ∧ events = x' ++ .memberLeft r q :: y := by
  obtain ⟨x', rfl, hevents⟩ | ⟨x', rfl, hevents⟩ := List.append_eq_append_iff.mp hlog
  · exact ⟨x', rfl, hevents⟩
  · cases x' with
    | nil => exact ⟨[], by simp, hevents.symm⟩
    | cons e x' =>
        obtain ⟨rfl, -⟩ := List.cons.inj hevents
        have hclosed := h x r q x' rfl hempty
        have hfalse := hopen (.closed id "最后一名成员已离开") (by rw [hclosed]; simp)
        cases hfalse

theorem after_closedWhenEmptied (id : RoomId) (maxPlayers : Nat) (inputs : List (Input ρ)) :
    ClosedWhenEmptied id (log (after id maxPlayers inputs)) := by
  refine after_induction (fun _ p => ClosedWhenEmptied id (log p)) [] (fun _ _ _ _ h _ => h) ?_ ?_ inputs
  · intro inputs i p command a effects stop hp ih hinv hrun hh hi x r q y hlog hempty
    have hnone : ∀ e ∈ log p, isClosed e = false := by
      have hlast := after_closedLast id maxPlayers inputs
      rw [← hp, ClosedLast, if_neg (by rw [hrun]; decide)] at hlast
      exact hlast
    have hid : p.actor.room.id = id := hp ▸ (after_inv id maxPlayers inputs).2.2
    have hmembers : foldMembers [] (log p) = p.actor.room.members := hp ▸ after_members id maxPlayers inputs
    rw [log_append] at hlog
    obtain ⟨x', rfl, hevents⟩ := ih.recent hnone hlog hempty
    obtain ⟨rfl, hmem, ⟨hothers, -⟩ | ⟨-, rfl⟩⟩ := handled_left hh hevents
    · rw [List.append_nil, foldMembers_append, hmembers] at hempty
      exact absurd ((filter_ne_eq_nil_iff hinv.nodup hmem).mp hempty) hothers
    · rw [hid]
  · intro x r q y hlog
    exact absurd hlog.symm (List.append_ne_nil_of_right_ne_nil _ (List.cons_ne_nil _ _))

/-- The input ends the actor: a `Close`, or the end of its channel. -/
def Input.Ends (i : Input ρ) : Prop := i = .finish ∨ ∃ reason, i = .command (.close reason)

theorem after_stopped (id : RoomId) (maxPlayers : Nat) (inputs : List (Input ρ)) :
    ∀ i ∈ inputs, i.Ends → (after id maxPlayers inputs).stopped = true := by
  refine after_induction (fun inputs p => ∀ i ∈ inputs, i.Ends → p.stopped = true) [] ?_ ?_ ?_ inputs
  · exact fun _ _ _ _ _ hstop _ _ _ => hstop
  · intro inputs i p command a effects stop hp ih hinv hrun hh hi j hj hends
    obtain hj | hj := List.mem_append.mp hj
    · have hstop := ih j hj hends
      rw [hrun] at hstop
      cases hstop
    · obtain rfl := List.mem_singleton.mp hj
      obtain ⟨reason, rfl⟩ : ∃ reason, command = .close reason := by
        obtain rfl | ⟨-, hclose⟩ := hi
        · obtain hfinish | ⟨reason, hclose⟩ := hends
          · cases hfinish
          · exact ⟨reason, Input.command.inj hclose⟩
        · exact hclose
      cases hh
      rfl
  · exact fun _ hi => absurd hi List.not_mem_nil

/-! ## Whose sink is whose -/

/-- The members' sinks are pairwise distinct and came in with joins; a sink that no join brought has been
sent nothing. -/
structure SinksOwned (inputs : List (Input ρ)) (p : Progress ρ) : Prop where
  nodup : p.actor.sinks.Nodup
  known : ∀ s ∈ p.actor.sinks, s ∈ joinSinks inputs
  fresh : ∀ s, s ∉ joinSinks inputs → eventsTo s (sends p) = []

theorem joinSinks_concat (inputs : List (Input ρ)) (i : Input ρ) :
    joinSinks (inputs ++ [i]) = joinSinks inputs ++ (joinSink i).toList := by
  unfold joinSinks
  rw [List.filterMap_append]
  cases hi : joinSink i with
  | none => simp [hi]
  | some s => simp [hi]

def GoesTo (audience : List SinkId) : Effect ρ → Prop
  | .broadcast targets _ => targets = audience
  | .replyJoin _ _ => True
  | .replyLeave _ _ => True

theorem eventsTo_audience {audience : List SinkId} (hnodup : audience.Nodup) {effects : List (Effect ρ)}
    (hto : ∀ e ∈ effects, GoesTo audience e) (s : SinkId) :
    eventsTo s (effects.flatMap sendsOf) = if s ∈ audience then effects.filterMap eventOf else [] := by
  induction effects with
  | nil => simp [eventsTo]
  | cons e effects ih =>
      have ih := ih fun e' he' => hto e' (List.mem_cons_of_mem _ he')
      rw [List.flatMap_cons, eventsTo_append, ih]
      cases e with
      | replyJoin | replyLeave => rfl
      | broadcast targets event =>
          have htargets : targets = audience := hto _ List.mem_cons_self
          rw [sendsOf, htargets, eventsTo_broadcast hnodup]
          split_ifs <;> rfl

/-- **Who hears a command**: its broadcasts all go to one audience, the members before and after it. -/
theorem handled_audience {a a' : RoomActor} {command : RoomCommand ρ} {effects : List (Effect ρ)} {stop : Bool}
    (hh : Handled a command a' effects stop) (hinv : a.Inv) :
    ∃ audience, (∀ e ∈ effects, GoesTo audience e) ∧ a.sinks ⊆ audience ∧ a'.sinks.Sublist audience ∧
      audience.Sublist ((commandSink command).toList ++ a.sinks) := by
  cases hh with
  | joinNew p nickname sink reply hmem hplace =>
      have hsinks := sinks_joined hinv hmem ⟨nickname, sink⟩
      refine ⟨_, by simp [GoesTo], ?_, List.Sublist.refl _, ?_⟩
      · rw [hsinks]
        exact List.subset_cons_self _ _
      · rw [hsinks]
        exact List.Sublist.refl _
  | joinAgain | joinFull =>
      exact ⟨a.sinks, by simp [GoesTo], List.Subset.refl _, List.Sublist.refl _, List.sublist_cons_self _ _⟩
  | chatIgnored | chatSent | leaveOutsider | close =>
      exact ⟨a.sinks, by simp [GoesTo], List.Subset.refl _, List.Sublist.refl _, List.Sublist.refl _⟩
  | leaveOthers p | leaveLast p =>
      exact ⟨a.sinks, by simp [GoesTo], List.Subset.refl _, sinks_left_sublist a p, List.Sublist.refl _⟩

theorem joinSink_eq {i : Input ρ} {command : RoomCommand ρ}
    (h : i = .command command ∨ (i = .finish ∧ ∃ reason, command = .close reason)) :
    joinSink i = commandSink command := by
  obtain rfl | ⟨rfl, reason, rfl⟩ := h
  · rfl
  · rfl

/-- One command keeps the ownership of the sinks, when the sink it brings is a new one. -/
theorem SinksOwned.handled {inputs : List (Input ρ)} {i : Input ρ} {p : Progress ρ} {a : RoomActor}
    {command : RoomCommand ρ} {effects : List (Effect ρ)} {stop : Bool} (h : SinksOwned inputs p)
    (hinv : p.actor.Inv) (hh : Handled p.actor command a effects stop) (hi : joinSink i = commandSink command)
    (hnodup : (joinSinks (inputs ++ [i])).Nodup) : SinksOwned (inputs ++ [i]) ⟨a, p.effects ++ effects, stop⟩ := by
  rw [joinSinks_concat, hi] at hnodup
  obtain ⟨audience, hto, -, hafter, hbefore⟩ := handled_audience hh hinv
  have hall : ((commandSink command).toList ++ p.actor.sinks).Nodup := by
    obtain ⟨-, hnew, hdisjoint⟩ := List.nodup_append'.mp hnodup
    exact List.nodup_append'.mpr ⟨hnew, h.nodup, fun s hs hs' => hdisjoint (h.known s hs') hs⟩
  have hknown : ∀ s ∈ audience, s ∈ joinSinks (inputs ++ [i]) := by
    intro s hs
    rw [joinSinks_concat, hi, List.mem_append]
    exact (List.mem_append.mp (hbefore.subset hs)).symm.imp_left (h.known s)
  refine ⟨(hall.sublist hbefore).sublist hafter, fun s hs => hknown s (hafter.subset hs), fun s hs => ?_⟩
  have hold : s ∉ joinSinks inputs := fun h' => hs (by rw [joinSinks_concat]; exact List.mem_append_left _ h')
  rw [sends_append, eventsTo_append, eventsTo_audience (hall.sublist hbefore) hto, if_neg fun h' => hs (hknown s h'),
    List.append_nil]
  exact h.fresh s hold

theorem after_sinksOwned (id : RoomId) (maxPlayers : Nat) (inputs : List (Input ρ))
    (hnodup : (joinSinks inputs).Nodup) : SinksOwned inputs (after id maxPlayers inputs) := by
  refine after_induction (fun inputs p => (joinSinks inputs).Nodup → SinksOwned inputs p) [] ?_ ?_ ?_ inputs hnodup
  · intro inputs i p hp ih hstop hnodup
    rw [joinSinks_concat] at hnodup
    have h := ih (List.nodup_append'.mp hnodup).1
    refine ⟨h.nodup, fun s hs => ?_, fun s hs => h.fresh s ?_⟩
    · rw [joinSinks_concat]
      exact List.mem_append_left _ (h.known s hs)
    · rw [joinSinks_concat] at hs
      exact fun h' => hs (List.mem_append_left _ h')
  · intro inputs i p command a effects stop hp ih hinv hrun hh hi hnodup
    have h := ih (by rw [joinSinks_concat] at hnodup; exact (List.nodup_append'.mp hnodup).1)
    exact h.handled hinv hh (joinSink_eq hi) hnodup
  · intro _
    exact ⟨List.nodup_nil, fun s hs => absurd hs List.not_mem_nil, fun s _ => rfl⟩

/-! ## One member's period -/

/-- The sink `s` that `p` joined with has been sent exactly `p`'s part of the log `x` since then: the room is
over, or `p` is still in it, or `p` has left and nothing more will be sent to `s`. -/
structure InPeriod (p : PlayerId) (s : SinkId) (members : List PlayerId) (x : List RoomEvent) (q : Progress ρ) :
    Prop where
  received : eventsTo s (sends q) = period p members x
  folded : foldMembers members x = q.actor.room.members
  phase : q.stopped = true ∨
    (Stays p x ∧ ∃ nickname, q.actor.members.lookup p = some ⟨nickname, s⟩) ∨
    (s ∉ q.actor.sinks ∧ ∀ y, period p members (x ++ y) = period p members x)

theorem handled_period {a a' : RoomActor} {command : RoomCommand ρ} {effects : List (Effect ρ)} {stop : Bool}
    (hh : Handled a command a' effects stop) (p : PlayerId) :
    period p a.room.members (effects.filterMap eventOf) = effects.filterMap eventOf := by
  cases hh with
  | joinNew | joinAgain | joinFull | chatIgnored | chatSent | leaveOutsider | close => rfl
  | leaveOthers q =>
      show period p _ [.memberLeft a.room.id q] = [.memberLeft a.room.id q]
      unfold period
      split_ifs <;> rfl
  | leaveLast q reason reply hlast =>
      show period p _ [.memberLeft a.room.id q, .closed a.room.id "最后一名成员已离开"] = _
      unfold period
      by_cases hq : q = p
      · rw [if_pos hq, hlast, hq, if_pos (by simp)]
        rfl
      · rw [if_neg hq]
        rfl

theorem Stays.append {p : PlayerId} {x y : List RoomEvent} (hx : Stays p x) (hy : Stays p y) : Stays p (x ++ y) := by
  intro r hr
  obtain hr | hr := List.mem_append.mp hr
  · exact hx r hr
  · exact hy r hr

/-- Where a member stands after one more command: still in, or out for good, unless the actor stopped. -/
theorem handled_phase {q : Progress ρ} {a : RoomActor} {command : RoomCommand ρ} {effects : List (Effect ρ)}
    {stop : Bool} {p : PlayerId} {s : SinkId} {members : List PlayerId} {x : List RoomEvent} {nickname : String}
    (hh : Handled q.actor command a effects stop) (hinv : q.actor.Inv) (hnodup : q.actor.sinks.Nodup)
    (hfolded : foldMembers members x = q.actor.room.members) (hstays : Stays p x)
    (hlookup : q.actor.members.lookup p = some ⟨nickname, s⟩) :
    stop = true ∨
      (Stays p (x ++ effects.filterMap eventOf) ∧ ∃ nickname, a.members.lookup p = some ⟨nickname, s⟩) ∨
      (s ∉ a.sinks ∧ ∀ y, period p members (x ++ effects.filterMap eventOf ++ y) =
        period p members (x ++ effects.filterMap eventOf)) := by
  have hmember : p ∈ q.actor.room.members :=
    (hinv.keys p).mp (AList.lookup_isSome.mp (by rw [hlookup]; rfl))
  cases hh with
  | leaveLast | close => exact Or.inl rfl
  | joinAgain | joinFull | chatIgnored | leaveOutsider =>
      exact Or.inr (Or.inl ⟨hstays.append fun r hr => absurd hr List.not_mem_nil, nickname, hlookup⟩)
  | chatSent => exact Or.inr (Or.inl ⟨hstays.append fun r => by simp [eventOf], nickname, hlookup⟩)
  | joinNew q' nickname' sink reply hmem hplace =>
      have hne : p ≠ q' := fun he => hmem (he ▸ hmember)
      refine Or.inr (Or.inl ⟨hstays.append fun r => by simp [eventOf], nickname, ?_⟩)
      exact (AList.lookup_insert_ne hne).trans hlookup
  | leaveOthers q' reason reply hmem hothers =>
      by_cases hq : q' = p
      · subst hq
        have hleft : q.actor.room.members.filter (fun member => decide (member ≠ q')) ≠ [] := fun hnil =>
          hothers ((filter_ne_eq_nil_iff hinv.nodup hmem).mp hnil)
        refine Or.inr (Or.inr ⟨notMem_sinks_left hnodup hlookup, fun y => ?_⟩)
        show period q' members (x ++ [.memberLeft q.actor.room.id q'] ++ y) =
          period q' members (x ++ [.memberLeft q.actor.room.id q'])
        rw [List.append_assoc, period_append hstays, period_append hstays, hfolded, List.singleton_append,
          period, period, if_pos rfl, if_pos rfl, if_neg hleft, if_neg hleft]
      · refine Or.inr (Or.inl ⟨hstays.append fun r => by simp [eventOf, Ne.symm hq], nickname, ?_⟩)
        exact (AList.lookup_erase_ne (Ne.symm hq)).trans hlookup

/-- **The step of a period**: one command that does not bring the sink in again. -/
theorem InPeriod.handled {p : PlayerId} {s : SinkId} {members : List PlayerId} {x : List RoomEvent} {q : Progress ρ}
    {inputs : List (Input ρ)} {a : RoomActor} {command : RoomCommand ρ} {effects : List (Effect ρ)} {stop : Bool}
    (h : InPeriod p s members x q) (hrun : q.stopped = false) (howned : SinksOwned inputs q) (hinv : q.actor.Inv)
    (hh : Handled q.actor command a effects stop) (hs : s ∈ joinSinks inputs)
    (hall : (joinSinks inputs ++ (commandSink command).toList).Nodup) :
    InPeriod p s members (x ++ effects.filterMap eventOf) ⟨a, q.effects ++ effects, stop⟩ := by
  obtain ⟨audience, hto, hbefore, hafter, hbound⟩ := handled_audience hh hinv
  obtain ⟨-, hnew, hdisjoint⟩ := List.nodup_append'.mp hall
  have haudience : audience.Nodup := List.Nodup.sublist hbound
    (List.nodup_append'.mpr ⟨hnew, howned.nodup, fun t ht ht' => hdisjoint (howned.known t ht') ht⟩)
  have hreceived : eventsTo s (sends (⟨a, q.effects ++ effects, stop⟩ : Progress ρ)) =
      period p members x ++ if s ∈ audience then effects.filterMap eventOf else [] := by
    rw [sends_append, eventsTo_append, eventsTo_audience haudience hto, ← h.received]
    rfl
  have hfolded : foldMembers members (x ++ effects.filterMap eventOf) = a.room.members := by
    rw [foldMembers_append, h.folded, handled_members hh]
  obtain hstop | ⟨hstays, nickname, hlookup⟩ | ⟨hout, hstable⟩ := h.phase
  · rw [hrun] at hstop
    cases hstop
  · refine ⟨?_, hfolded, handled_phase hh hinv howned.nodup h.folded hstays hlookup⟩
    rw [hreceived, if_pos (hbefore (mem_sinks_of_lookup hlookup)), period_append hstays, h.folded, handled_period hh,
      period_of_stays hstays]
  · have hnot : s ∉ audience := by
      intro hmem
      obtain hmem | hmem := List.mem_append.mp (hbound.subset hmem)
      · exact hdisjoint hs hmem
      · exact hout hmem
    refine ⟨?_, hfolded, Or.inr (Or.inr ⟨fun hmem => hnot (hafter.subset hmem), fun y => ?_⟩)⟩
    · rw [hreceived, if_neg hnot, List.append_nil, hstable]
    · rw [List.append_assoc, hstable, hstable]

/-- The join that opens a period: the player was not in, and is in after it. -/
structure Opens (id : RoomId) (maxPlayers : Nat) (before : List (Input ρ)) (p : PlayerId) (nickname : String)
    (s : SinkId) (reply : ρ) : Prop where
  absent : p ∉ (after id maxPlayers before).actor.room.members
  present : p ∈ (after id maxPlayers (before ++ [.command (.join p nickname s reply)])).actor.room.members

theorem Opens.inPeriod {id : RoomId} {maxPlayers : Nat} {before : List (Input ρ)} {p : PlayerId} {nickname : String}
    {s : SinkId} {reply : ρ} (h : Opens id maxPlayers before p nickname s reply)
    (hnodup : (joinSinks (before ++ [.command (.join p nickname s reply)])).Nodup) :
    log (after id maxPlayers (before ++ [.command (.join p nickname s reply)])) =
        log (after id maxPlayers before) ++ [.memberJoined id p nickname] ∧
      InPeriod p s (after id maxPlayers before).actor.room.members [.memberJoined id p nickname]
        (after id maxPlayers (before ++ [.command (.join p nickname s reply)])) := by
  have hpresent := h.present
  rw [joinSinks_concat] at hnodup
  obtain ⟨hold, -, hdisjoint⟩ := List.nodup_append'.mp hnodup
  have howned := after_sinksOwned id maxPlayers before hold
  have hnew : s ∉ joinSinks before := fun hs => hdisjoint hs (by simp [joinSink, commandSink])
  obtain ⟨hinv, hflag, hid⟩ := after_inv id maxPlayers before
  rw [after_concat] at hpresent ⊢
  obtain ⟨-, heq⟩ | ⟨hrun, command, a, effects, stop, hh, heq, hi⟩ :=
    input_cases hinv hflag (.command (.join p nickname s reply))
  · rw [heq] at hpresent
    exact absurd hpresent h.absent
  · obtain hi | ⟨hi, -⟩ := hi
    · obtain rfl := Input.command.inj hi
      rw [heq] at hpresent ⊢
      cases hh with
      | joinAgain => exact absurd hpresent h.absent
      | joinFull => exact absurd hpresent h.absent
      | joinNew _ _ _ _ hmem hplace =>
          rw [log_append, hid]
          have hsinks := sinks_joined hinv hmem ⟨nickname, s⟩
          refine ⟨rfl, ?_, rfl, Or.inr (Or.inl ⟨by simp [Stays], nickname, AList.lookup_insert _⟩)⟩
          have htargets : (s :: (after id maxPlayers before).actor.sinks).Nodup :=
            List.nodup_cons.mpr ⟨fun hs => hnew (howned.known s hs), howned.nodup⟩
          rw [sends_append, eventsTo_append]
          show eventsTo s (sends (after id maxPlayers before)) ++ eventsTo s (List.map _ _ ++ []) = _
          rw [howned.fresh s hnew, List.append_nil, hsinks, eventsTo_broadcast htargets, if_pos List.mem_cons_self]
          rfl
    · cases hi

/-- **A period over every continuation**: what is sent to the sink is the member's part of the log. -/
theorem Opens.received {id : RoomId} {maxPlayers : Nat} {before : List (Input ρ)} {p : PlayerId}
    {nickname : String} {s : SinkId} {reply : ρ} (h : Opens id maxPlayers before p nickname s reply)
    (rest : List (Input ρ)) (hnodup : (joinSinks (before ++ [.command (.join p nickname s reply)] ++ rest)).Nodup) :
    ∃ x, log (after id maxPlayers (before ++ [.command (.join p nickname s reply)] ++ rest)) =
        log (after id maxPlayers before) ++ .memberJoined id p nickname :: x ∧
      InPeriod p s (after id maxPlayers before).actor.room.members (.memberJoined id p nickname :: x)
        (after id maxPlayers (before ++ [.command (.join p nickname s reply)] ++ rest)) := by
  have hinduct := @after_induction ρ id maxPlayers (fun inputs q => (joinSinks inputs).Nodup →
    s ∈ joinSinks inputs ∧ ∃ x, log q = log (after id maxPlayers before) ++ .memberJoined id p nickname :: x ∧
      InPeriod p s (after id maxPlayers before).actor.room.members (.memberJoined id p nickname :: x) q)
    (before ++ [.command (.join p nickname s reply)])
  refine (hinduct ?_ ?_ ?_ rest hnodup).2
  · intro inputs i q hq ih hstop hnodup
    rw [joinSinks_concat] at hnodup ⊢
    obtain ⟨hs, hx⟩ := ih (List.nodup_append'.mp hnodup).1
    exact ⟨List.mem_append_left _ hs, hx⟩
  · intro inputs i q command a effects stop hq ih hinv hrun hh hi hnodup
    rw [joinSinks_concat] at hnodup ⊢
    have hold := (List.nodup_append'.mp hnodup).1
    obtain ⟨hs, x, hlog, hperiod⟩ := ih hold
    have howned : SinksOwned inputs q := hq ▸ after_sinksOwned id maxPlayers inputs hold
    rw [joinSink_eq hi] at hnodup
    refine ⟨List.mem_append_left _ hs, x ++ effects.filterMap eventOf, ?_, ?_⟩
    · rw [log_append]
      show log q ++ _ = _
      rw [hlog, List.append_assoc, List.cons_append]
    · exact hperiod.handled hrun howned hinv hh hs hnodup
  · intro hnodup
    obtain ⟨hlog, hperiod⟩ := h.inPeriod hnodup
    exact ⟨by simp [joinSinks, joinSink, commandSink], [], hlog, hperiod⟩

/-! ## The actor together with its sinks -/

/-- The inputs so far, the actor after them, the sends of the current command that are still to be performed,
and every sink. -/
structure World (ρ : Type) where
  handled : List (Input ρ)
  progress : Progress ρ
  pending : List (SinkId × RoomEvent)
  sinks : SinkId → RoomEventSink

/-- The actor takes an input or performs its next send; the receiver of a sink takes an event or is dropped. -/
inductive Action (ρ : Type) where
  | command (command : RoomCommand ρ)
  | finish
  | send
  | recv (sink : SinkId)
  | dropReceiver (sink : SinkId)
  deriving DecidableEq, Repr

/-- The actor reacts to an input; the sends it decided on are now to be performed. -/
def World.react (w : World ρ) (i : Input ρ) : World ρ :=
  let progress := input w.progress i
  { w with handled := w.handled ++ [i], progress := progress,
           pending := (progress.effects.drop w.progress.effects.length).flatMap sendsOf }

def World.step (w : World ρ) : Action ρ → Option (World ρ)
  | .command command =>
    if w.pending.isEmpty && !w.progress.stopped then some (w.react (.command command)) else none
  | .finish => if w.pending.isEmpty then some (w.react .finish) else none
  | .send =>
    match w.pending with
    | [] => none
    | (s, event) :: rest =>
      some { w with pending := rest, sinks := Function.update w.sinks s ((w.sinks s).trySend event) }
  | .recv s =>
    match (w.sinks s).tx.recv with
    | none => none
    | some (_, tx) => some { w with sinks := Function.update w.sinks s { w.sinks s with tx := tx } }
  | .dropReceiver s =>
    some { w with sinks := Function.update w.sinks s { w.sinks s with tx := (w.sinks s).tx.dropReceiver } }

/-- A new room whose actor is about to start, and sinks of any capacities. -/
def system (ρ : Type) (id : RoomId) (maxPlayers : Nat) (capacity : SinkId → Nat) :
    TransitionSystem (World ρ) (Action ρ) where
  init := ⟨[], ⟨spawn (Room.open id maxPlayers), [], false⟩, [], fun s => ⟨Channel.new (capacity s), false⟩⟩
  step := World.step

/-- The actor is a function of its inputs, and what is enqueued on a sink that did not fail, with what is
still pending for it, is all that was sent to it. -/
structure Delivered (id : RoomId) (maxPlayers : Nat) (w : World ρ) : Prop where
  progress : w.progress = after id maxPlayers w.handled
  sinks : ∀ s, (w.sinks s).failed = false →
    (w.sinks s).tx.enqueued ++ eventsTo s w.pending = eventsTo s (sends w.progress)

theorem input_effects {p : Progress ρ} (hinv : p.actor.Inv) (hflag : p.actor.closed = p.stopped) (i : Input ρ) :
    ∃ effects, (input p i).effects = p.effects ++ effects := by
  obtain ⟨-, heq⟩ | ⟨-, command, a, effects, stop, -, heq, -⟩ := input_cases hinv hflag i
  · exact ⟨[], by rw [heq, List.append_nil]⟩
  · exact ⟨effects, by rw [heq]⟩

theorem Delivered.react {id : RoomId} {maxPlayers : Nat} {w : World ρ} (h : Delivered id maxPlayers w)
    (hpending : w.pending = []) (i : Input ρ) : Delivered id maxPlayers (w.react i) := by
  obtain ⟨hinv, hflag, -⟩ := after_inv id maxPlayers w.handled
  rw [← h.progress] at hinv hflag
  obtain ⟨effects, heffects⟩ := input_effects hinv hflag i
  refine ⟨?_, fun s hs => ?_⟩
  · show input w.progress i = after id maxPlayers (w.handled ++ [i])
    rw [after_concat, h.progress]
  · have hold := h.sinks s hs
    rw [hpending] at hold
    show (w.sinks s).tx.enqueued ++ eventsTo s (((input w.progress i).effects.drop _).flatMap sendsOf) =
      eventsTo s ((input w.progress i).effects.flatMap sendsOf)
    rw [heffects, List.drop_left, List.flatMap_append, eventsTo_append]
    exact congrArg (· ++ _) ((List.append_nil _).symm.trans hold)

theorem Delivered.update {id : RoomId} {maxPlayers : Nat} {w : World ρ} (h : Delivered id maxPlayers w) {s : SinkId}
    {tx : Channel RoomEvent} (hsame : tx.enqueued = (w.sinks s).tx.enqueued) :
    Delivered id maxPlayers { w with sinks := Function.update w.sinks s { w.sinks s with tx := tx } } := by
  refine ⟨h.progress, fun t ht => ?_⟩
  dsimp only at ht ⊢
  by_cases hts : t = s
  · subst hts
    rw [Function.update_self] at ht ⊢
    rw [hsame]
    exact h.sinks t ht
  · rw [Function.update_of_ne hts] at ht ⊢
    exact h.sinks t ht

theorem Delivered.send {id : RoomId} {maxPlayers : Nat} {w : World ρ} (h : Delivered id maxPlayers w) {s : SinkId}
    {event : RoomEvent} {rest : List (SinkId × RoomEvent)} (hpending : w.pending = (s, event) :: rest) :
    Delivered id maxPlayers
      { w with pending := rest, sinks := Function.update w.sinks s ((w.sinks s).trySend event) } := by
  refine ⟨h.progress, fun t ht => ?_⟩
  dsimp only at ht ⊢
  have hold := h.sinks t
  rw [hpending] at hold
  by_cases hts : t = s
  · subst hts
    rw [Function.update_self] at ht ⊢
    obtain ⟨hup, hqueue⟩ := RoomEventSink.trySend_up ht
    rw [hqueue, ← hold hup, List.append_assoc]
    simp [eventsTo]
  · rw [Function.update_of_ne hts] at ht ⊢
    rw [← hold ht]
    simp [eventsTo, Ne.symm hts]

/-- **One step of the actor or of a receiver keeps every delivery.** -/
theorem Delivered.step {id : RoomId} {maxPlayers : Nat} {w w' : World ρ} {action : Action ρ}
    (h : Delivered id maxPlayers w) (hstep : w.step action = some w') : Delivered id maxPlayers w' := by
  cases action with
  | command command =>
      simp only [World.step] at hstep
      split_ifs at hstep with hc
      obtain rfl := Option.some.inj hstep
      rw [Bool.and_eq_true, List.isEmpty_iff] at hc
      exact h.react hc.1 _
  | finish =>
      simp only [World.step] at hstep
      split_ifs at hstep with hc
      obtain rfl := Option.some.inj hstep
      exact h.react (List.isEmpty_iff.mp hc) _
  | send =>
      simp only [World.step] at hstep
      split at hstep
      · cases hstep
      · next s event rest hpending =>
          obtain rfl := Option.some.inj hstep
          exact h.send hpending
  | recv s =>
      simp only [World.step] at hstep
      split at hstep
      · cases hstep
      · next x tx hrecv =>
          obtain rfl := Option.some.inj hstep
          exact h.update (Channel.recv_enqueued hrecv)
  | dropReceiver s =>
      obtain rfl := Option.some.inj hstep
      exact h.update rfl

theorem delivered {id : RoomId} {maxPlayers : Nat} {capacity : SinkId → Nat} {actions : List (Action ρ)} {w : World ρ}
    (hrun : (system ρ id maxPlayers capacity).run (system ρ id maxPlayers capacity).init actions = some w) :
    Delivered id maxPlayers w :=
  TransitionSystem.run_invariant (fun _ _ _ h hstep => h.step hstep) ⟨rfl, fun _ _ => rfl⟩ hrun

/-! ## The four together -/

theorem ClosedLast.last {p : Progress ρ} (h : ClosedLast p) {x y : List RoomEvent} {e : RoomEvent}
    (hlog : log p = x ++ e :: y) (he : isClosed e = true) : y = [] := by
  have hmem : e ∈ log p := by
    rw [hlog]
    simp
  unfold ClosedLast at h
  split_ifs at h
  · obtain ⟨before, r, reason, hend, hbefore⟩ := h
    rw [hend] at hlog
    obtain rfl | ⟨y', z, rfl⟩ := List.eq_nil_or_concat y
    · rfl
    · rw [List.concat_eq_append, ← List.cons_append, ← List.append_assoc] at hlog
      have hin : e ∈ before := by
        rw [(List.append_inj' hlog rfl).1]
        simp
      rw [hbefore e hin] at he
      cases he
  · rw [h e hmem] at he
    cases he

/-- **Room broadcast is a total order with no silent loss**, in every run of the actor with its sinks. -/
theorem broadcast_total_order (id : RoomId) (maxPlayers : Nat) (capacity : SinkId → Nat) (actions : List (Action ρ))
    (w : World ρ)
    (hrun : (system ρ id maxPlayers capacity).run (system ρ id maxPlayers capacity).init actions = some w)
    (hsinks : (joinSinks w.handled).Nodup) :
    -- the log tells the members
    foldMembers [] (log w.progress) = w.progress.actor.room.members ∧
    -- `Closed` is the last event
    (∀ x e y, log w.progress = x ++ e :: y → isClosed e = true → y = []) ∧
    -- it comes with the departure that empties the room, with a `Close` and with the end of the channel
    ClosedLast w.progress ∧ ClosedWhenEmptied id (log w.progress) ∧
    (∀ i ∈ w.handled, i.Ends → ∃ x r reason, log w.progress = x ++ [.closed r reason]) ∧
    -- a membership period: the sink failed, or has exactly the member's part of the log
    (∀ before p nickname s reply rest, w.handled = before ++ [.command (.join p nickname s reply)] ++ rest →
      Opens id maxPlayers before p nickname s reply → w.pending = [] →
      (w.sinks s).failed = true ∨
        ∃ x, log w.progress = log (after id maxPlayers before) ++ .memberJoined id p nickname :: x ∧
          (w.sinks s).tx.enqueued =
            period p (after id maxPlayers before).actor.room.members (.memberJoined id p nickname :: x) ∧
          (w.sinks s).tx.enqueued <+: .memberJoined id p nickname :: x) ∧
    -- log, members and replies depend on the inputs alone, not on what the sinks do
    (∀ capacity' actions' w',
      (system ρ id maxPlayers capacity').run (system ρ id maxPlayers capacity').init actions' = some w' →
      w'.handled = w.handled → log w'.progress = log w.progress ∧
        w'.progress.actor.room.members = w.progress.actor.room.members ∧
        w'.progress.effects = w.progress.effects) := by
  have h := delivered hrun
  have hlast : ClosedLast w.progress := h.progress ▸ after_closedLast id maxPlayers w.handled
  refine ⟨?_, fun x e y hlog he => hlast.last hlog he, hlast, ?_, ?_, ?_, ?_⟩
  · rw [h.progress]
    exact after_members id maxPlayers w.handled
  · rw [h.progress]
    exact after_closedWhenEmptied id maxPlayers w.handled
  · intro i hi hends
    have hstop := after_stopped id maxPlayers w.handled i hi hends
    rw [← h.progress] at hstop
    rw [ClosedLast, if_pos hstop] at hlast
    obtain ⟨x, r, reason, hlog, -⟩ := hlast
    exact ⟨x, r, reason, hlog⟩
  · intro before p nickname s reply rest hhandled hopens hpending
    cases hfailed : (w.sinks s).failed with
    | true => exact Or.inl rfl
    | false =>
        obtain ⟨x, hlog, hperiod⟩ := hopens.received rest (by rwa [← hhandled])
        rw [← hhandled, ← h.progress] at hlog hperiod
        have henqueued := h.sinks s hfailed
        rw [hpending] at henqueued
        have hexact := (List.append_nil _).symm.trans (henqueued.trans hperiod.received)
        exact Or.inr ⟨x, hlog, hexact, hexact ▸ period_prefix p _ _⟩
  · intro capacity' actions' w' hrun' hhandled
    have hsame : w'.progress = w.progress := by
      rw [h.progress, (delivered hrun').progress, hhandled]
    rw [hsame]
    exact ⟨rfl, rfl, rfl⟩

/-- Two players come; the second one's queue holds one event, so its sink fails; both leave. -/
def pairActions : List (Action Unit) :=
  [.command (.join ⟨1⟩ "a" 10 ()), .send, .recv 10, .command (.join ⟨2⟩ "b" 20 ()), .send, .send,
    .command (.leave ⟨2⟩ "" ()), .send, .send, .command (.leave ⟨1⟩ "" ()), .send, .send]

theorem broadcast_total_order_pair :
    ∃ w, (system Unit ⟨7⟩ 2 fun s => if s = 20 then 1 else 64).run
        (system Unit ⟨7⟩ 2 fun s => if s = 20 then 1 else 64).init pairActions = some w ∧
      (joinSinks w.handled).Nodup ∧ foldMembers [] (log w.progress) = [] ∧ (w.sinks 20).failed = true ∧
      (log w.progress).drop 4 = [.closed ⟨7⟩ "最后一名成员已离开"] ∧
      (w.sinks 10).tx.enqueued = [.memberJoined ⟨7⟩ ⟨1⟩ "a", .memberJoined ⟨7⟩ ⟨2⟩ "b", .memberLeft ⟨7⟩ ⟨2⟩,
        .memberLeft ⟨7⟩ ⟨1⟩, .closed ⟨7⟩ "最后一名成员已离开"] := by
  refine ⟨_, rfl, by decide, ?_, by decide, ?_, by decide⟩
  · exact (broadcast_total_order ⟨7⟩ 2 (fun s => if s = 20 then 1 else 64) pairActions _ rfl (by decide)).1
  · have hemptied := (broadcast_total_order ⟨7⟩ 2 (fun s => if s = 20 then 1 else 64) pairActions _ rfl (by decide)).2.2.2.1
    exact hemptied [.memberJoined ⟨7⟩ ⟨1⟩ "a", .memberJoined ⟨7⟩ ⟨2⟩ "b", .memberLeft ⟨7⟩ ⟨2⟩] ⟨7⟩ ⟨1⟩ _ (by decide) rfl

end LongshipX.Broadcast
