import LongshipX.Room.Tasks

/-!
# The invariant of the service

`Fact` says what the position of a call promises about the room it works on. Each promise is one of the facts
that stay true while the state grows, so a call keeps its promise whatever the others do, and only its own
steps have to be looked at. `Created` follows the call that opened a room.

* `Grows` : how the whole state changes; `Fact.mono`, `Past.mono`, `Grows.sent`;
* `Inv` : the invariant; `Leads` : a step after which it holds again;
* `Inv.move` : a call's step keeps it, if its act is allowed and its new position is true.
-/

namespace LongshipX.Service
open RoomActor

def State.At (s : State) (room : RoomId) (P : RoomTask → Prop) : Prop := ∃ t, s.rooms room = some t ∧ P t

def State.Gone (s : State) (room : RoomId) : Prop := s.At room (fun t => t.inserted = true) ∧ room ∉ s.registry

/-- A command that call `k` has sent to a room. -/
def Op.Sends (op : Op) (k : CallId) (command : RoomCommand CallId) : Prop :=
  match op with
  | .joinOrCreate _ player nickname sink => command = .join player nickname sink k
  | .leave _ player reason => command = .leave player reason k
  | .leaveAll player reason => command = .leave player reason k
  | .chat _ _ _ => False
  | .closeAll _ => False

def Op.leaves : Op → Bool
  | .leave _ _ _ => true
  | .leaveAll _ _ => true
  | _ => false

def State.Sent (s : State) (k : CallId) (room : RoomId) (command : RoomCommand CallId) : Prop :=
  ∃ c, s.calls[k]? = some c ∧ room ∈ c.sent ∧ c.op.Sends k command

/-- **How the state changes.** -/
structure Grows (s s' : State) : Prop where
  rooms : ∀ r t, s.rooms r = some t → ∃ t', s'.rooms r = some t' ∧ t.Grows t'
  gone : ∀ r, s.Gone r → s'.Gone r
  calls : ∀ (k : CallId) (c : Call), s.calls[k]? = some c →
    ∃ c' : Call, s'.calls[k]? = some c' ∧ c'.op = c.op ∧ ∀ r ∈ c.sent, r ∈ c'.sent

section
variable {s s' : State}

theorem Grows.at (g : Grows s s') {r : RoomId} {P Q : RoomTask → Prop} (h : ∀ t t', t.Grows t' → P t → Q t') :
    s.At r P → s'.At r Q := by
  rintro ⟨t, ht, hp⟩
  obtain ⟨t', ht', hg⟩ := g.rooms r t ht
  exact ⟨t', ht', h t t' hg hp⟩

theorem Grows.sent (g : Grows s s') {k : CallId} {r : RoomId} {command : RoomCommand CallId} :
    s.Sent k r command → s'.Sent k r command := by
  rintro ⟨c, hc, hr, hop⟩
  obtain ⟨c', hc', hop', hsent⟩ := g.calls k c hc
  exact ⟨c', hc', hsent r hr, hop' ▸ hop⟩

/-- The leave of call `k` on this room is done with: its command was handled or never will be, and if it
emptied the room, the room is out of the registry. -/
def State.LeaveDone (s : State) (k : CallId) (r : RoomId) : Prop :=
  s.At r (fun t => t.Settled k ∧ (t.EmptiedBy k → s.Gone r))

theorem Grows.leaveDone (g : Grows s s') {k : CallId} {r : RoomId} : s.LeaveDone k r → s'.LeaveDone k r :=
  g.at fun _ _ hg h => ⟨hg.settled h.1, fun he => g.gone r (h.2 (hg.emptied k h.1 he))⟩

end

/-! ## What a position promises -/

/-- Rooms that are still to be visited: each once, and none visited before. -/
def Fresh (sent todo : List RoomId) : Prop := todo.Nodup ∧ ∀ r ∈ todo, r ∉ sent

/-- What the position of call `k` promises. -/
def Fact (s : State) (k : CallId) (c : Call) : Prop :=
  match c.pc with
  | .create => c.op.creates = true ∧ c.sent = []
  | .insert r => c.op.creates = true ∧ c.sent = [] ∧ s.At r (fun t => t.creator = k)
  | .joinLookup r => c.sent = [] ∧ (c.op.creates = true → s.At r (fun t => t.inserted = true))
  | .joinSend r => c.sent = [] ∧ s.At r (fun t => t.inserted = true)
  | .joinWait r none => s.At r RoomTask.Alive
  | .joinWait r (some (.answer (.ok _))) => s.At r (fun t => t.JoinedBy k)
  | .joinWait r (some (.answer (.error _))) => s.At r (fun t => t.Refused k)
  | .joinWait r (some .lost) => s.At r (fun t => t.actor.closed = true)
  | .joinPublish r => s.At r (fun t => t.JoinedBy k)
  | .undo r _ => c.op.creates = true ∧ (s.Gone r ∨ s.At r (fun t => t.actor.closed = true ∨ t.Refused k))
  | .liveHandles => c.sent = []
  | .leaveLookup r todo => Fresh c.sent (r :: todo)
  | .leaveSend r todo => Fresh c.sent (r :: todo) ∧ s.At r (fun t => t.inserted = true)
  | .leaveWait _ none todo => Fresh c.sent todo
  | .leaveWait r (some (.answer (.ok _))) todo => Fresh c.sent todo ∧ s.At r (fun t => t.LeftBy k)
  | .leaveWait _ (some (.answer (.error _))) _ => False
  | .leaveWait r (some .lost) todo => Fresh c.sent todo ∧ s.At r (fun t => t.receiver = false ∧ t.inserted = true)
  | .leaveForget r _ todo => Fresh c.sent todo ∧ s.At r (fun t => t.actor.closed = true ∧ t.inserted = true ∧ t.Settled k)
  | .leavePublish r todo => Fresh c.sent todo ∧ s.LeaveDone k r
  | .chatLookup _ => True
  | .chatSend r => s.At r (fun t => t.inserted = true)
  | .drain => ∃ reason, c.op = .closeAll reason
  | .closeSend r todo => ∀ x ∈ r :: todo, s.At x (fun t => t.inserted = true)
  | .returned (some r) => s.At r (fun t => t.JoinedBy k)
  | .returned none => True
  | .failed _ => c.op.leaves = false
  | .cancelled => True

/-- The room a call is busy leaving, once its command is sent. -/
def Pc.leaving : Pc → Option RoomId
  | .leaveWait r _ _ => some r
  | .leaveForget r _ _ => some r
  | .leavePublish r _ => some r
  | _ => none

def Past (s : State) (k : CallId) (c : Call) : Prop :=
  c.op.leaves = true → c.pc ≠ .cancelled → ∀ r ∈ c.sent, c.pc.leaving ≠ some r → s.LeaveDone k r

def Pc.Tends (pc : Pc) (s : State) (r : RoomId) (inserted : Bool) : Prop :=
  match pc with
  | .insert r' => r' = r ∧ inserted = false
  | .joinLookup r' => r' = r ∧ inserted = true
  | .joinSend r' => r' = r ∧ inserted = true
  | .joinWait r' _ => r' = r ∧ inserted = true
  | .joinPublish r' => r' = r ∧ inserted = true
  | .undo r' _ => r' = r ∧ inserted = true
  | .returned r' => r' = some r ∧ inserted = true
  | .failed _ => s.Gone r
  | .cancelled => True
  | _ => False

def Created (s : State) (r : RoomId) (t : RoomTask) : Prop :=
  ∃ c, s.calls[t.creator]? = some c ∧ c.op.creates = true ∧ c.pc.Tends s r t.inserted

/-- The room that a call tends, between registering it and returning. -/
def Pc.tending : Pc → Option RoomId
  | .joinLookup r => some r
  | .joinSend r => some r
  | .joinWait r _ => some r
  | .joinPublish r => some r
  | .undo r _ => some r
  | _ => none

/-- **The invariant of the service.** -/
structure Inv (s : State) : Prop where
  rooms : ∀ r t, s.rooms r = some t → RoomInv r t
  asked : ∀ r t, s.rooms r = some t → ∀ command ∈ t.accepted, ∀ k, replyOf command = some k → s.Sent k r command
  created : ∀ r t, s.rooms r = some t → Created s r t
  registry : ∀ r ∈ s.registry, s.At r (fun t => t.inserted = true)
  nodup : s.registry.Nodup
  calls : ∀ (k : CallId) (c : Call), s.calls[k]? = some c → Fact s k c ∧ Past s k c
  owns : ∀ (k : CallId) (c : Call), s.calls[k]? = some c → c.op.creates = true → ∀ r, c.pc.tending = some r →
    s.At r (fun t => t.creator = k)

/-- A good step: the state grows, and the invariant holds after it. -/
structure Leads (s s' : State) : Prop where
  grows : Grows s s'
  inv : Inv s'

section
variable {s s' : State} {k : CallId} {c : Call}

/-- **A call keeps its promise while others move.** -/
theorem Fact.mono (g : Grows s s') (h : Fact s k c) : Fact s' k c := by
  have hat := @Grows.at s s' g
  obtain ⟨op, pc, sent⟩ := c
  cases pc with
  | create | liveHandles | leaveLookup | chatLookup | drain | failed | cancelled => exact h
  | insert => exact ⟨h.1, h.2.1, hat (fun _ _ hg ht => hg.creator.trans ht) h.2.2⟩
  | joinLookup => exact ⟨h.1, fun hop => hat (fun _ _ hg => hg.inserted) (h.2 hop)⟩
  | joinSend => exact ⟨h.1, hat (fun _ _ hg => hg.inserted) h.2⟩
  | joinWait r reply =>
      obtain _ | (_ | _) | _ := reply
      · exact hat (fun _ _ hg => hg.alive) h
      · exact hat (fun _ _ hg => hg.refused) h
      · exact hat (fun _ _ hg => hg.joinedBy) h
      · exact hat (fun _ _ hg => hg.closed) h
  | joinPublish => exact hat (fun _ _ hg => hg.joinedBy) h
  | undo => exact ⟨h.1, h.2.imp (g.gone _) (hat (fun _ _ hg ht => ht.imp hg.closed hg.refused))⟩
  | leaveSend => exact ⟨h.1, hat (fun _ _ hg => hg.inserted) h.2⟩
  | leaveWait r reply todo =>
      obtain _ | (_ | _) | _ := reply
      · exact h
      · exact h
      · exact ⟨h.1, hat (fun _ _ hg => hg.leftBy) h.2⟩
      · exact ⟨h.1, hat (fun _ _ hg ht => ⟨hg.receiver ht.1, hg.inserted ht.2⟩) h.2⟩
  | leaveForget => exact ⟨h.1, hat (fun _ _ hg ht => ⟨hg.closed ht.1, hg.inserted ht.2.1, hg.settled ht.2.2⟩) h.2⟩
  | leavePublish => exact ⟨h.1, g.leaveDone h.2⟩
  | chatSend => exact hat (fun _ _ hg => hg.inserted) h
  | closeSend => exact fun x hx => hat (fun _ _ hg => hg.inserted) (h x hx)
  | returned r =>
      obtain _ | r := r
      · exact h
      · exact hat (fun _ _ hg => hg.joinedBy) h

theorem Past.mono (g : Grows s s') (h : Past s k c) : Past s' k c :=
  fun hop hpc r hr hne => g.leaveDone (h hop hpc r hr hne)

end

/-! ## The shared state after one access -/

section
variable {s : State} {r r' : RoomId} {f : RoomTask → RoomTask} {t t' : RoomTask}

theorem State.update_cases (h : (s.update r f).rooms r' = some t') :
    (∃ t, r' = r ∧ s.rooms r = some t ∧ t' = f t) ∨ (r' ≠ r ∧ s.rooms r' = some t') := by
  by_cases hr : r' = r
  · subst hr
    obtain ⟨t, ht, hft⟩ := Option.map_eq_some_iff.mp ((Function.update_self r' _ s.rooms).symm.trans h)
    exact Or.inl ⟨t, rfl, ht, hft.symm⟩
  · exact Or.inr ⟨hr, (Function.update_of_ne hr _ s.rooms).symm.trans h⟩

theorem State.update_self (h : s.rooms r = some t) : (s.update r f).rooms r = some (f t) := by
  show Function.update s.rooms r _ r = _
  rw [Function.update_self, h]
  rfl

theorem State.update_of_ne (h : r' ≠ r) : (s.update r f).rooms r' = s.rooms r' := Function.update_of_ne h _ _

theorem State.update_grows (hf : ∀ t, s.rooms r = some t → t.Grows (f t)) (h : s.rooms r' = some t) :
    ∃ t', (s.update r f).rooms r' = some t' ∧ t.Grows t' := by
  by_cases hr : r' = r
  · subst hr
    exact ⟨f t, State.update_self h, hf t h⟩
  · exact ⟨t, (State.update_of_ne hr).trans h, RoomTask.Grows.refl t⟩

end

theorem modify_cases {l : List Call} {k j : CallId} {f : Call → Call} {c' : Call} (h : (l.modify k f)[j]? = some c') :
    (∃ c, j = k ∧ l[k]? = some c ∧ c' = f c) ∨ (j ≠ k ∧ l[j]? = some c') := by
  rw [List.getElem?_modify] at h
  obtain ⟨c, hc, hfc⟩ := Option.map_eq_some_iff.mp h
  by_cases hjk : k = j
  · subst hjk
    rw [if_pos rfl] at hfc
    exact Or.inl ⟨c, rfl, hc, hfc.symm⟩
  · rw [if_neg hjk] at hfc
    exact Or.inr ⟨fun he => hjk he.symm, hfc ▸ hc⟩

theorem modify_self {l : List Call} {k : CallId} {f : Call → Call} {c : Call} (h : l[k]? = some c) :
    (l.modify k f)[k]? = some (f c) := by
  rw [List.getElem?_modify, h]
  simp

theorem modify_of_ne {l : List Call} {k j : CallId} {f : Call → Call} (h : j ≠ k) : (l.modify k f)[j]? = l[j]? := by
  rw [List.getElem?_modify]
  cases l[j]? with
  | none => rfl
  | some c => simp [Ne.symm h]

/-- What a call may do to the shared state, given its position. -/
def Act.Allowed (act : Act) (s : State) (k : CallId) (c : Call) : Prop :=
  match act with
  | .register r => c.pc = .insert r
  | .enqueue r command => s.At r (fun t => t.receiver = true ∧ t.inserted = true) ∧
      ∀ j, replyOf command = some j → j = k ∧ r ∉ c.sent ∧ c.op.Sends k command
  | _ => True

section
variable {s : State} {k : CallId} {c : Call} {act : Act} {pc : Pc}

def Call.moved (c : Call) (act : Act) (pc : Pc) : Call := { c with pc := pc, sent := c.sent ++ act.asks.toList }

theorem State.apply_calls (s : State) (act : Act) : (s.apply act).calls = s.calls := by
  cases act <;> rfl

theorem State.move_self (hc : s.calls[k]? = some c) : (s.move k act pc).calls[k]? = some (c.moved act pc) := by
  show ((s.apply act).calls.modify k _)[k]? = _
  rw [State.apply_calls]
  exact modify_self hc

theorem State.move_cases {j : CallId} {c' : Call} (h : (s.move k act pc).calls[j]? = some c') :
    (∃ c, j = k ∧ s.calls[k]? = some c ∧ c' = c.moved act pc) ∨ (j ≠ k ∧ s.calls[j]? = some c') := by
  replace h : ((s.apply act).calls.modify k _)[j]? = some c' := h
  rw [State.apply_calls] at h
  exact modify_cases h

/-- The tasks after a call's step: one may have got a command, or have been registered. -/
theorem State.move_rooms {r : RoomId} {t' : RoomTask} (ht' : (s.move k act pc).rooms r = some t') :
    ∃ t, s.rooms r = some t ∧ (t' = t ∨ (act = .register r ∧ t' = { t with inserted := true }) ∨
      ∃ command, act = .enqueue r command ∧ t' = t.push command) := by
  cases act with
  | skip | forget | retain | drain | publish => exact ⟨t', ht', Or.inl rfl⟩
  | register r0 =>
      obtain ⟨t, rfl, ht, rfl⟩ | ⟨-, ht⟩ := State.update_cases ht'
      · exact ⟨t, ht, Or.inr (Or.inl ⟨rfl, rfl⟩)⟩
      · exact ⟨t', ht, Or.inl rfl⟩
  | enqueue r0 command =>
      obtain ⟨t, rfl, ht, rfl⟩ | ⟨-, ht⟩ := State.update_cases ht'
      · exact ⟨t, ht, Or.inr (Or.inr ⟨command, rfl, rfl⟩)⟩
      · exact ⟨t', ht, Or.inl rfl⟩

theorem Inv.insert_hidden (h : Inv s) (hc : s.calls[k]? = some c) {r : RoomId} (hpc : c.pc = .insert r) :
    s.At r (fun t => t.creator = k ∧ t.inserted = false) := by
  have hfact := (h.calls k c hc).1
  unfold Fact at hfact
  rw [hpc] at hfact
  obtain ⟨t, ht, hcreator⟩ := hfact.2.2
  obtain ⟨c', hc', -, htends⟩ := h.created r t ht
  rw [hcreator, hc, Option.some.injEq] at hc'
  rw [← hc', hpc] at htends
  exact ⟨t, ht, hcreator, htends.2⟩

/-- **A call's step makes the state grow.** -/
theorem Inv.move_grows (h : Inv s) (hc : s.calls[k]? = some c) (hact : act.Allowed s k c) :
    Grows s (s.move k act pc) := by
  refine ⟨fun r t ht => ?_, fun r hr => ?_, fun j c' hc' => ?_⟩
  · cases act with
    | skip | forget | retain | drain | publish => exact ⟨t, ht, RoomTask.Grows.refl t⟩
    | register r0 => exact State.update_grows (fun t _ => t.grows_inserted) ht
    | enqueue r0 command => exact State.update_grows (fun t _ => t.grows_push command) ht
  · obtain ⟨⟨t, ht, hinserted⟩, hnot⟩ := hr
    cases act with
    | skip | publish => exact ⟨⟨t, ht, hinserted⟩, hnot⟩
    | forget | retain => exact ⟨⟨t, ht, hinserted⟩, fun hm => hnot (List.mem_of_mem_filter hm)⟩
    | drain => exact ⟨⟨t, ht, hinserted⟩, List.not_mem_nil⟩
    | enqueue r0 command =>
        obtain ⟨t', ht', hg⟩ := State.update_grows (fun t _ => t.grows_push command) ht
        exact ⟨⟨t', ht', hg.inserted hinserted⟩, hnot⟩
    | register r0 =>
        obtain ⟨t', ht', hg⟩ := State.update_grows (fun t _ => t.grows_inserted) ht
        refine ⟨⟨t', ht', hg.inserted hinserted⟩, fun hm => ?_⟩
        obtain rfl | hm := List.mem_insert_iff.mp hm
        · obtain ⟨t0, ht0, -, hhidden⟩ := h.insert_hidden hc hact
          rw [ht, Option.some.injEq] at ht0
          rw [← ht0, hinserted] at hhidden
          cases hhidden
        · exact hnot hm
  · by_cases hjk : j = k
    · subst hjk
      refine ⟨_, State.move_self hc', rfl, fun r hr => List.mem_append_left _ hr⟩
    · refine ⟨c', ?_, rfl, fun r hr => hr⟩
      show ((s.apply act).calls.modify k _)[j]? = _
      rw [State.apply_calls, modify_of_ne hjk]
      exact hc'

theorem Pc.Tends.mono {s' : State} (g : Grows s s') {r : RoomId} {inserted : Bool} (h : pc.Tends s r inserted) :
    pc.Tends s' r inserted := by
  cases pc with
  | failed => exact g.gone r h
  | create | insert | joinLookup | joinSend | joinWait | joinPublish | undo | liveHandles | leaveLookup | leaveSend
  | leaveWait | leaveForget | leavePublish | chatLookup | chatSend | drain | closeSend | returned | cancelled => exact h

/-- **The rule for a call's step**: the act is allowed, the new position is true, and if the call opened a
room, it still tends it. -/
theorem Inv.move (h : Inv s) (hc : s.calls[k]? = some c) (hact : act.Allowed s k c)
    (hfact : Fact (s.move k act pc) k (c.moved act pc)) (hpast : Past (s.move k act pc) k (c.moved act pc))
    (htends : ∀ r t t', s.rooms r = some t → (s.move k act pc).rooms r = some t' → t.Grows t' →
      c.op.creates = true → c.pc.Tends s r t.inserted → pc.Tends (s.move k act pc) r t'.inserted)
    (howns : c.op.creates = true → ∀ r, pc.tending = some r → c.pc.tending = some r ∨ act = .register r) :
    Leads s (s.move k act pc) := by
  have g : Grows s (s.move k act pc) := h.move_grows hc hact
  refine ⟨g, fun r t' ht' => ?_, fun r t' ht' command hcommand j hj => ?_, fun r t' ht' => ?_, fun r hr => ?_,
    ?_, fun j c' hc' => ?_, fun j c' hc' hcreates r hr => ?_⟩
  · obtain ⟨t, ht, rfl | ⟨-, rfl⟩ | ⟨command, rfl, rfl⟩⟩ := State.move_rooms ht'
    · exact h.rooms r t' ht
    · exact (h.rooms r t ht).published
    · obtain ⟨⟨t0, ht0, hreceiver, hinserted⟩, hnew⟩ := hact
      obtain rfl : t0 = t := Option.some.inj (ht0.symm.trans ht)
      refine (h.rooms r t0 ht).push hreceiver hinserted fun j hj hmem => ?_
      obtain ⟨rfl, hsent, -⟩ := hnew j hj
      obtain ⟨command', hcommand', hreply⟩ := List.mem_filterMap.mp hmem
      obtain ⟨c', hc', hr, -⟩ := h.asked r t0 ht command' hcommand' j hreply
      rw [hc, Option.some.injEq] at hc'
      exact hsent (hc' ▸ hr)
  · obtain ⟨t, ht, rfl | ⟨-, rfl⟩ | ⟨command', rfl, rfl⟩⟩ := State.move_rooms ht'
    · exact g.sent (h.asked r t' ht command hcommand j hj)
    · exact g.sent (h.asked r t ht command hcommand j hj)
    · rw [RoomTask.accepted_push] at hcommand
      obtain hcommand | hcommand := List.mem_append.mp hcommand
      · exact g.sent (h.asked r t ht command hcommand j hj)
      · obtain rfl := List.mem_singleton.mp hcommand
        obtain ⟨rfl, -, hsends⟩ := hact.2 j hj
        refine ⟨_, State.move_self hc, List.mem_append_right _ ?_, hsends⟩
        simp [Act.asks, hj]
  · obtain ⟨t, ht, hcases⟩ := State.move_rooms ht'
    obtain ⟨t'', ht'', hgrow⟩ := g.rooms r t ht
    obtain rfl : t'' = t' := Option.some.inj (ht''.symm.trans ht')
    obtain ⟨c0, hc0, hcreates, htend⟩ := h.created r t ht
    unfold Created
    rw [hgrow.creator]
    by_cases hk : t.creator = k
    · rw [hk, hc, Option.some.injEq] at hc0
      subst hc0
      refine ⟨c.moved act pc, ?_, hcreates, htends r t t'' ht ht' hgrow hcreates htend⟩
      rw [hk]
      exact State.move_self hc
    · obtain ⟨c1, hc1, hop, -⟩ := g.calls _ c0 hc0
      have hsame : c1 = c0 := by
        obtain ⟨-, he, -⟩ | ⟨-, hc1'⟩ := State.move_cases hc1
        · exact absurd he hk
        · exact Option.some.inj (hc1'.symm.trans hc0)
      have hinserted : t''.inserted = t.inserted := by
        obtain rfl | ⟨rfl, rfl⟩ | ⟨command', rfl, rfl⟩ := hcases
        · rfl
        · obtain ⟨t0, ht0, hcreator, -⟩ := h.insert_hidden hc hact
          rw [ht, Option.some.injEq] at ht0
          exact absurd (ht0 ▸ hcreator) hk
        · rfl
      refine ⟨c1, hc1, hop ▸ hcreates, ?_⟩
      rw [hsame, hinserted]
      exact htend.mono g
  · have hold : ∀ x ∈ s.registry, (s.move k act pc).At x (fun t => t.inserted = true) :=
      fun x hx => g.at (fun _ _ hg => hg.inserted) (h.registry x hx)
    cases act with
    | skip | publish | enqueue => exact hold r hr
    | forget | retain => exact hold r (List.mem_of_mem_filter hr)
    | drain => cases hr
    | register r0 =>
        obtain rfl | hr := List.mem_insert_iff.mp hr
        · obtain ⟨t, ht, -⟩ := h.insert_hidden hc hact
          exact ⟨_, State.update_self ht, rfl⟩
        · exact hold r hr
  · cases act with
    | skip | publish | enqueue => exact h.nodup
    | forget | retain => exact h.nodup.filter _
    | drain => exact List.nodup_nil
    | register r0 => exact h.nodup.insert
  · obtain ⟨c0, rfl, hc0, rfl⟩ | ⟨-, hc0⟩ := State.move_cases hc'
    · obtain rfl : c0 = c := Option.some.inj (hc0.symm.trans hc)
      exact ⟨hfact, hpast⟩
    · obtain ⟨hf, hp⟩ := h.calls j c' hc0
      exact ⟨hf.mono g, hp.mono g⟩
  · obtain ⟨c0, rfl, hc0, rfl⟩ | ⟨-, hc0⟩ := State.move_cases hc'
    · obtain rfl : c0 = c := Option.some.inj (hc0.symm.trans hc)
      obtain hr | rfl := howns hcreates r hr
      · exact g.at (fun _ _ hg ht => hg.creator.trans ht) (h.owns j c0 hc hcreates r hr)
      · exact g.at (fun _ _ hg ht => hg.creator.trans ht.1) (h.insert_hidden hc hact)
    · exact g.at (fun _ _ hg ht => hg.creator.trans ht) (h.owns j c' hc0 hcreates r hr)

end

end LongshipX.Service
