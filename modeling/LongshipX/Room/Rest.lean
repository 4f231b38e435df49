import LongshipX.Room.Termination

/-!
# At rest

When no step of the service's own is left, every call has its answer, and every actor that is still there waits
on an empty queue for a room that is in the registry. A full queue does not stop the service, since its actor
can always go on; nor does an answer that is waited for, since somebody owes it.

* `Label.own` : the steps that need no client; `Settled` : nothing left to do;
* `rests_iff` : no step of its own is enabled exactly in a settled state;
* `every_call_answered` : from every reachable state it gets there;
* `close_all_ends_every_room` : after `close_all`, no actor is left when it does.
-/

namespace LongshipX.Service
open RoomActor

/-- The steps that the service takes by itself: no new call, and no call dropped by its client. -/
def Label.own : Label → Bool
  | .start _ => false
  | .cancel _ => false
  | _ => true

/-- Nothing is left to do. -/
structure Settled (s : State) : Prop where
  calls : ∀ (k : CallId) (c : Call), s.calls[k]? = some c → c.pc.over = true
  rooms : ∀ r t, s.rooms r = some t → t.queue = [] ∧ t.outbox = [] ∧
    (t.receiver = true → t.actor.closed = false ∧ r ∈ s.registry)

section
variable {config : RoomServiceConfig} {s s' : State} {k : CallId} {c : Call} {r : RoomId} {t : RoomTask}

/-! ## A call that can go on -/

theorem Pc.handles_over {op : Op} {pc : Pc} {sent : List RoomId} (h : pc.over = true) :
    Call.handles ⟨op, pc, sent⟩ = [] := by
  cases pc with
  | returned | failed | cancelled => rfl
  | create | insert | joinLookup | joinSend | joinWait | joinPublish | undo | liveHandles | leaveLookup | leaveSend
  | leaveWait | leaveForget | leavePublish | chatLookup | chatSend | drain | closeSend => cases h

theorem advanceJoin_isSome {creates : Bool} {player : PlayerId} {nickname : String} {sink : SinkId} {pc : Pc}
    (hpc : pc.joins = true) (hover : pc.over = false) (hawaits : pc.awaits = none) (hcreate : pc ≠ .create)
    (hgate : ∀ r, s.gate config r ≠ .full) :
    (advanceJoin config s k creates player nickname sink pc).isSome = true := by
  cases pc with
  | create => exact absurd rfl hcreate
  | insert | joinPublish | undo => rfl
  | joinLookup r =>
      simp only [advanceJoin]
      split <;> rfl
  | joinSend r =>
      simp only [advanceJoin]
      cases hopen : s.gate config r with
      | full => exact absurd hopen (hgate r)
      | «open» | closed => rfl
  | joinWait r reply =>
      obtain _ | (_ | _) | _ := reply
      · cases hawaits
      all_goals rfl
  | returned | failed | cancelled => cases hover
  | liveHandles | leaveLookup | leaveSend | leaveWait | leaveForget | leavePublish | chatLookup | chatSend | drain
  | closeSend => cases hpc

theorem advanceLeave_isSome {player : PlayerId} {reason : String} {pc : Pc} (hpc : pc.leaves = true)
    (hover : pc.over = false) (hawaits : pc.awaits = none) (hgate : ∀ r, s.gate config r ≠ .full) :
    (advanceLeave config s k player reason pc).isSome = true := by
  cases pc with
  | leaveForget | leavePublish => rfl
  | leaveLookup r todo =>
      simp only [advanceLeave]
      split <;> rfl
  | leaveSend r todo =>
      simp only [advanceLeave]
      cases hopen : s.gate config r with
      | full => exact absurd hopen (hgate r)
      | «open» => rfl
      | closed =>
          dsimp only
          split_ifs <;> rfl
  | leaveWait r reply todo =>
      obtain _ | (_ | _) | _ := reply
      · cases hawaits
      all_goals
        simp only [advanceLeave]
        try split_ifs
      all_goals rfl
  | returned | failed | cancelled => cases hover
  | create | insert | joinLookup | joinSend | joinWait | joinPublish | undo | liveHandles | chatLookup | chatSend | drain
  | closeSend => cases hpc

theorem advanceChat_isSome {player : PlayerId} {text : String} {pc : Pc} (hpc : pc.chats = true)
    (hover : pc.over = false) : (advanceChat config s player text pc).isSome = true := by
  cases pc with
  | chatLookup r =>
      simp only [advanceChat]
      split_ifs
      · rfl
      · rfl
      · split <;> rfl
  | chatSend r =>
      simp only [advanceChat]
      split <;> rfl
  | returned | failed | cancelled => cases hover
  | create | insert | joinLookup | joinSend | joinWait | joinPublish | undo | liveHandles | leaveLookup | leaveSend
  | leaveWait | leaveForget | leavePublish | drain | closeSend => cases hpc

theorem advanceClose_isSome {reason : String} {pc : Pc} (hpc : pc.closes = true) (hover : pc.over = false)
    (hdrain : pc ≠ .drain) (hgate : ∀ r, s.gate config r ≠ .full) :
    (advanceClose config s reason pc).isSome = true := by
  cases pc with
  | drain => exact absurd rfl hdrain
  | closeSend r todo =>
      simp only [advanceClose]
      cases hopen : s.gate config r with
      | full => exact absurd hopen (hgate r)
      | «open» | closed => rfl
  | returned | failed | cancelled => cases hover
  | create | insert | joinLookup | joinSend | joinWait | joinPublish | undo | liveHandles | leaveLookup | leaveSend
  | leaveWait | leaveForget | leavePublish | chatLookup | chatSend => cases hpc

/-- **A call that waits for no reply, and meets no full queue, has a next step**, unless it has yet to look at
the rooms. -/
theorem advance_isSome (hstands : c.op.stands c.pc = true) (hover : c.pc.over = false) (hawaits : c.pc.awaits = none)
    (hcreate : c.pc ≠ .create) (hlive : c.pc ≠ .liveHandles) (hdrain : c.pc ≠ .drain)
    (hgate : ∀ r, s.gate config r ≠ .full) : (advance config s k c).isSome = true := by
  obtain ⟨op, pc, sent⟩ := c
  cases op with
  | joinOrCreate room player nickname sink => exact advanceJoin_isSome hstands hover hawaits hcreate hgate
  | leave room player reason => exact advanceLeave_isSome hstands hover hawaits hgate
  | leaveAll player reason =>
      refine advanceLeave_isSome ?_ hover hawaits hgate
      cases pc with
      | liveHandles => exact absurd rfl hlive
      | create | insert | joinLookup | joinSend | joinWait | joinPublish | undo | leaveLookup | leaveSend | leaveWait
      | leaveForget | leavePublish | chatLookup | chatSend | drain | closeSend | returned | failed | cancelled =>
          exact hstands
  | chat room player text => exact advanceChat_isSome hstands hover
  | closeAll reason => exact advanceClose_isSome hstands hover hdrain hgate

/-! ## What is enabled -/

theorem idle_actor (ht : s.rooms r = some t) (hinv : Inv s) (hrest : (system config).Rests (fun l => l.own = true) s) :
    t.queue = [] ∧ t.outbox = [] ∧ (t.receiver = true → t.actor.closed = false) := by
  have hroom := hinv.rooms r t ht
  have houtbox : t.outbox = [] := by
    cases hout : t.outbox with
    | nil => rfl
    | cons e rest =>
        have hstep : s.step config (.perform r) = none := hrest (.perform r) rfl
        simp only [State.step, ht, hout] at hstep
        cases hstep
  have hopen : t.receiver = true → t.actor.closed = false := by
    intro hreceiver
    have hstep : s.step config (.terminate r) = none := hrest (.terminate r) rfl
    simp only [State.step, ht, hreceiver, houtbox, List.isEmpty_nil, Bool.true_and, Bool.and_true] at hstep
    split_ifs at hstep with hstopping
    rw [← hroom.stopping]
    simpa using hstopping
  refine ⟨?_, houtbox, hopen⟩
  cases hreceiver : t.receiver with
  | false => exact (hroom.dropped hreceiver).2.1
  | true =>
      cases hqueue : t.queue with
      | nil => rfl
      | cons command rest =>
          have hidle : t.idle = true := RoomTask.idle_iff.mpr ⟨hreceiver, hroom.stopping.trans (hopen hreceiver), houtbox⟩
          have hstep : s.step config (.process r) = none := hrest (.process r) rfl
          simp only [State.step, ht, hidle, hqueue] at hstep
          cases hstep

theorem gate_of_empty (hcapacity : 0 < config.commandCapacity) (hempty : ∀ r t, s.rooms r = some t → t.queue = [])
    (r : RoomId) : s.gate config r ≠ .full := by
  unfold State.gate
  cases ht : s.rooms r with
  | none => simp
  | some t =>
      dsimp only
      rw [hempty r t ht, List.length_nil, if_pos hcapacity]
      split_ifs <;> decide

theorem awaits_none (h : Answerable s) (hc : s.calls[k]? = some c)
    (hempty : ∀ r t, s.rooms r = some t → t.queue = [] ∧ t.outbox = []) : c.pc.awaits = none := by
  cases hawaits : c.pc.awaits with
  | none => rfl
  | some x =>
      obtain ⟨t, ht, howes⟩ := h.owed k c hc x.1 x.2 hawaits
      obtain ⟨hqueue, houtbox⟩ := hempty x.1 t ht
      obtain ⟨command, hmem, -⟩ | ⟨e, hmem, -⟩ := howes
      · rw [hqueue] at hmem
        cases hmem
      · rw [houtbox] at hmem
        cases hmem

theorem step_next (hc : s.calls[k]? = some c) (h : s.step config (.next k) = none) : advance config s k c = none := by
  simp only [State.step, hc] at h
  exact Option.map_eq_none_iff.mp h

theorem calls_over (hinv : Inv s) (hanswerable : Answerable s) (hcapacity : 0 < config.commandCapacity)
    (hfresh : ∃ r, s.rooms r = none) (hrest : (system config).Rests (fun l => l.own = true) s)
    (hc : s.calls[k]? = some c) : c.pc.over = true := by
  have hempty : ∀ r t, s.rooms r = some t → t.queue = [] ∧ t.outbox = [] := fun r t ht =>
    ⟨(idle_actor ht hinv hrest).1, (idle_actor ht hinv hrest).2.1⟩
  cases hover : c.pc.over with
  | true => rfl
  | false =>
      have hcreate : c.pc ≠ .create := by
        intro hpc
        obtain ⟨op, pc, sent⟩ := c
        obtain ⟨r, hr⟩ := hfresh
        dsimp only at hpc
        subst hpc
        have hstep : s.step config (.openRoom k r) = none := hrest (.openRoom k r) rfl
        simp [State.step, hc, hr] at hstep
      have hlive : c.pc ≠ .liveHandles := by
        intro hpc
        obtain ⟨op, pc, sent⟩ := c
        dsimp only at hpc
        subst hpc
        have hstep : s.step config (.liveHandles k (s.apply .retain).registry) = none := hrest (.liveHandles k _) rfl
        simp [State.step, hc] at hstep
      have hdrain : c.pc ≠ .drain := by
        intro hpc
        obtain ⟨op, pc, sent⟩ := c
        dsimp only at hpc
        subst hpc
        have hstep : s.step config (.drain k s.registry) = none := hrest (.drain k _) rfl
        simp [State.step, hc] at hstep
      have hsome := advance_isSome (k := k) (hanswerable.stands k c hc) hover (awaits_none hanswerable hc hempty) hcreate
        hlive hdrain (gate_of_empty hcapacity fun r t ht => (hempty r t ht).1)
      rw [step_next hc (hrest (.next k) rfl)] at hsome
      cases hsome

theorem settled_of_rests (hinv : Inv s) (hanswerable : Answerable s) (hcapacity : 0 < config.commandCapacity)
    (hfresh : ∃ r, s.rooms r = none) (hrest : (system config).Rests (fun l => l.own = true) s) : Settled s := by
  have hover : ∀ (k : CallId) (c : Call), s.calls[k]? = some c → c.pc.over = true :=
    fun k c hc => calls_over hinv hanswerable hcapacity hfresh hrest hc
  refine ⟨hover, fun r t ht => ?_⟩
  obtain ⟨hqueue, houtbox, hopen⟩ := idle_actor ht hinv hrest
  refine ⟨hqueue, houtbox, fun hreceiver => ⟨hopen hreceiver, ?_⟩⟩
  by_contra hr
  have hidle : t.idle = true :=
    RoomTask.idle_iff.mpr ⟨hreceiver, (hinv.rooms r t ht).stopping.trans (hopen hreceiver), houtbox⟩
  have hhandles : (s.calls.all fun c => !decide (r ∈ c.handles)) = true := by
    refine List.all_eq_true.mpr fun c hmem => ?_
    obtain ⟨k, hc⟩ := List.mem_iff_getElem?.mp hmem
    rw [show c.handles = [] from Pc.handles_over (hover k c hc)]
    rfl
  have hstep : s.step config (.hangup r) = none := hrest (.hangup r) rfl
  simp only [State.step, ht, hidle, hqueue, hr, hhandles] at hstep
  cases hstep

theorem rests_of_settled (hinv : Inv s) (h : Settled s) : (system config).Rests (fun l => l.own = true) s := by
  rintro label hown
  rw [Option.eq_none_iff_forall_ne_some]
  intro s' hstep
  replace hstep : s.step config label = some s' := hstep
  have hcall : ∀ {k : CallId} {c : Call}, s.calls[k]? = some c → c.pc.over = false → False := by
    intro k c hc hover
    rw [h.calls k c hc] at hover
    cases hover
  cases step_stepped hstep with
  | start | cancel => cases hown
  | openRoom k r op sent hc => exact hcall hc rfl
  | next k c act pc hc hadvance => exact hcall hc (advance_not_over hadvance)
  | liveHandles k order op sent hc => exact hcall hc rfl
  | drain k order op sent hc => exact hcall hc rfl
  | process r t command rest ht hidle hqueue =>
      rw [(h.rooms r t ht).1] at hqueue
      cases hqueue
  | perform r t e rest ht houtbox =>
      rw [(h.rooms r t ht).2.1] at houtbox
      cases houtbox
  | hangup r t ht hidle =>
      have hr := ((h.rooms r t ht).2.2 (RoomTask.idle_iff.mp hidle).1).2
      simp [State.step, ht, hr] at hstep
  | terminate r t ht hstopping =>
      have hopen := ((h.rooms r t ht).2.2 (receiver_of_terminate hstep ht)).1
      rw [(hinv.rooms r t ht).stopping, hopen] at hstopping
      cases hstopping

/-! ## The service comes to rest -/

/-- **No deadlock**: in every reachable state, the service has a step of its own left, unless every call has its
answer and every actor that is still there waits, on an empty queue, for a registered room. -/
theorem rests_iff {labels : List Label} (hcapacity : 0 < config.commandCapacity) (hfresh : ∃ r, s.rooms r = none)
    (hrun : (system config).run (system config).init labels = some s) :
    (∀ label, label.own = true → s.step config label = none) ↔ Settled s := by
  obtain ⟨hinv, hanswerable⟩ := run_answerable hrun
  exact ⟨settled_of_rests hinv hanswerable hcapacity hfresh, rests_of_settled hinv⟩

theorem exists_fresh {ids : Finset RoomId} (h : Opened s ids) (hcalls : s.calls.length < 2 ^ 128) :
    ∃ r, s.rooms r = none := by
  have hcount := h.calls
  obtain ⟨uuid, huuid⟩ := BitVec.exists_fresh (ids.image RoomId.uuid)
    (Finset.card_image_le.trans_lt (by omega))
  refine ⟨⟨uuid⟩, ?_⟩
  rw [← Option.not_isSome_iff_eq_none, ← h.rooms]
  exact fun hmem => huuid (Finset.mem_image_of_mem _ hmem)

theorem Inv.own_step_call (hinv : Inv s) {label : Label} (hown : label.own = true) (hstep : s.step config label = some s')
    (hc : s.calls[k]? = some c) (hpc : c.pc ≠ .cancelled) :
    ∃ c', s'.calls[k]? = some c' ∧ c'.op = c.op ∧ c'.pc ≠ .cancelled := by
  obtain ⟨c', hc', hop, -⟩ := (hinv.step hstep).grows.calls k c hc
  refine ⟨c', hc', hop, ?_⟩
  have hreached : ∀ {pc : Pc}, pc.reached = true → pc ≠ .cancelled := by
    rintro pc h rfl
    cases h
  obtain ⟨-, op, rfl, -⟩ | ⟨c₀, hc₀, hcall⟩ := (step_taken hstep).call hc'
  · cases hown
  · obtain rfl := Option.some.inj (hc.symm.trans hc₀)
    cases hcall with
    | same => exact hpc
    | opened => exact fun he => by cases he
    | next act pc hadvance => exact hreached (advance_spends hadvance 0).reached
    | retain order => exact hreached (reached_leaveNext order)
    | drain order => exact hreached (reached_closeNext order)
    | cancel hlabel =>
        rw [hlabel] at hown
        cases hown
    | answered r c' hanswered =>
        cases hanswered with
        | same => exact hpc
        | join | leave => exact fun he => by cases he

theorem Inv.own_run_call {labels : List Label} (hinv : Inv s) (hown : ∀ label ∈ labels, label.own = true)
    (hrun : (system config).run s labels = some s') (hc : s.calls[k]? = some c) (hpc : c.pc ≠ .cancelled) :
    ∃ c', s'.calls[k]? = some c' ∧ c'.op = c.op ∧ c'.pc ≠ .cancelled := by
  refine (TransitionSystem.run_induction (T := system config) (fun _ label => label.own = true)
    (I := fun u => Inv u ∧ ∃ c', u.calls[k]? = some c' ∧ c'.op = c.op ∧ c'.pc ≠ .cancelled) ?_ ⟨hinv, c, hc, rfl, hpc⟩
    (TransitionSystem.along_of_forall (fun label hlabel _ => hown label hlabel) s) hrun).2
  rintro u label u' ⟨hinv, c', hc', hop, hpc'⟩ hown hstep
  obtain ⟨c'', hc'', hop', hpc''⟩ := hinv.own_step_call hown hstep hc' hpc'
  exact ⟨(hinv.step hstep).inv, c'', hc'', hop'.trans hop, hpc''⟩

theorem Pc.answer_of_over {pc : Pc} (h : pc.over = true) (hpc : pc ≠ .cancelled) :
    (∃ room, pc = .returned room) ∨ ∃ err, pc = .failed err := by
  cases pc with
  | returned room => exact Or.inl ⟨room, rfl⟩
  | failed err => exact Or.inr ⟨err, rfl⟩
  | cancelled => exact absurd rfl hpc
  | create | insert | joinLookup | joinSend | joinWait | joinPublish | undo | liveHandles | leaveLookup | leaveSend
  | leaveWait | leaveForget | leavePublish | chatLookup | chatSend | drain | closeSend => cases h

theorem own_not_start {label : Label} (h : label.own = true) (op : Op) : label ≠ .start op := by
  rintro rfl
  cases h

theorem own_run_length {labels : List Label} (hinv : Inv s) {ids : Finset RoomId} (hopened : Opened s ids)
    (hown : ∀ label ∈ labels, label.own = true) (hrun : (system config).run s labels = some s') :
    ∃ ids', Opened s' ids' ∧ s'.calls.length = s.calls.length := by
  refine (TransitionSystem.run_induction (T := system config) (fun _ label => label.own = true)
    (I := fun u => Inv u ∧ ∃ ids', Opened u ids' ∧ u.calls.length = s.calls.length) ?_ ⟨hinv, ids, hopened, rfl⟩
    (TransitionSystem.along_of_forall (fun label hlabel _ => hown label hlabel) s) hrun).2
  rintro u label u' ⟨hinv, ids', hopened, hlength⟩ hown hstep
  obtain ⟨ids'', heases⟩ := hopened.step hinv (own_not_start hown) hstep
  exact ⟨(hinv.step hstep).inv, ids'', heases.opened, heases.calls.trans hlength⟩

/-- **Every call gets its answer**: from any reachable state, the service's own steps lead to a settled one, in which
each call that was not dropped before has returned or failed. -/
theorem every_call_answered {labels : List Label} (hcapacity : 0 < config.commandCapacity)
    (hcalls : s.calls.length < 2 ^ 128) (hrun : (system config).run (system config).init labels = some s) :
    ∃ later s', (∀ label ∈ later, label.own = true) ∧ (system config).run s later = some s' ∧ Settled s' ∧
      ∀ (k : CallId) (c : Call), s.calls[k]? = some c → c.pc ≠ .cancelled →
        ∃ c', s'.calls[k]? = some c' ∧ c'.op = c.op ∧ ((∃ room, c'.pc = .returned room) ∨ ∃ err, c'.pc = .failed err) := by
  obtain ⟨n, hwithin, -⟩ := run_within hrun
  obtain ⟨hinv, -, ids, hopened, -⟩ := id hwithin
  obtain ⟨later, s', hown, hrun', hrest⟩ :=
    ((ranks config).mono fun label hown => own_not_start hown).exists_rest hwithin
  obtain ⟨ids', hopened', hlength⟩ := own_run_length hinv hopened hown hrun'
  have hreach : (system config).run (system config).init (labels ++ later) = some s' := by
    rw [TransitionSystem.run_append, hrun]
    exact hrun'
  obtain ⟨hinv', hanswerable⟩ := run_answerable hreach
  have hsettled := settled_of_rests hinv' hanswerable hcapacity (exists_fresh hopened' (hlength ▸ hcalls)) hrest
  refine ⟨later, s', hown, hrun', hsettled, fun k c hc hpc => ?_⟩
  obtain ⟨c', hc', hop, hpc'⟩ := hinv.own_run_call hown hrun' hc hpc
  exact ⟨c', hc', hop, Pc.answer_of_over (hsettled.calls k c' hc') hpc'⟩

/-! ## Shutdown -/

/-- What may happen after `close_all` was called, if it is to end every room: no call that creates a room, and
`close_all` itself is not dropped. -/
def Label.keepsClosing (k : CallId) : Label → Prop
  | .start op => op.creates = false
  | .cancel j => j ≠ k
  | _ => True

/-- No room can be registered any more, and those that are will be taken by call `k`. -/
structure Closing (s : State) (k : CallId) : Prop where
  opening : ∀ (j : CallId) (c : Call), s.calls[j]? = some c → c.pc.opening = 0
  registry : s.registry = [] ∨ ∃ c, s.calls[k]? = some c ∧ c.pc = .drain

theorem Op.start_opening {op : Op} (h : op.creates = false) : op.start.opening = 0 := by
  cases op with
  | joinOrCreate room player nickname sink =>
      cases room with
      | none => cases h
      | some => rfl
  | leave | leaveAll | chat | closeAll => rfl

theorem Answered.opening {c' : Call} (h : Answered r c c') : c'.pc.opening = c.pc.opening := by
  cases h with
  | same => rfl
  | join _ hpc | leave _ _ hpc => rw [hpc]; rfl

theorem registry_nil {act : Act} (hempty : s.registry = []) (hact : act.registers = 0) : (s.apply act).registry = [] := by
  have hlength := registry_apply s act
  rw [hempty, hact] at hlength
  exact List.length_eq_zero_iff.mp (Nat.le_zero.mp hlength)

/-- The rule for a call's step. -/
theorem Closing.move (h : Closing s k) {j : CallId} {act : Act} {pc : Pc} (hc : s.calls[j]? = some c)
    (hpc : pc.opening = 0) (hact : act.registers = 0) (hdrain : c.pc = .drain → j = k → (s.apply act).registry = []) :
    Closing (s.move j act pc) k where
  opening i c' hc' := by
    obtain ⟨c₀, rfl, -, rfl⟩ | ⟨-, hold⟩ := State.move_cases hc'
    · exact hpc
    · exact h.opening i c' hold
  registry := by
    obtain hempty | ⟨c₀, hc₀, hpc₀⟩ := h.registry
    · exact Or.inl (registry_nil hempty hact)
    · by_cases hj : j = k
      · subst hj
        obtain rfl := Option.some.inj (hc.symm.trans hc₀)
        exact Or.inl (hdrain hpc₀ rfl)
      · refine Or.inr ⟨c₀, ?_, hpc₀⟩
        rw [calls_move]
        exact (modify_of_ne (Ne.symm hj)).trans hc₀

theorem Closing.step (h : Closing s k) (hinv : Inv s) {label : Label} (hlabel : label.keepsClosing k)
    (hstep : s.step config label = some s') : Closing s' k := by
  cases step_taken hstep with
  | start op =>
      refine ⟨fun j c hc => ?_, h.registry.imp id fun ⟨c, hc, hpc⟩ => ⟨c, Indexed.append_old hc, hpc⟩⟩
      obtain hold | ⟨-, rfl⟩ := Indexed.append_cases hc
      · exact h.opening j c hold
      · exact op.start_opening hlabel
  | opened j r c hc hpc =>
      have hzero := h.opening j c hc
      rw [hpc] at hzero
      cases hzero
  | next j c act pc hc hadvance =>
      refine h.move hc (Pc.opening_of_reached (advance_spends hadvance 0).reached) ?_ fun hpc _ => ?_
      · cases advance_acts hadvance with
        | register r hpc =>
            have hzero := h.opening j c hc
            rw [hpc] at hzero
            cases hzero
        | skip | publish | enqueue | forgetClosed | forget => rfl
      · obtain ⟨op, pc₀, sent⟩ := c
        dsimp only at hpc
        subst hpc
        cases op <;> cases hadvance
  | retain j c order hc hpc =>
      refine h.move hc (Pc.opening_of_reached (reached_leaveNext order)) rfl fun hdrain _ => ?_
      rw [hpc] at hdrain
      cases hdrain
  | drain j c order hc hpc => exact h.move hc (Pc.opening_of_reached (reached_closeNext order)) rfl fun _ _ => rfl
  | cancel j c hc => exact h.move hc rfl rfl fun _ hj => absurd hj hlabel
  | actor label s' hregistry hrooms hcalls =>
      refine ⟨fun j c' hc' => ?_, ?_⟩
      · obtain ⟨c, r, hc, hanswered⟩ := hcalls j c' hc'
        exact hanswered.opening.trans (h.opening j c hc)
      · rw [hregistry]
        obtain hempty | ⟨c, hc, hpc⟩ := h.registry
        · exact Or.inl hempty
        · obtain ⟨c', hc', -⟩ := (hinv.step hstep).grows.calls k c hc
          obtain ⟨c₀, r, hc₀, hanswered⟩ := hcalls k c' hc'
          obtain rfl := Option.some.inj (hc.symm.trans hc₀)
          refine Or.inr ⟨c', hc', ?_⟩
          cases hanswered with
          | same => exact hpc
          | join _ hwait | leave _ _ hwait =>
              rw [hpc] at hwait
              cases hwait

/-- **`close_all` ends every room.** It is called when no call is about to register a room, and no room is created after
that; whatever else happens, once the service is at rest the registry is empty and no actor is left. -/
theorem close_all_ends_every_room {labels later : List Label} {reason : String} (hcapacity : 0 < config.commandCapacity)
    (hrun : (system config).run (system config).init labels = some s)
    (hopening : ∀ (j : CallId) (c : Call), s.calls[j]? = some c → c.pc.opening = 0)
    (hlater : ∀ label ∈ later, label.keepsClosing s.calls.length)
    (hrun' : (system config).run s (.start (.closeAll reason) :: later) = some s') (hfresh : ∃ r, s'.rooms r = none)
    (hrest : ∀ label, label.own = true → s'.step config label = none) :
    s'.registry = [] ∧ ∀ r t, s'.rooms r = some t → t.receiver = false ∧ t.actor.closed = true := by
  have hinv := (run_answerable hrun).1
  obtain ⟨u, hstart, hrun''⟩ := Option.bind_eq_some_iff.mp hrun'
  obtain rfl := Option.some.inj hstart
  have hinv' := (hinv.start (.closeAll reason)).inv
  have hclosing : Closing { s with calls := s.calls ++ [⟨.closeAll reason, .drain, []⟩] } s.calls.length := by
    refine ⟨fun j c hc => ?_, Or.inr ⟨_, List.getElem?_concat_length, rfl⟩⟩
    obtain hold | ⟨-, rfl⟩ := Indexed.append_cases hc
    · exact hopening j c hold
    · rfl
  have hend : Inv s' ∧ Closing s' s.calls.length := by
    refine TransitionSystem.run_induction (T := system config) (fun _ label => label.keepsClosing s.calls.length)
      (I := fun u => Inv u ∧ Closing u s.calls.length) ?_ ⟨hinv', hclosing⟩
      (TransitionSystem.along_of_forall (fun label hlabel _ => hlater label hlabel) _) hrun''
    rintro u label u' ⟨hinv, hclosing⟩ hlabel hstep
    exact ⟨(hinv.step hstep).inv, hclosing.step hinv hlabel hstep⟩
  have hreach : (system config).run (system config).init (labels ++ .start (.closeAll reason) :: later) = some s' := by
    rw [TransitionSystem.run_append, hrun]
    exact hrun'
  obtain ⟨hinv', hanswerable⟩ := run_answerable hreach
  have hsettled := settled_of_rests hinv' hanswerable hcapacity hfresh hrest
  have hregistry : s'.registry = [] := by
    obtain hempty | ⟨c, hc, hpc⟩ := hend.2.registry
    · exact hempty
    · have hover := hsettled.calls _ c hc
      rw [hpc] at hover
      cases hover
  refine ⟨hregistry, fun r t ht => ?_⟩
  cases hreceiver : t.receiver with
  | false => exact ⟨rfl, ((hinv'.rooms r t ht).dropped hreceiver).1⟩
  | true =>
      have hr := ((hsettled.rooms r t ht).2.2 hreceiver).2
      rw [hregistry] at hr
      cases hr

theorem run_unopened {labels : List Label} (hlabels : ∀ k, .openRoom k r ∉ labels) (hr : s.rooms r = none)
    (hrun : (system config).run s labels = some s') : s'.rooms r = none := by
  refine TransitionSystem.run_induction (T := system config) (fun _ label => ∀ k, label ≠ .openRoom k r)
    (I := fun u => u.rooms r = none) (fun u label u' hr hlabel hstep => step_unopened hstep hlabel hr) hr
    (TransitionSystem.along_of_forall (fun label hmem _ k he => ?_) s) hrun
  rw [he] at hmem
  exact hlabels k hmem

end

theorem rests_iff_create : ∃ s, (system ⟨16, 4⟩).run (system ⟨16, 4⟩).init createLabels = some s ∧
    ((∀ label, label.own = true → s.step ⟨16, 4⟩ label = none) ↔ Settled s) :=
  ⟨_, rfl, rests_iff (by decide) ⟨⟨8⟩, rfl⟩ (show (system ⟨16, 4⟩).run (system ⟨16, 4⟩).init createLabels = some _ from rfl)⟩

/-- A call that has queued its `Join` gets its answer. -/
theorem every_call_answered_queued : ∃ s, (system ⟨16, 4⟩).run (system ⟨16, 4⟩).init (createLabels.take 5) = some s ∧
    ∃ later s', (∀ label ∈ later, label.own = true) ∧ (system ⟨16, 4⟩).run s later = some s' ∧ Settled s' := by
  obtain ⟨s, hreach⟩ : ∃ s, (system ⟨16, 4⟩).run (system ⟨16, 4⟩).init (createLabels.take 5) = some s := ⟨_, rfl⟩
  have hcalls : s.calls.length < 2 ^ 128 := by
    obtain rfl := Option.some.inj hreach
    decide
  refine ⟨s, hreach, ?_⟩
  obtain ⟨later, s', hown, hrun, hsettled, -⟩ := every_call_answered (by decide) hcalls hreach
  exact ⟨later, s', hown, hrun, hsettled⟩

/-- `close_all` takes the room, and its actor ends. -/
def closeLabels : List Label := [.drain 1 [⟨7⟩], .next 1, .process ⟨7⟩, .perform ⟨7⟩, .terminate ⟨7⟩]

theorem close_all_ends_every_room_create : ∃ s s',
    (system ⟨16, 4⟩).run (system ⟨16, 4⟩).init createLabels = some s ∧
    (system ⟨16, 4⟩).run s (.start (.closeAll "stop") :: closeLabels) = some s' ∧ s'.registry = [] ∧
    ∀ r t, s'.rooms r = some t → t.receiver = false ∧ t.actor.closed = true := by
  obtain ⟨s, hrun⟩ : ∃ s, (system ⟨16, 4⟩).run (system ⟨16, 4⟩).init createLabels = some s := ⟨_, rfl⟩
  obtain ⟨s', hrun'⟩ : ∃ s', (system ⟨16, 4⟩).run s (.start (.closeAll "stop") :: closeLabels) = some s' := by
    obtain rfl := Option.some.inj hrun
    exact ⟨_, rfl⟩
  have hreach : (system ⟨16, 4⟩).run (system ⟨16, 4⟩).init (createLabels ++ .start (.closeAll "stop") :: closeLabels) =
      some s' := by
    rw [TransitionSystem.run_append, hrun]
    exact hrun'
  have hunopened : ∀ r, r ≠ ⟨7⟩ → s'.rooms r = none := by
    refine fun r hr => run_unopened (fun k hmem => ?_) rfl hreach
    simp only [createLabels, closeLabels, List.cons_append, List.nil_append, List.mem_cons, reduceCtorEq, false_or,
      Label.openRoom.injEq, List.not_mem_nil, or_false] at hmem
    exact hr hmem.2
  have hroom : ∃ t, s'.rooms ⟨7⟩ = some t ∧ t.queue = [] ∧ t.outbox = [] ∧ t.receiver = false := by
    obtain rfl := Option.some.inj hrun
    obtain rfl := Option.some.inj hrun'
    exact ⟨_, rfl, rfl, rfl, rfl⟩
  have hcalls : s'.calls.map (fun c => c.pc.over) = [true, true] := by
    obtain rfl := Option.some.inj hrun
    obtain rfl := Option.some.inj hrun'
    rfl
  have hsettled : Settled s' := by
    refine ⟨fun k c hc => ?_, fun r t ht => ?_⟩
    · have hmem : c.pc.over ∈ s'.calls.map (fun c => c.pc.over) := List.mem_map_of_mem (List.mem_of_getElem? hc)
      simpa [hcalls] using hmem
    · by_cases hr : r = ⟨7⟩
      · obtain ⟨t₀, ht₀, hqueue, houtbox, hreceiver⟩ := hroom
        obtain rfl := Option.some.inj ((hr ▸ ht).symm.trans ht₀)
        exact ⟨hqueue, houtbox, fun h => by rw [hreceiver] at h; cases h⟩
      · rw [hunopened r hr] at ht
        cases ht
  refine ⟨s, s', hrun, hrun', close_all_ends_every_room (by decide) hrun ?_ ?_ hrun' ⟨⟨8⟩, hunopened _ (by decide)⟩
    (rests_of_settled (run_answerable hreach).1 hsettled)⟩
  · have hopening : s.calls.map (fun c => c.pc.opening) = [0] := by
      obtain rfl := Option.some.inj hrun
      rfl
    intro j c hc
    have hmem : c.pc.opening ∈ s.calls.map (fun c => c.pc.opening) := List.mem_map_of_mem (List.mem_of_getElem? hc)
    simpa [hopening] using hmem
  · intro label hlabel
    simp only [closeLabels, List.mem_cons, List.not_mem_nil, or_false] at hlabel
    obtain rfl | rfl | rfl | rfl | rfl := hlabel
    all_goals trivial

end LongshipX.Service
