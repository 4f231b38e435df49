import LongshipX.Room.Calls

/-!
# The calls keep the invariant

One theorem per operation of `service.rs`, with one case per position of the call: the act is allowed there,
and the next position is true.

* `Acts` : what a call can do to the shared state, and from where (`advance_acts`);
* `Inv.next_join`, `Inv.next_leave`, `Inv.next_chat`, `Inv.next_close` : the operations;
* `Inv.next` : whatever call moves;
* `Inv.liveHandles`, `Inv.drain`, `Inv.cancel` : the steps that read the whole registry, and cancellation.
-/

namespace LongshipX.Service
open RoomActor

/-! ## A call's own steps -/

section
variable {config : RoomServiceConfig} {s : State} {k : CallId} {r : RoomId}

theorem isClosed_iff : s.isClosed r = true ↔ s.At r (fun t => t.actor.closed = true) := by
  unfold State.isClosed State.At
  cases s.rooms r with
  | none => simp
  | some t => simp

theorem isClosed_false (h : s.isClosed r = false) {t : RoomTask} (ht : s.rooms r = some t) : t.actor.closed = false := by
  unfold State.isClosed at h
  rwa [ht] at h

theorem handleFor_cases (s : State) (r : RoomId) :
    (s.handleFor r = (true, .skip) ∧ r ∈ s.registry ∧ s.isClosed r = false) ∨
      (s.handleFor r = (false, .forget r) ∧ r ∈ s.registry ∧ s.isClosed r = true) ∨
      (s.handleFor r = (false, .skip) ∧ r ∉ s.registry) := by
  unfold State.handleFor
  by_cases hr : r ∈ s.registry
  · cases hclosed : s.isClosed r with
    | true => exact Or.inr (Or.inl ⟨by rw [if_pos hr]; rfl, hr, rfl⟩)
    | false => exact Or.inl ⟨by rw [if_pos hr]; rfl, hr, rfl⟩
  · exact Or.inr (Or.inr ⟨by rw [if_neg hr], hr⟩)

theorem gate_cases (config : RoomServiceConfig) {P : RoomTask → Prop} (h : s.At r P) :
    (s.gate config r = .open ∧ s.At r (fun t => P t ∧ t.receiver = true)) ∨ s.gate config r = .full ∨
      (s.gate config r = .closed ∧ s.At r (fun t => P t ∧ t.receiver = false)) := by
  obtain ⟨t, ht, hp⟩ := h
  unfold State.gate
  rw [ht]
  dsimp only
  cases hreceiver : t.receiver with
  | false => exact Or.inr (Or.inr ⟨rfl, t, ht, hp, hreceiver⟩)
  | true =>
      by_cases hfull : t.queue.length < config.commandCapacity
      · exact Or.inl ⟨by simp [hfull], t, ht, hp, hreceiver⟩
      · exact Or.inr (Or.inl (by simp [hfull]))

theorem Inv.closed_of_dropped (h : Inv s) {P : RoomTask → Prop} (hat : s.At r (fun t => P t ∧ t.receiver = false)) :
    s.At r (fun t => t.actor.closed = true) := by
  obtain ⟨t, ht, -, hreceiver⟩ := hat
  exact ⟨t, ht, ((h.rooms r t ht).dropped hreceiver).1⟩

/-! ### What a call does, by position -/

/-- The positions from which a call takes a room out of the registry, besides lookups of closed rooms. -/
def Pc.Removes (pc : Pc) (r : RoomId) : Prop := (∃ left todo, pc = .leaveForget r left todo) ∨ ∃ err, pc = .undo r err

/-- **What a call can do to the shared state**, with the position it does it from. -/
inductive Acts (s : State) (k : CallId) (c : Call) : Act → Prop where
  | skip : Acts s k c .skip
  | publish (event : DomainEvent) : Acts s k c (.publish event)
  | enqueue (r : RoomId) (command : RoomCommand CallId)
      (hsends : ∀ j, replyOf command = some j → c.op.Sends k command) : Acts s k c (.enqueue r command)
  | register (r : RoomId) (hpc : c.pc = .insert r) : Acts s k c (.register r)
  | forgetClosed (r : RoomId) (hclosed : s.isClosed r = true) : Acts s k c (.forget r)
  | forget (r : RoomId) (hpc : c.pc.Removes r) : Acts s k c (.forget r)

theorem handleFor_acts {c : Call} {b : Bool} {act : Act} (h : s.handleFor r = (b, act)) : Acts s k c act := by
  obtain ⟨hfor, -⟩ | ⟨hfor, -, hclosed⟩ | ⟨hfor, -⟩ := handleFor_cases s r
  · rw [hfor] at h
    obtain ⟨-, rfl⟩ := Prod.mk.inj h
    exact .skip
  · rw [hfor] at h
    obtain ⟨-, rfl⟩ := Prod.mk.inj h
    exact .forgetClosed r hclosed
  · rw [hfor] at h
    obtain ⟨-, rfl⟩ := Prod.mk.inj h
    exact .skip

theorem advanceJoin_acts {room : Option RoomId} {creates : Bool} {player : PlayerId} {nickname : String}
    {sink : SinkId} {pc pc' : Pc} {sent : List RoomId} {act : Act}
    (hadvance : advanceJoin config s k creates player nickname sink pc = some (act, pc')) :
    Acts s k ⟨.joinOrCreate room player nickname sink, pc, sent⟩ act := by
  cases pc with
  | insert r =>
      obtain ⟨rfl, -⟩ := Prod.mk.inj (Option.some.inj hadvance)
      exact .register r rfl
  | joinLookup r =>
      simp only [advanceJoin] at hadvance
      split at hadvance
      all_goals
        next hfor =>
          obtain ⟨rfl, -⟩ := Prod.mk.inj (Option.some.inj hadvance)
          exact handleFor_acts hfor
  | joinSend r =>
      simp only [advanceJoin] at hadvance
      split at hadvance
      · obtain ⟨rfl, -⟩ := Prod.mk.inj (Option.some.inj hadvance)
        exact .enqueue r _ fun _ _ => rfl
      · cases hadvance
      · obtain ⟨rfl, -⟩ := Prod.mk.inj (Option.some.inj hadvance)
        exact .skip
  | joinWait r reply =>
      obtain _ | (_ | _) | _ := reply
      · cases hadvance
      all_goals
        obtain ⟨rfl, -⟩ := Prod.mk.inj (Option.some.inj hadvance)
        exact .skip
  | joinPublish r =>
      obtain ⟨rfl, -⟩ := Prod.mk.inj (Option.some.inj hadvance)
      exact .publish _
  | undo r err =>
      obtain ⟨rfl, -⟩ := Prod.mk.inj (Option.some.inj hadvance)
      exact .forget r (Or.inr ⟨err, rfl⟩)
  | create | liveHandles | leaveLookup | leaveSend | leaveWait | leaveForget | leavePublish | chatLookup | chatSend
  | drain | closeSend | returned | failed | cancelled => cases hadvance

theorem advanceLeave_acts {op : Op} {player : PlayerId} {reason : String} {pc pc' : Pc} {sent : List RoomId} {act : Act}
    (hsends : op.Sends k (.leave player reason k))
    (hadvance : advanceLeave config s k player reason pc = some (act, pc')) : Acts s k ⟨op, pc, sent⟩ act := by
  cases pc with
  | leaveLookup r todo =>
      simp only [advanceLeave] at hadvance
      split at hadvance
      all_goals
        next hfor =>
          obtain ⟨rfl, -⟩ := Prod.mk.inj (Option.some.inj hadvance)
          exact handleFor_acts hfor
  | leaveSend r todo =>
      simp only [advanceLeave] at hadvance
      split at hadvance
      · obtain ⟨rfl, -⟩ := Prod.mk.inj (Option.some.inj hadvance)
        exact .enqueue r _ fun _ _ => hsends
      · cases hadvance
      · split_ifs at hadvance
        all_goals
          obtain ⟨rfl, -⟩ := Prod.mk.inj (Option.some.inj hadvance)
          exact .skip
  | leaveWait r reply todo =>
      obtain _ | (_ | _) | _ := reply
      · cases hadvance
      all_goals
        simp only [advanceLeave] at hadvance
        try split_ifs at hadvance
      all_goals
        obtain ⟨rfl, -⟩ := Prod.mk.inj (Option.some.inj hadvance)
        exact .skip
  | leaveForget r left todo =>
      obtain ⟨rfl, -⟩ := Prod.mk.inj (Option.some.inj hadvance)
      exact .forget r (Or.inl ⟨left, todo, rfl⟩)
  | leavePublish r todo =>
      obtain ⟨rfl, -⟩ := Prod.mk.inj (Option.some.inj hadvance)
      exact .publish _
  | create | insert | joinLookup | joinSend | joinWait | joinPublish | undo | liveHandles | chatLookup
  | chatSend | drain | closeSend | returned | failed | cancelled => cases hadvance

theorem advanceChat_acts {room : RoomId} {player : PlayerId} {text : String} {pc pc' : Pc} {sent : List RoomId}
    {act : Act} (hadvance : advanceChat config s player text pc = some (act, pc')) :
    Acts s k ⟨.chat room player text, pc, sent⟩ act := by
  cases pc with
  | chatLookup r =>
      simp only [advanceChat] at hadvance
      split_ifs at hadvance
      · obtain ⟨rfl, -⟩ := Prod.mk.inj (Option.some.inj hadvance)
        exact .skip
      · obtain ⟨rfl, -⟩ := Prod.mk.inj (Option.some.inj hadvance)
        exact .skip
      · split at hadvance
        all_goals
          next hfor =>
            obtain ⟨rfl, -⟩ := Prod.mk.inj (Option.some.inj hadvance)
            exact handleFor_acts hfor
  | chatSend r =>
      simp only [advanceChat] at hadvance
      split at hadvance
      · obtain ⟨rfl, -⟩ := Prod.mk.inj (Option.some.inj hadvance)
        exact .enqueue r _ fun _ hj => by cases hj
      all_goals
        obtain ⟨rfl, -⟩ := Prod.mk.inj (Option.some.inj hadvance)
        exact .skip
  | create | insert | joinLookup | joinSend | joinWait | joinPublish | undo | liveHandles | leaveLookup | leaveSend
  | leaveWait | leaveForget | leavePublish | drain | closeSend | returned | failed | cancelled => cases hadvance

theorem advance_acts {c : Call} {act : Act} {pc' : Pc} (hadvance : advance config s k c = some (act, pc')) :
    Acts s k c act := by
  obtain ⟨op, pc, sent⟩ := c
  cases op with
  | joinOrCreate room player nickname sink => exact advanceJoin_acts hadvance
  | leave room player reason => exact advanceLeave_acts rfl hadvance
  | leaveAll player reason => exact advanceLeave_acts rfl hadvance
  | chat room player text => exact advanceChat_acts hadvance
  | closeAll reason =>
      cases pc with
      | closeSend r todo =>
          simp only [advance, advanceClose] at hadvance
          split at hadvance
          · obtain ⟨rfl, -⟩ := Prod.mk.inj (Option.some.inj hadvance)
            exact .enqueue r _ fun _ hj => by cases hj
          · cases hadvance
          · obtain ⟨rfl, -⟩ := Prod.mk.inj (Option.some.inj hadvance)
            exact .skip
      | create | insert | joinLookup | joinSend | joinWait | joinPublish | undo | liveHandles | leaveLookup | leaveSend
      | leaveWait | leaveForget | leavePublish | chatLookup | chatSend | drain | returned | failed | cancelled =>
          cases hadvance

/-! ### The operations -/

theorem Pc.tends_iff {pc : Pc} (h : pc.tending = some r) {r' : RoomId} {inserted : Bool} :
    pc.Tends s r' inserted ↔ r = r' ∧ inserted = true := by
  cases pc with
  | joinLookup | joinSend | joinWait | joinPublish | undo =>
      obtain rfl := Option.some.inj h
      exact Iff.rfl
  | create | insert | liveHandles | leaveLookup | leaveSend | leaveWait | leaveForget | leavePublish | chatLookup
  | chatSend | drain | closeSend | returned | failed | cancelled => cases h

/-- The rule for a step of `join`: if the call opened the room, it stays with it. -/
theorem Inv.move_tending (h : Inv s) {c : Call} {act : Act} {pc' : Pc} (hc : s.calls[k]? = some c)
    (hop : c.op.leaves = false) (hact : act.Allowed s k c) (hpc : c.pc.tending = some r)
    (hpc' : c.op.creates = true → pc'.tending = some r)
    (hfact : Grows s (s.move k act pc') → Fact (s.move k act pc') k (c.moved act pc')) : Leads s (s.move k act pc') := by
  refine h.move hc hact (hfact (h.move_grows hc hact)) (fun hop' => ?_)
    (fun r' t t' _ _ hgrow hcreates htends => ?_) fun hcreates x hx => Or.inl ?_
  · rw [show (c.moved act pc').op = c.op from rfl, hop] at hop'
    cases hop'
  · obtain ⟨rfl, hinserted⟩ := (Pc.tends_iff hpc).mp htends
    exact (Pc.tends_iff (hpc' hcreates)).mpr ⟨rfl, hgrow.inserted hinserted⟩
  · exact hpc.trans ((hpc' hcreates).symm.trans hx)

theorem fact_joinFailed {room : Option RoomId} {player : PlayerId} {nickname : String} {sink : SinkId} {act : Act}
    {sent : List RoomId} {pc : Pc} {err : AppError}
    (h : room.isNone = true → s.Gone r ∨ s.At r (fun t => t.actor.closed = true ∨ t.Refused k)) :
    Fact s k (Call.moved ⟨.joinOrCreate room player nickname sink, pc, sent⟩ act (joinFailed room.isNone r err)) := by
  cases room with
  | none => exact ⟨rfl, h rfl⟩
  | some r' => exact show (Op.joinOrCreate (some r') player nickname sink).leaves = false from rfl

theorem joinFailed_tending {room : Option RoomId} {player : PlayerId} {nickname : String} {sink : SinkId}
    {err : AppError} (h : (Op.joinOrCreate room player nickname sink).creates = true) :
    (joinFailed room.isNone r err).tending = some r := by
  cases room with
  | none => rfl
  | some r => cases h

theorem Inv.next_join (h : Inv s) {room : Option RoomId} {player : PlayerId} {nickname : String} {sink : SinkId}
    {pc pc' : Pc} {sent : List RoomId} {act : Act} (hc : s.calls[k]? = some ⟨.joinOrCreate room player nickname sink, pc, sent⟩)
    (hadvance : advanceJoin config s k room.isNone player nickname sink pc = some (act, pc')) :
    Leads s (s.move k act pc') := by
  have hfact := (h.calls k _ hc).1
  cases pc with
  | insert r =>
      obtain ⟨rfl, rfl⟩ := Prod.mk.inj (Option.some.inj hadvance)
      refine h.move hc rfl ?_ (fun hop => by cases hop) (fun r' t t' ht ht' _ _ htends => ?_)
        fun _ x hx => Or.inr (by rw [Option.some.inj hx])
      · obtain ⟨t, ht, -⟩ := h.insert_hidden hc rfl
        exact ⟨by simp [Call.moved, Act.asks, hfact.2.1], fun _ => ⟨_, State.update_self ht, rfl⟩⟩
      · obtain ⟨rfl, -⟩ := htends
        have hself := Option.some.inj (ht'.symm.trans (State.update_self ht))
        exact ⟨rfl, by rw [hself]⟩
  | joinLookup r =>
      simp only [advanceJoin] at hadvance
      obtain ⟨hfor, hr, hopen⟩ | ⟨hfor, hr, hclosed⟩ | ⟨hfor, hr⟩ := handleFor_cases s r
      · rw [hfor] at hadvance
        obtain ⟨rfl, rfl⟩ := Prod.mk.inj (Option.some.inj hadvance)
        refine h.move_tending hc rfl trivial rfl (fun _ => rfl) fun g => ?_
        exact ⟨by simp [Call.moved, Act.asks, hfact.1], g.at (fun _ _ hg => hg.inserted) (h.registry r hr)⟩
      · rw [hfor] at hadvance
        obtain ⟨rfl, rfl⟩ := Prod.mk.inj (Option.some.inj hadvance)
        refine h.move_tending hc rfl trivial rfl joinFailed_tending fun g => fact_joinFailed fun _ => Or.inr ?_
        exact g.at (fun _ _ hg ht => Or.inl (hg.closed ht)) (isClosed_iff.mp hclosed)
      · rw [hfor] at hadvance
        obtain ⟨rfl, rfl⟩ := Prod.mk.inj (Option.some.inj hadvance)
        refine h.move_tending hc rfl trivial rfl joinFailed_tending fun g => fact_joinFailed fun hroom => Or.inl ?_
        have hcreates : (Op.joinOrCreate room player nickname sink).creates = true := by
          rw [Option.isNone_iff_eq_none.mp hroom]
          rfl
        exact g.gone r ⟨hfact.2 hcreates, hr⟩
  | joinSend r =>
      simp only [advanceJoin] at hadvance
      obtain ⟨hgate, hat⟩ | hgate | ⟨hgate, hat⟩ := gate_cases config hfact.2
      · rw [hgate] at hadvance
        obtain ⟨rfl, rfl⟩ := Prod.mk.inj (Option.some.inj hadvance)
        obtain ⟨t, ht, hinserted, hreceiver⟩ := hat
        refine h.move_tending hc rfl ⟨⟨t, ht, hreceiver, hinserted⟩, fun j hj => ?_⟩ rfl (fun _ => rfl) fun g => ?_
        · obtain rfl := Option.some.inj hj
          exact ⟨rfl, by rw [hfact.1]; exact List.not_mem_nil, rfl⟩
        · exact ⟨_, State.update_self ht, Or.inr (Or.inr ⟨_, List.mem_append_right _ List.mem_cons_self, rfl⟩)⟩
      · rw [hgate] at hadvance
        cases hadvance
      · rw [hgate] at hadvance
        obtain ⟨rfl, rfl⟩ := Prod.mk.inj (Option.some.inj hadvance)
        refine h.move_tending hc rfl trivial rfl joinFailed_tending fun g => fact_joinFailed fun _ => Or.inr ?_
        exact g.at (fun _ _ hg ht => Or.inl (hg.closed ht)) (h.closed_of_dropped hat)
  | joinWait r reply =>
      obtain _ | (err | _) | _ := reply
      · cases hadvance
      · obtain ⟨rfl, rfl⟩ := Prod.mk.inj (Option.some.inj hadvance)
        refine h.move_tending hc rfl trivial rfl joinFailed_tending fun g => fact_joinFailed fun _ => Or.inr ?_
        exact g.at (fun _ _ hg ht => Or.inr (hg.refused ht)) hfact
      · obtain ⟨rfl, rfl⟩ := Prod.mk.inj (Option.some.inj hadvance)
        exact h.move_tending hc rfl trivial rfl (fun _ => rfl) fun g => g.at (fun _ _ hg => hg.joinedBy) hfact
      · obtain ⟨rfl, rfl⟩ := Prod.mk.inj (Option.some.inj hadvance)
        refine h.move_tending hc rfl trivial rfl joinFailed_tending fun g => fact_joinFailed fun _ => Or.inr ?_
        exact g.at (fun _ _ hg ht => Or.inl (hg.closed ht)) hfact
  | joinPublish r =>
      obtain ⟨rfl, rfl⟩ := Prod.mk.inj (Option.some.inj hadvance)
      have g : Grows s (s.move k (.publish (.playerJoinedRoom r player)) (.returned (some r))) :=
        h.move_grows hc trivial
      refine h.move hc trivial (g.at (fun _ _ hg => hg.joinedBy) hfact) (fun hop => by cases hop)
        (fun r' t t' _ _ hgrow _ htends => ?_) fun _ _ hx => by cases hx
      exact ⟨congrArg some htends.1, hgrow.inserted htends.2⟩
  | undo r err =>
      obtain ⟨rfl, rfl⟩ := Prod.mk.inj (Option.some.inj hadvance)
      refine h.move hc trivial rfl (fun hop => by cases hop) (fun r' t t' _ ht' hgrow _ htends => ?_)
        fun _ _ hx => by cases hx
      obtain ⟨rfl, hinserted⟩ := htends
      exact ⟨⟨t', ht', hgrow.inserted hinserted⟩, fun hm => by simpa using List.of_mem_filter hm⟩
  | create | liveHandles | leaveLookup | leaveSend | leaveWait | leaveForget | leavePublish | chatLookup
  | chatSend | drain | closeSend | returned | failed | cancelled => cases hadvance

/-- The rule for a step of `leave` that asks nothing: if it ends the leave of a room, that leave is done with. -/
theorem Inv.move_leaving (h : Inv s) {c : Call} {act : Act} {pc' : Pc} (hc : s.calls[k]? = some c)
    (hop : c.op.creates = false) (hpc : c.pc ≠ .cancelled) (hact : act.Allowed s k c) (hquiet : act.asks = none)
    (hfact : Grows s (s.move k act pc') → Fact (s.move k act pc') k { c with pc := pc' })
    (hdone : Grows s (s.move k act pc') → ∀ x, c.pc.leaving = some x → pc'.leaving ≠ some x →
      (s.move k act pc').LeaveDone k x) : Leads s (s.move k act pc') := by
  have g : Grows s (s.move k act pc') := h.move_grows hc hact
  have hmoved : c.moved act pc' = { c with pc := pc' } := by
    rw [Call.moved, hquiet, Option.toList_none, List.append_nil]
  have hno : c.op.creates ≠ true := by rw [hop]; decide
  refine h.move hc hact (hmoved ▸ hfact g) ?_ (fun _ _ _ _ _ _ hcreates => absurd hcreates hno)
    fun hcreates => absurd hcreates hno
  rw [hmoved]
  intro hleaves _ x hx hne
  by_cases hbusy : c.pc.leaving = some x
  · exact hdone g x hbusy hne
  · exact g.leaveDone ((h.calls k c hc).2 hleaves hpc x hx hbusy)

theorem fact_leaveNext {op : Op} {sent todo : List RoomId} (h : Fresh sent todo) : Fact s k ⟨op, leaveNext todo, sent⟩ := by
  cases todo with
  | nil => exact trivial
  | cons r todo => exact h

theorem Fresh.tail {sent todo : List RoomId} (h : Fresh sent (r :: todo)) : Fresh sent todo :=
  ⟨(List.nodup_cons.mp h.1).2, fun x hx => h.2 x (List.mem_cons_of_mem _ hx)⟩

theorem Inv.inserted_of_leftBy (h : Inv s) {t : RoomTask} (ht : s.rooms r = some t) (hleft : t.LeftBy k) :
    t.inserted = true := by
  obtain ⟨x, hx, -⟩ := hleft
  cases hinserted : t.inserted with
  | true => rfl
  | false =>
      rw [((h.rooms r t ht).hidden hinserted).2] at hx
      cases hx

theorem Inv.leaveDone_of_open (h : Inv s) (hopen : s.isClosed r = false) (hat : s.At r (fun t => t.LeftBy k)) :
    s.LeaveDone k r := by
  obtain ⟨t, ht, hleft⟩ := hat
  refine ⟨t, ht, Or.inl hleft, fun ⟨x, hx, _, _, _, hclosed⟩ => ?_⟩
  have hclosed' := (h.rooms r t ht).closedBy x hx hclosed
  rw [isClosed_false hopen ht] at hclosed'
  cases hclosed'

theorem Grows.leaveDone_of_forgotten {s s' : State} (g : Grows s s')
    (hat : s.At r (fun t => t.actor.closed = true ∧ t.inserted = true ∧ t.Settled k)) (hgone : r ∉ s'.registry) :
    s'.LeaveDone k r :=
  g.at (fun _ _ hg ht => ⟨hg.settled ht.2.2, fun _ => ⟨g.at (fun _ _ hg ht => hg.inserted ht.2.1) hat, hgone⟩⟩) hat

theorem Inv.next_leave (h : Inv s) {op : Op} {player : PlayerId} {reason : String} {pc pc' : Pc} {sent : List RoomId}
    {act : Act} (hc : s.calls[k]? = some ⟨op, pc, sent⟩) (hop : op.creates = false)
    (hsends : op.Sends k (.leave player reason k))
    (hadvance : advanceLeave config s k player reason pc = some (act, pc')) : Leads s (s.move k act pc') := by
  have hfact := (h.calls k _ hc).1
  have hpast := (h.calls k _ hc).2
  cases pc with
  | leaveLookup r todo =>
      simp only [advanceLeave] at hadvance
      obtain ⟨hfor, hr, hopen⟩ | ⟨hfor, hr, hclosed⟩ | ⟨hfor, hr⟩ := handleFor_cases s r
      · rw [hfor] at hadvance
        obtain ⟨rfl, rfl⟩ := Prod.mk.inj (Option.some.inj hadvance)
        refine h.move_leaving hc hop (by simp) trivial rfl (fun g => ⟨hfact, ?_⟩) fun _ x hx => by cases hx
        exact g.at (fun _ _ hg => hg.inserted) (h.registry r hr)
      · rw [hfor] at hadvance
        obtain ⟨rfl, rfl⟩ := Prod.mk.inj (Option.some.inj hadvance)
        exact h.move_leaving hc hop (by simp) trivial rfl (fun g => fact_leaveNext hfact.tail) fun _ x hx => by cases hx
      · rw [hfor] at hadvance
        obtain ⟨rfl, rfl⟩ := Prod.mk.inj (Option.some.inj hadvance)
        exact h.move_leaving hc hop (by simp) trivial rfl (fun g => fact_leaveNext hfact.tail) fun _ x hx => by cases hx
  | leaveSend r todo =>
      obtain ⟨hfresh, hinserted⟩ := hfact
      simp only [advanceLeave] at hadvance
      obtain ⟨hgate, hat⟩ | hgate | ⟨hgate, hat⟩ := gate_cases config hinserted
      · rw [hgate] at hadvance
        obtain ⟨rfl, rfl⟩ := Prod.mk.inj (Option.some.inj hadvance)
        obtain ⟨t, ht, hinserted, hreceiver⟩ := hat
        have hact : Act.Allowed (.enqueue r (.leave player reason k)) s k ⟨op, .leaveSend r todo, sent⟩ := by
          refine ⟨⟨t, ht, hreceiver, hinserted⟩, fun j hj => ?_⟩
          obtain rfl := Option.some.inj hj
          exact ⟨rfl, hfresh.2 r List.mem_cons_self, hsends⟩
        have hno : op.creates ≠ true := by rw [hop]; decide
        refine h.move hc hact ?_ ?_ (fun _ _ _ _ _ _ hcreates => absurd hcreates hno) fun hcreates => absurd hcreates hno
        · -- the room is visited now, and is not among those to come
          refine ⟨hfresh.tail.1, fun x hx hmem => ?_⟩
          obtain hmem | hmem := List.mem_append.mp hmem
          · exact hfresh.tail.2 x hx hmem
          · obtain rfl : x = r := by simpa [Act.asks, replyOf] using hmem
            exact (List.nodup_cons.mp hfresh.1).1 hx
        · intro hleaves _ x hx hne
          obtain hx | hx := List.mem_append.mp hx
          · exact (h.move_grows hc hact).leaveDone (hpast hleaves (by simp) x hx (by simp [Pc.leaving]))
          · obtain rfl : x = r := by simpa [Act.asks, replyOf] using hx
            exact absurd rfl hne
      · rw [hgate] at hadvance
        cases hadvance
      · have hclosed := isClosed_iff.mpr (h.closed_of_dropped hat)
        rw [hgate] at hadvance
        dsimp only at hadvance
        rw [if_pos hclosed] at hadvance
        obtain ⟨rfl, rfl⟩ := Prod.mk.inj (Option.some.inj hadvance)
        obtain ⟨t, ht, hinserted, hreceiver⟩ := hat
        refine h.move_leaving hc hop (by simp) trivial rfl (fun g => ⟨hfresh.tail, ?_⟩) fun _ x hx => by cases hx
        exact ⟨t, ht, ((h.rooms r t ht).dropped hreceiver).1, hinserted, Or.inr hreceiver⟩
  | leaveWait r reply todo =>
      obtain _ | (err | left) | _ := reply
      · cases hadvance
      · exact hfact.elim
      · obtain ⟨hfresh, hleft⟩ := hfact
        simp only [advanceLeave] at hadvance
        cases hclosed : s.isClosed r with
        | true =>
            rw [if_pos hclosed] at hadvance
            obtain ⟨rfl, rfl⟩ := Prod.mk.inj (Option.some.inj hadvance)
            refine h.move_leaving hc hop (by simp) trivial rfl (fun g => ⟨hfresh, ?_⟩) fun _ x hx hne => absurd hx hne
            obtain ⟨t, ht, hleft⟩ := hleft
            obtain ⟨t', ht', hclosed⟩ := isClosed_iff.mp hclosed
            obtain rfl : t' = t := Option.some.inj (ht'.symm.trans ht)
            exact ⟨t', ht, hclosed, h.inserted_of_leftBy ht hleft, Or.inl hleft⟩
        | false =>
            have hdone := h.leaveDone_of_open hclosed hleft
            rw [if_neg (by rw [hclosed]; decide)] at hadvance
            cases left with
            | true =>
                obtain ⟨rfl, rfl⟩ := Prod.mk.inj (Option.some.inj hadvance)
                exact h.move_leaving hc hop (by simp) trivial rfl (fun g => ⟨hfresh, g.leaveDone hdone⟩)
                  fun _ x hx hne => absurd hx hne
            | false =>
                obtain ⟨rfl, rfl⟩ := Prod.mk.inj (Option.some.inj hadvance)
                refine h.move_leaving hc hop (by simp) trivial rfl (fun g => fact_leaveNext hfresh) fun g x hx _ => ?_
                obtain rfl := Option.some.inj hx
                exact g.leaveDone hdone
      · obtain ⟨hfresh, t, ht, hreceiver, hinserted⟩ := hfact
        have hclosed := ((h.rooms r t ht).dropped hreceiver).1
        simp only [advanceLeave] at hadvance
        rw [if_pos (isClosed_iff.mpr ⟨t, ht, hclosed⟩)] at hadvance
        obtain ⟨rfl, rfl⟩ := Prod.mk.inj (Option.some.inj hadvance)
        exact h.move_leaving hc hop (by simp) trivial rfl
          (fun g => ⟨hfresh, t, ht, hclosed, hinserted, Or.inr hreceiver⟩) fun _ x hx hne => absurd hx hne
  | leaveForget r left todo =>
      obtain ⟨hfresh, hat⟩ := hfact
      obtain ⟨rfl, rfl⟩ := Prod.mk.inj (Option.some.inj hadvance)
      have hgone : ∀ pc', r ∉ (s.move k (.forget r) pc').registry := fun _ hm => by simpa using List.of_mem_filter hm
      cases left with
      | true =>
          exact h.move_leaving hc hop (by simp) trivial rfl
            (fun g => ⟨hfresh, g.leaveDone_of_forgotten hat (hgone _)⟩) fun _ x hx hne => absurd hx hne
      | false =>
          refine h.move_leaving hc hop (by simp) trivial rfl (fun g => fact_leaveNext hfresh) fun g x hx _ => ?_
          obtain rfl := Option.some.inj hx
          exact g.leaveDone_of_forgotten hat (hgone _)
  | leavePublish r todo =>
      obtain ⟨hfresh, hdone⟩ := hfact
      obtain ⟨rfl, rfl⟩ := Prod.mk.inj (Option.some.inj hadvance)
      refine h.move_leaving hc hop (by simp) trivial rfl (fun g => fact_leaveNext hfresh) fun g x hx _ => ?_
      obtain rfl := Option.some.inj hx
      exact g.leaveDone hdone
  | create | insert | joinLookup | joinSend | joinWait | joinPublish | undo | liveHandles | chatLookup | chatSend
  | drain | closeSend | returned | failed | cancelled => cases hadvance

/-- The rule for the calls that neither open rooms nor leave them. -/
theorem Inv.move_plain (h : Inv s) {c : Call} {act : Act} {pc' : Pc} (hc : s.calls[k]? = some c)
    (hcreates : c.op.creates = false) (hleaves : c.op.leaves = false) (hact : act.Allowed s k c)
    (hfact : Grows s (s.move k act pc') → Fact (s.move k act pc') k (c.moved act pc')) : Leads s (s.move k act pc') := by
  have hno : c.op.creates ≠ true := by rw [hcreates]; decide
  refine h.move hc hact (hfact (h.move_grows hc hact)) (fun hop => ?_) (fun _ _ _ _ _ _ hop => absurd hop hno)
    fun hop => absurd hop hno
  rw [show (c.moved act pc').op = c.op from rfl, hleaves] at hop
  cases hop

theorem Inv.next_chat (h : Inv s) {room : RoomId} {player : PlayerId} {text : String} {pc pc' : Pc} {sent : List RoomId}
    {act : Act} (hc : s.calls[k]? = some ⟨.chat room player text, pc, sent⟩)
    (hadvance : advanceChat config s player text pc = some (act, pc')) : Leads s (s.move k act pc') := by
  have hfact := (h.calls k _ hc).1
  have hfailed : ∀ {act : Act} {err}, act.Allowed s k ⟨.chat room player text, pc, sent⟩ →
      Leads s (s.move k act (.failed err)) := fun hact => h.move_plain hc rfl rfl hact fun _ => rfl
  cases pc with
  | chatLookup r =>
      simp only [advanceChat] at hadvance
      split_ifs at hadvance
      · obtain ⟨rfl, rfl⟩ := Prod.mk.inj (Option.some.inj hadvance)
        exact hfailed trivial
      · obtain ⟨rfl, rfl⟩ := Prod.mk.inj (Option.some.inj hadvance)
        exact hfailed trivial
      · obtain ⟨hfor, hr, -⟩ | ⟨hfor, -⟩ | ⟨hfor, -⟩ := handleFor_cases s r
        · rw [hfor] at hadvance
          obtain ⟨rfl, rfl⟩ := Prod.mk.inj (Option.some.inj hadvance)
          exact h.move_plain hc rfl rfl trivial fun g => g.at (fun _ _ hg => hg.inserted) (h.registry r hr)
        · rw [hfor] at hadvance
          obtain ⟨rfl, rfl⟩ := Prod.mk.inj (Option.some.inj hadvance)
          exact hfailed trivial
        · rw [hfor] at hadvance
          obtain ⟨rfl, rfl⟩ := Prod.mk.inj (Option.some.inj hadvance)
          exact hfailed trivial
  | chatSend r =>
      simp only [advanceChat] at hadvance
      obtain ⟨hgate, t, ht, hinserted, hreceiver⟩ | hgate | ⟨hgate, -⟩ := gate_cases config hfact
      · rw [hgate] at hadvance
        obtain ⟨rfl, rfl⟩ := Prod.mk.inj (Option.some.inj hadvance)
        exact h.move_plain hc rfl rfl ⟨⟨t, ht, hreceiver, hinserted⟩, fun j hj => by cases hj⟩ fun _ => trivial
      · rw [hgate] at hadvance
        obtain ⟨rfl, rfl⟩ := Prod.mk.inj (Option.some.inj hadvance)
        exact hfailed trivial
      · rw [hgate] at hadvance
        obtain ⟨rfl, rfl⟩ := Prod.mk.inj (Option.some.inj hadvance)
        exact hfailed trivial
  | create | insert | joinLookup | joinSend | joinWait | joinPublish | undo | liveHandles | leaveLookup | leaveSend
  | leaveWait | leaveForget | leavePublish | drain | closeSend | returned | failed | cancelled => cases hadvance

theorem fact_closeNext {op : Op} {sent todo : List RoomId} (h : ∀ x ∈ todo, s.At x (fun t => t.inserted = true)) :
    Fact s k ⟨op, closeNext todo, sent⟩ := by
  cases todo with
  | nil => exact trivial
  | cons r todo => exact h

theorem Inv.next_close (h : Inv s) {reason : String} {pc pc' : Pc} {sent : List RoomId} {act : Act}
    (hc : s.calls[k]? = some ⟨.closeAll reason, pc, sent⟩)
    (hadvance : advanceClose config s reason pc = some (act, pc')) : Leads s (s.move k act pc') := by
  have hfact := (h.calls k _ hc).1
  cases pc with
  | closeSend r todo =>
      have htodo : ∀ {s' : State}, Grows s s' → ∀ x ∈ todo, s'.At x (fun t => t.inserted = true) :=
        fun g x hx => g.at (fun _ _ hg => hg.inserted) (hfact x (List.mem_cons_of_mem _ hx))
      simp only [advanceClose] at hadvance
      obtain ⟨hgate, t, ht, hinserted, hreceiver⟩ | hgate | ⟨hgate, -⟩ := gate_cases config (hfact r List.mem_cons_self)
      · rw [hgate] at hadvance
        obtain ⟨rfl, rfl⟩ := Prod.mk.inj (Option.some.inj hadvance)
        exact h.move_plain hc rfl rfl ⟨⟨t, ht, hreceiver, hinserted⟩, fun j hj => by cases hj⟩
          fun g => fact_closeNext (htodo g)
      · rw [hgate] at hadvance
        cases hadvance
      · rw [hgate] at hadvance
        obtain ⟨rfl, rfl⟩ := Prod.mk.inj (Option.some.inj hadvance)
        exact h.move_plain hc rfl rfl trivial fun g => fact_closeNext (htodo g)
  | create | insert | joinLookup | joinSend | joinWait | joinPublish | undo | liveHandles | leaveLookup | leaveSend
  | leaveWait | leaveForget | leavePublish | chatLookup | chatSend | drain | returned | failed | cancelled =>
      cases hadvance

/-- **Every step of every call.** -/
theorem Inv.next (h : Inv s) {c : Call} {act : Act} {pc' : Pc} (hc : s.calls[k]? = some c)
    (hadvance : advance config s k c = some (act, pc')) : Leads s (s.move k act pc') := by
  obtain ⟨op, pc, sent⟩ := c
  cases op with
  | joinOrCreate room player nickname sink => exact h.next_join hc hadvance
  | leave room player reason => exact h.next_leave hc rfl rfl hadvance
  | leaveAll player reason => exact h.next_leave hc rfl rfl hadvance
  | chat room player text => exact h.next_chat hc hadvance
  | closeAll reason => exact h.next_close hc hadvance

theorem Inv.liveHandles (h : Inv s) {op : Op} {sent order : List RoomId} (hc : s.calls[k]? = some ⟨op, .liveHandles, sent⟩)
    (horder : order.Perm (s.apply .retain).registry) : Leads s (s.move k .retain (leaveNext order)) := by
  have hsent : sent = [] := (h.calls k _ hc).1
  have hfresh : Fresh [] order := ⟨horder.nodup_iff.mpr (h.nodup.filter _), fun _ _ => List.not_mem_nil⟩
  subst hsent
  refine h.move hc trivial (fact_leaveNext hfresh) (fun _ _ x hx => absurd hx List.not_mem_nil)
    (fun _ _ _ _ _ _ _ htends => htends.elim) fun _ x hx => ?_
  cases order <;> cases hx

theorem Inv.drain (h : Inv s) {op : Op} {sent order : List RoomId} (hc : s.calls[k]? = some ⟨op, .drain, sent⟩)
    (horder : order.Perm s.registry) : Leads s (s.move k .drain (closeNext order)) := by
  have g : Grows s (s.move k .drain (closeNext order)) := h.move_grows hc trivial
  refine h.move hc trivial (fact_closeNext fun x hx => ?_) (fun hop _ x hx _ => ?_)
    (fun _ _ _ _ _ _ _ htends => htends.elim) fun _ x hx => ?_
  · exact g.at (fun _ _ hg => hg.inserted) (h.registry x (horder.subset hx))
  · have hx' : x ∈ sent := by simpa [Call.moved, Act.asks] using hx
    exact g.leaveDone ((h.calls k _ hc).2 hop (by simp) x hx' (by simp [Pc.leaving]))
  · cases order <;> cases hx

theorem Inv.cancel (h : Inv s) {c : Call} (hc : s.calls[k]? = some c) : Leads s (s.move k .skip .cancelled) :=
  h.move hc trivial trivial (fun _ hpc => absurd rfl hpc) (fun _ _ _ _ _ _ _ _ => trivial) fun _ _ hx => by cases hx

end

end LongshipX.Service
