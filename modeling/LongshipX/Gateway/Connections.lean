import LongshipX.Gateway.Lifecycle
import LongshipX.Lib.Indexed
import LongshipX.Room.Cleanup

/-!
# Connections, their calls and the registry

* `Stepped` : everything a step of a connection can do (`step_stepped`), `Taken` : a step of the gateway;
* `Owns` : a connection's calls are for its player, and over up to the one it awaits;
* `Inv` : every room call belongs to one connection, and the registry lists the connections that have not ended;
* `run_inv` : every run keeps it.
-/

namespace LongshipX.Service

def Op.player : Op → Option PlayerId
  | .joinOrCreate _ player _ _ => some player
  | .leave _ player _ => some player
  | .leaveAll player _ => some player
  | .chat _ player _ => some player
  | .closeAll _ => none

end LongshipX.Service

namespace LongshipX.Gateway
open Protocol
open Service (CallId Op)

/-! ## The steps of a connection -/

/-- Everything one step of a connection can do. -/
inductive Stepped (s : Service.State) (conn : Conn) : ConnLabel → Deed → Conn → Prop where
  | bind (player : AuthedPlayer) (token : String) (hphase : conn.phase = .reading) (hplayer : conn.auth.player = none) :
      Stepped s conn (.bind player token) .idle { conn with auth := conn.auth.setAuthed player token }
  | answer {label : ConnLabel} (hphase : conn.phase = .reading) : Stepped s conn label .idle conn
  | dispatch {label : ConnLabel} (op : Op) (player : AuthedPlayer) (hphase : conn.phase = .reading)
      (hplayer : conn.auth.player = some player) (hop : op.player = some player.playerId) :
      Stepped s conn label (.start op)
        { conn with phase := .dispatching s.calls.length, calls := s.calls.length :: conn.calls }
  | resume {label : ConnLabel} (k : CallId) (c : Service.Call) (hphase : conn.phase = .dispatching k) (hc : s.calls[k]? = some c)
      (hover : c.pc.over = true) : Stepped s conn label .idle { conn with auth := resumeCall conn.auth c, phase := .reading }
  | leave {label : ConnLabel} (hphase : conn.phase = .reading) : Stepped s conn label .idle { conn with phase := .leaving }
  | leaveCall {label : ConnLabel} (k : CallId) (hphase : conn.phase = .dispatching k) :
      Stepped s conn label (.drop k) { conn with phase := .leaving }
  | clean {label : ConnLabel} (player : AuthedPlayer) (hphase : conn.phase = .leaving) (hplayer : conn.auth.player = some player) :
      Stepped s conn label (.start (.leaveAll player.playerId "connection closed"))
        { conn with phase := .cleaning s.calls.length, calls := s.calls.length :: conn.calls }
  | sweep {label : ConnLabel} (player : AuthedPlayer) (hphase : conn.phase = .spawned) (hplayer : conn.auth.player = some player) :
      Stepped s conn label (.start (.leaveAll player.playerId "connection closed"))
        { conn with phase := .sweeping s.calls.length, calls := s.calls.length :: conn.calls }
  | cleanNobody {label : ConnLabel} (hphase : conn.phase = .leaving) (hplayer : conn.auth.player = none) :
      Stepped s conn label .idle { conn with phase := .tidy, cleaned := true }
  | sweepNobody {label : ConnLabel} (hphase : conn.phase = .spawned) (hplayer : conn.auth.player = none) :
      Stepped s conn label .idle { conn with phase := .swept }
  | cleaned {label : ConnLabel} (k : CallId) (c : Service.Call) (hphase : conn.phase = .cleaning k) (hc : s.calls[k]? = some c)
      (hover : c.pc.over = true) : Stepped s conn label .idle { conn with phase := .tidy, cleaned := true }
  | swept {label : ConnLabel} (k : CallId) (c : Service.Call) (hphase : conn.phase = .sweeping k) (hc : s.calls[k]? = some c)
      (hover : c.pc.over = true) : Stepped s conn label .idle { conn with phase := .swept }
  | cleanTimeout {label : ConnLabel} (k : CallId) (hphase : conn.phase = .cleaning k) :
      Stepped s conn label (.drop k) { conn with phase := .tidy, cleaned := true, timedOut := true }
  | sweepTimeout {label : ConnLabel} (k : CallId) (hphase : conn.phase = .sweeping k) :
      Stepped s conn label (.drop k) { conn with phase := .swept, timedOut := true }
  | beginDrain {label : ConnLabel} (hphase : conn.phase = .tidy) : Stepped s conn label .beginDrain { conn with phase := .draining }
  | drained {label : ConnLabel} (hphase : conn.phase = .draining) : Stepped s conn label .idle { conn with phase := .dropping }
  | abort {label : ConnLabel} (hphase : conn.phase = .reading ∨ conn.phase = .leaving ∨ conn.phase = .tidy ∨ conn.phase = .draining) :
      Stepped s conn label .idle { conn with phase := .dropping }
  | abortCall {label : ConnLabel} (k : CallId) (hphase : conn.phase = .dispatching k ∨ conn.phase = .cleaning k) :
      Stepped s conn label (.drop k) { conn with phase := .dropping }
  | spawn {label : ConnLabel} (hphase : conn.phase = .dropping) : Stepped s conn label .idle { conn with phase := .spawned }
  | dropped {label : ConnLabel} (hphase : conn.phase = .dropping) (hclean : conn.cleaned = true ∨ conn.auth.player = none) :
      Stepped s conn label .remove { conn with phase := .ended }
  | removed {label : ConnLabel} (hphase : conn.phase = .swept) : Stepped s conn label .remove { conn with phase := .ended }

section
variable {uuids : Uuids} {config : Service.RoomServiceConfig} {s s' : Service.State} {conn conn' : Conn}
  {label : ConnLabel} {deed : Deed}

theorem roomCall_player {roomTx : SinkId} {auth : AuthState} {message : InboundMessage} {op : Op}
    (h : roomCall uuids roomTx auth message = some op) :
    ∃ player, auth.player = some player ∧ op.player = some player.playerId := by
  unfold roomCall at h
  split at h
  · obtain ⟨-, player, target, hplayer, rfl⟩ := beginJoinRoom_calls (Sum.getRight?_eq_some_iff.mp h)
    exact ⟨player, hplayer, rfl⟩
  · obtain ⟨player, hplayer, ⟨room, rfl⟩ | rfl⟩ := beginLeaveRoom_calls (Sum.getRight?_eq_some_iff.mp h)
    · exact ⟨player, hplayer, rfl⟩
    · exact ⟨player, hplayer, rfl⟩
  · obtain ⟨player, room, text, hplayer, rfl⟩ := beginRoomChat_calls (Sum.getRight?_eq_some_iff.mp h)
    exact ⟨player, hplayer, rfl⟩
  · cases h

theorem overAt_eq_some {k : CallId} {c : Service.Call} (h : overAt s k = some c) :
    s.calls[k]? = some c ∧ c.pc.over = true := Option.filter_eq_some_iff.mp h

theorem resumeCall_player (auth : AuthState) (c : Service.Call) : (resumeCall auth c).player = auth.player := by
  unfold resumeCall
  split
  · exact resumeJoinRoom_player _
  · exact resumeJoinRoom_player _
  · exact resumeLeaveRoom_player _ _
  · exact resumeLeaveRoom_player _ _
  · exact resumeLeaveRoom_player _ _
  · exact resumeLeaveRoom_player _ _
  · exact resumeRoomChat_player _
  · exact resumeRoomChat_player _
  · rfl

theorem cleanupOp_cases (auth : AuthState) :
    (auth.player = none ∧ cleanupOp auth = none) ∨
      ∃ player, auth.player = some player ∧ cleanupOp auth = some (.leaveAll player.playerId "connection closed") := by
  unfold cleanupOp
  cases hplayer : auth.player with
  | none => exact Or.inl ⟨rfl, rfl⟩
  | some player => exact Or.inr ⟨player, rfl, rfl⟩

/-- **Inversion**: a step is one of those. -/
theorem step_stepped (h : conn.step uuids s label = some (deed, conn')) :
    Stepped s conn label deed conn' := by
  cases label with
  | bind player token =>
      simp only [Conn.step] at h
      split_ifs at h with hguard
      obtain ⟨rfl, rfl⟩ := Prod.mk.inj (Option.some.inj h)
      exact .bind player token hguard.1 (Option.not_isSome_iff_eq_none.mp (Bool.eq_false_iff.mp hguard.2))
  | dispatch message =>
      simp only [Conn.step] at h
      split_ifs at h with hphase
      split at h
      · next op hop =>
          obtain ⟨rfl, rfl⟩ := Prod.mk.inj (Option.some.inj h)
          obtain ⟨player, hplayer, hop⟩ := roomCall_player hop
          exact .dispatch op player hphase hplayer hop
      · obtain ⟨rfl, rfl⟩ := Prod.mk.inj (Option.some.inj h)
        exact .answer hphase
  | resume =>
      simp only [Conn.step] at h
      split at h
      · next k hphase =>
          obtain ⟨c, hc, heq⟩ := Option.map_eq_some_iff.mp h
          obtain ⟨rfl, rfl⟩ := Prod.mk.inj heq
          exact .resume k c hphase (overAt_eq_some hc).1 (overAt_eq_some hc).2
      · cases h
  | readLoopReturns =>
      simp only [Conn.step] at h
      split_ifs at h with hphase
      obtain ⟨rfl, rfl⟩ := Prod.mk.inj (Option.some.inj h)
      exact .leave hphase
  | translatorFinishes =>
      simp only [Conn.step] at h
      split at h
      · next hphase =>
          obtain ⟨rfl, rfl⟩ := Prod.mk.inj (Option.some.inj h)
          exact .leave hphase
      · next k hphase =>
          obtain ⟨rfl, rfl⟩ := Prod.mk.inj (Option.some.inj h)
          exact .leaveCall k hphase
      · cases h
  | cleanupRoom =>
      simp only [Conn.step] at h
      split at h
      · next hphase =>
          obtain ⟨hplayer, hop⟩ | ⟨player, hplayer, hop⟩ := cleanupOp_cases conn.auth
          · rw [hop] at h
            obtain ⟨rfl, rfl⟩ := Prod.mk.inj (Option.some.inj h)
            exact .cleanNobody hphase hplayer
          · rw [hop] at h
            obtain ⟨rfl, rfl⟩ := Prod.mk.inj (Option.some.inj h)
            exact .clean player hphase hplayer
      · next hphase =>
          obtain ⟨hplayer, hop⟩ | ⟨player, hplayer, hop⟩ := cleanupOp_cases conn.auth
          · rw [hop] at h
            obtain ⟨rfl, rfl⟩ := Prod.mk.inj (Option.some.inj h)
            exact .sweepNobody hphase hplayer
          · rw [hop] at h
            obtain ⟨rfl, rfl⟩ := Prod.mk.inj (Option.some.inj h)
            exact .sweep player hphase hplayer
      · cases h
  | cleanupReturns =>
      simp only [Conn.step] at h
      split at h
      · next k hphase =>
          obtain ⟨c, hc, heq⟩ := Option.map_eq_some_iff.mp h
          obtain ⟨rfl, rfl⟩ := Prod.mk.inj heq
          exact .cleaned k c hphase (overAt_eq_some hc).1 (overAt_eq_some hc).2
      · next k hphase =>
          obtain ⟨c, hc, heq⟩ := Option.map_eq_some_iff.mp h
          obtain ⟨rfl, rfl⟩ := Prod.mk.inj heq
          exact .swept k c hphase (overAt_eq_some hc).1 (overAt_eq_some hc).2
      · cases h
  | cleanupTimeout =>
      simp only [Conn.step] at h
      split at h
      · next k hphase =>
          obtain ⟨rfl, rfl⟩ := Prod.mk.inj (Option.some.inj h)
          exact .cleanTimeout k hphase
      · next k hphase =>
          obtain ⟨rfl, rfl⟩ := Prod.mk.inj (Option.some.inj h)
          exact .sweepTimeout k hphase
      · cases h
  | beginDrain =>
      simp only [Conn.step] at h
      split_ifs at h with hphase
      obtain ⟨rfl, rfl⟩ := Prod.mk.inj (Option.some.inj h)
      exact .beginDrain hphase
  | writerEnds | drainTimeout =>
      simp only [Conn.step] at h
      split_ifs at h with hphase
      obtain ⟨rfl, rfl⟩ := Prod.mk.inj (Option.some.inj h)
      exact .drained hphase
  | abort =>
      simp only [Conn.step] at h
      split at h
      · next hphase =>
          obtain ⟨rfl, rfl⟩ := Prod.mk.inj (Option.some.inj h)
          exact .abort (Or.inl hphase)
      · next k hphase =>
          obtain ⟨rfl, rfl⟩ := Prod.mk.inj (Option.some.inj h)
          exact .abortCall k (Or.inl hphase)
      · next hphase =>
          obtain ⟨rfl, rfl⟩ := Prod.mk.inj (Option.some.inj h)
          exact .abort (Or.inr (Or.inl hphase))
      · next k hphase =>
          obtain ⟨rfl, rfl⟩ := Prod.mk.inj (Option.some.inj h)
          exact .abortCall k (Or.inr hphase)
      · next hphase =>
          obtain ⟨rfl, rfl⟩ := Prod.mk.inj (Option.some.inj h)
          exact .abort (Or.inr (Or.inr (Or.inl hphase)))
      · next hphase =>
          obtain ⟨rfl, rfl⟩ := Prod.mk.inj (Option.some.inj h)
          exact .abort (Or.inr (Or.inr (Or.inr hphase)))
      · cases h
  | dropGuard =>
      simp only [Conn.step] at h
      split_ifs at h with hphase hguard
      · obtain ⟨rfl, rfl⟩ := Prod.mk.inj (Option.some.inj h)
        exact .spawn hphase
      · obtain ⟨rfl, rfl⟩ := Prod.mk.inj (Option.some.inj h)
        refine .dropped hphase ?_
        simpa [AuthState.isAuthenticated, or_iff_not_imp_left] using hguard
  | remove =>
      simp only [Conn.step] at h
      split_ifs at h with hphase
      obtain ⟨rfl, rfl⟩ := Prod.mk.inj (Option.some.inj h)
      exact .removed hphase

def Deed.request : Deed → Option Service.Label
  | .start op => some (.start op)
  | .drop k => some (.cancel k)
  | _ => none

/-- The room service has taken the step that was asked of it, or none. -/
def Shift (config : Service.RoomServiceConfig) (s s' : Service.State) (request : Option Service.Label) : Prop :=
  s' = s ∨ ∃ label, request = some label ∧ s.step config label = some s'

variable {request : Option Service.Label}

theorem perform_shift (config : Service.RoomServiceConfig) (w : World) (id : ConnId) (deed : Deed) :
    Shift config w.rooms (w.perform config id deed).rooms deed.request := by
  cases deed with
  | idle | beginDrain | remove => exact Or.inl rfl
  | start op => exact Or.inr ⟨.start op, rfl, rfl⟩
  | drop k =>
      show Shift config w.rooms ((w.rooms.step config (.cancel k)).getD w.rooms) _
      cases hstep : w.rooms.step config (.cancel k) with
      | none => exact Or.inl rfl
      | some s' => exact Or.inr ⟨.cancel k, rfl, hstep⟩

theorem Shift.inv (h : Shift config s s' request) (hinv : Service.Inv s) : Service.Inv s' := by
  obtain rfl | ⟨label, -, hstep⟩ := h
  · exact hinv
  · exact (hinv.step hstep).inv

theorem Shift.grows (h : Shift config s s' request) (hinv : Service.Inv s) : Service.Grows s s' := by
  obtain rfl | ⟨label, -, hstep⟩ := h
  · exact Service.Grows.refl s'
  · exact (hinv.step hstep).grows

/-- A call that is there after a step was there before, or is the one that was started. -/
theorem Shift.call (h : Shift config s s' request) (hinv : Service.Inv s) {k : CallId} {c' : Service.Call}
    (hc' : s'.calls[k]? = some c') :
    (k = s.calls.length ∧ request = some (.start c'.op)) ∨ ∃ c, s.calls[k]? = some c ∧ c.op = c'.op := by
  obtain rfl | ⟨label, hrequest, hstep⟩ := h
  · exact Or.inr ⟨c', hc', rfl⟩
  · obtain ⟨hk, op, rfl, rfl⟩ | ⟨c, hc, -⟩ := (Service.step_taken hstep).call hc'
    · exact Or.inl ⟨hk, hrequest⟩
    · obtain ⟨c'', hc'', hop, -⟩ := hinv.step_call hstep hc
      obtain rfl := Option.some.inj (hc'.symm.trans hc'')
      exact Or.inr ⟨c, hc, hop.symm⟩

/-! ## The calls of a connection -/

/-- The calls of a connection are for its player, and over up to the one that it awaits. -/
structure Owns (s : Service.State) (conn : Conn) : Prop where
  calls : ∀ k ∈ conn.calls, ∃ c player, s.calls[k]? = some c ∧ conn.auth.player = some player ∧
    c.op.player = some player.playerId ∧ (c.pc.over = true ∨ conn.phase.call = some k)
  awaited : ∀ k, conn.phase.call = some k → k ∈ conn.calls

theorem Owns.shift (h : Owns s conn) (hinv : Service.Inv s) (hs : Shift config s s' request) : Owns s' conn := by
  obtain rfl | ⟨label, -, hstep⟩ := hs
  · exact h
  · refine ⟨fun k hk => ?_, h.awaited⟩
    obtain ⟨c, player, hc, hplayer, hop, hover⟩ := h.calls k hk
    obtain ⟨c', hc', hop', hover'⟩ := hinv.step_call hstep hc
    exact ⟨c', player, hc', hplayer, hop' ▸ hop, hover.imp hover' id⟩

theorem Owns.release (h : Owns s conn) (hcalls : conn'.calls = conn.calls) (hplayer : conn'.auth.player = conn.auth.player)
    (hphase : conn'.phase.call = none) (hover : ∀ k c, conn.phase.call = some k → s.calls[k]? = some c → c.pc.over = true) :
    Owns s conn' := by
  refine ⟨fun k hk => ?_, fun k hk => ?_⟩
  · rw [hcalls] at hk
    obtain ⟨c, player, hc, hplayer', hop, hover' | hawaited⟩ := h.calls k hk
    · exact ⟨c, player, hc, hplayer.trans hplayer', hop, Or.inl hover'⟩
    · exact ⟨c, player, hc, hplayer.trans hplayer', hop, Or.inl (hover k c hawaited hc)⟩
  · rw [hphase] at hk
    cases hk

theorem Owns.start (h : Owns s conn) {op : Op} {player : AuthedPlayer} {phase : Phase}
    (hplayer : conn.auth.player = some player) (hop : op.player = some player.playerId)
    (hphase : phase.call = some s.calls.length) (hidle : conn.phase.call = none)
    (hs' : s'.calls = s.calls ++ [⟨op, op.start, []⟩]) :
    Owns s' { conn with phase := phase, calls := s.calls.length :: conn.calls } := by
  refine ⟨fun k hk => ?_, fun k hk => ?_⟩
  · obtain rfl | hk := List.mem_cons.mp hk
    · exact ⟨⟨op, op.start, []⟩, player, by rw [hs']; simp, hplayer, hop, Or.inr hphase⟩
    · obtain ⟨c, player, hc, hplayer, hop, hover | hawaited⟩ := h.calls k hk
      · exact ⟨c, player, hs' ▸ Indexed.append_old hc, hplayer, hop, Or.inl hover⟩
      · rw [hidle] at hawaited
        cases hawaited
  · obtain rfl := Option.some.inj (hphase.symm.trans hk)
    exact List.mem_cons_self

theorem over_of_drop {w : World} {id : ConnId} {k : CallId} {c : Service.Call}
    (hc : (w.perform config id (.drop k)).rooms.calls[k]? = some c) : c.pc.over = true := by
  change ((w.rooms.step config (.cancel k)).getD w.rooms).calls[k]? = some c at hc
  simp only [Service.State.step] at hc
  split at hc
  · next c₀ hc₀ =>
      split_ifs at hc with hover
      · obtain rfl := Option.some.inj (hc₀.symm.trans hc)
        exact hover
      · rw [Option.getD_some, Service.State.move_self hc₀] at hc
        obtain rfl := Option.some.inj hc
        rfl
  · next hnone =>
      rw [Option.getD_none, hnone] at hc
      cases hc

/-- **A step of the connection itself.** -/
theorem Owns.stepped {w : World} {id : ConnId} (h : Owns w.rooms conn) (hinv : Service.Inv w.rooms)
    (hstep : Stepped w.rooms conn label deed conn') : Owns (w.perform config id deed).rooms conn' := by
  have hshift := h.shift hinv (perform_shift config w id deed)
  have hnone : ∀ {k} {c : Service.Call}, conn.phase.call = none → conn.phase.call = some k → c.pc.over = true := by
    intro k c hnone hsome
    rw [hnone] at hsome
    cases hsome
  have hphased : ∀ {phase k k'}, conn.phase = phase → phase.call = some k → conn.phase.call = some k' → k' = k := by
    intro phase k k' hphase hcall hcall'
    rw [hphase] at hcall'
    exact Option.some.inj (hcall'.symm.trans hcall)
  cases hstep with
  | bind player token hphase hplayer =>
      refine ⟨fun k hk => ?_, h.awaited⟩
      obtain ⟨-, player', -, hplayer', -⟩ := h.calls k hk
      rw [hplayer] at hplayer'
      cases hplayer'
  | answer => exact h
  | dispatch op player hphase hplayer hop => exact h.start hplayer hop rfl (by rw [hphase]; rfl) rfl
  | clean player hphase hplayer => exact h.start hplayer rfl rfl (by rw [hphase]; rfl) rfl
  | sweep player hphase hplayer => exact h.start hplayer rfl rfl (by rw [hphase]; rfl) rfl
  | resume k c hphase hc hover =>
      refine hshift.release rfl (resumeCall_player conn.auth c) rfl fun k' c' hk' hc' => ?_
      obtain rfl := hphased hphase rfl hk'
      obtain rfl := Option.some.inj (hc.symm.trans hc')
      exact hover
  | cleaned k c hphase hc hover | swept k c hphase hc hover =>
      refine hshift.release rfl rfl rfl fun k' c' hk' hc' => ?_
      obtain rfl := hphased hphase rfl hk'
      obtain rfl := Option.some.inj (hc.symm.trans hc')
      exact hover
  | leaveCall k hphase | cleanTimeout k hphase | sweepTimeout k hphase =>
      refine hshift.release rfl rfl rfl fun k' c' hk' hc' => ?_
      obtain rfl := hphased hphase rfl hk'
      exact over_of_drop hc'
  | abortCall k hphase =>
      refine hshift.release rfl rfl rfl fun k' c' hk' hc' => ?_
      obtain rfl : k' = k := hphase.elim (fun hphase => hphased hphase rfl hk') fun hphase => hphased hphase rfl hk'
      exact over_of_drop hc'
  | abort hphase =>
      refine hshift.release rfl rfl rfl fun k' c' hk' hc' => hnone ?_ hk'
      obtain hphase | hphase | hphase | hphase := hphase <;> rw [hphase] <;> rfl
  | leave hphase | cleanNobody hphase | sweepNobody hphase | beginDrain hphase | drained hphase | spawn hphase
  | dropped hphase | removed hphase =>
      exact hshift.release rfl rfl rfl fun k' c' hk' hc' => hnone (by rw [hphase]; rfl) hk'

/-! ## All connections -/

/-- The calls belong to connections, each to one, and the registry lists the connections that have not ended. -/
structure Inv (w : World) : Prop where
  rooms : Service.Inv w.rooms
  owned : ∀ k c, w.rooms.calls[k]? = some c → c.op.closesAll = false →
    ∃ (id : ConnId) (conn : Conn), w.conns[id]? = some conn ∧ k ∈ conn.calls
  owns : ∀ (id : ConnId) (conn : Conn), w.conns[id]? = some conn → Owns w.rooms conn
  disjoint : ∀ (i j : ConnId) (a b : Conn) k, w.conns[i]? = some a → w.conns[j]? = some b → k ∈ a.calls → k ∈ b.calls →
    i = j
  listed : ∀ id, id ∈ w.connections ↔ ∃ conn, w.conns[id]? = some conn ∧ conn.phase ≠ .ended
  removed : ∀ (id : ConnId) (conn : Conn), w.conns[id]? = some conn →
    w.removed.count id = if conn.phase = .ended then 1 else 0
  accepted : ∀ id ∈ w.removed, id < w.conns.length

/-- What one step of the gateway is. -/
inductive Taken (config : Service.RoomServiceConfig) (w : World) : Label → World → Prop where
  | accept (roomTx : SinkId) : Taken config w (.accept roomTx)
      { w with conns := w.conns ++ [.accept roomTx], connections := w.connections.register w.conns.length }
  | conn (id : ConnId) (label : ConnLabel) (conn conn' : Conn) (deed : Deed) (hconn : w.conns[id]? = some conn)
      (hstep : Stepped w.rooms conn label deed conn') :
      Taken config w (.conn id label) { w.perform config id deed with conns := w.conns.set id conn' }
  | service (label : Service.Label) (s' : Service.State) (hlabel : internal label = true)
      (hstep : w.rooms.step config label = some s') : Taken config w (.service label) { w with rooms := s' }
  | closeAll (reason : String) (s' : Service.State) (hstep : w.rooms.step config (.start (.closeAll reason)) = some s') :
      Taken config w (.closeAll reason) { w with rooms := s' }

theorem step_taken {w w' : World} {label : Label} (h : w.step uuids config label = some w') : Taken config w label w' := by
  cases label with
  | accept roomTx =>
      obtain rfl := Option.some.inj h
      exact .accept roomTx
  | conn id label =>
      simp only [World.step] at h
      split at h
      · next conn hconn =>
          obtain ⟨⟨deed, conn'⟩, hstep, rfl⟩ := Option.map_eq_some_iff.mp h
          exact .conn id label conn conn' deed hconn (step_stepped hstep)
      · cases h
  | service label =>
      simp only [World.step] at h
      split_ifs at h with hlabel
      obtain ⟨s', hstep, rfl⟩ := Option.map_eq_some_iff.mp h
      exact .service label s' hlabel hstep
  | closeAll reason =>
      obtain rfl := Option.some.inj h
      exact .closeAll reason _ rfl

theorem Stepped.live (h : Stepped s conn label deed conn') : conn.phase ≠ .ended := by
  intro hended
  cases h with
  | abort hphase => rw [hended] at hphase; simp at hphase
  | abortCall k hphase => rw [hended] at hphase; simp at hphase
  | bind _ _ hphase | answer hphase | dispatch _ _ hphase | resume _ _ hphase | leave hphase | leaveCall _ hphase
  | clean _ hphase | sweep _ hphase | cleanNobody hphase | sweepNobody hphase | cleaned _ _ hphase | swept _ _ hphase
  | cleanTimeout _ hphase | sweepTimeout _ hphase | beginDrain hphase | drained hphase | spawn hphase | dropped hphase
  | removed hphase =>
      rw [hended] at hphase
      cases hphase

theorem Stepped.ended (h : Stepped s conn label deed conn') : conn'.phase = .ended ↔ deed = .remove := by
  cases h with
  | dropped | removed => exact iff_of_true rfl rfl
  | bind _ _ hphase | answer hphase => exact iff_of_false (by simp [hphase]) (by simp)
  | dispatch | resume | leave | leaveCall | clean | sweep | cleanNobody | sweepNobody | cleaned | swept | cleanTimeout
  | sweepTimeout | beginDrain | drained | abort | abortCall | spawn => exact iff_of_false (by simp) (by simp)

theorem Stepped.calls (h : Stepped s conn label deed conn') :
    conn'.calls = conn.calls ∨ ∃ op, deed = .start op ∧ conn'.calls = s.calls.length :: conn.calls := by
  cases h with
  | dispatch op => exact Or.inr ⟨op, rfl, rfl⟩
  | clean | sweep => exact Or.inr ⟨_, rfl, rfl⟩
  | bind | answer | resume | leave | leaveCall | cleanNobody | sweepNobody | cleaned | swept | cleanTimeout
  | sweepTimeout | beginDrain | drained | abort | abortCall | spawn | dropped | removed => exact Or.inl rfl

theorem Stepped.drops {k : CallId} (h : Stepped s conn label deed conn') (hdrop : deed.request = some (.cancel k)) :
    conn.phase.call = some k := by
  cases h with
  | leaveCall k' hphase | cleanTimeout k' hphase | sweepTimeout k' hphase =>
      obtain rfl := Service.Label.cancel.inj (Option.some.inj hdrop)
      rw [hphase]
      rfl
  | abortCall k' hphase =>
      obtain rfl := Service.Label.cancel.inj (Option.some.inj hdrop)
      obtain hphase | hphase := hphase <;> rw [hphase] <;> rfl
  | bind | answer | dispatch | resume | leave | clean | sweep | cleanNobody | sweepNobody | cleaned | swept | beginDrain
  | drained | abort | spawn | dropped | removed => cases hdrop

theorem Stepped.start {op : Op} (h : Stepped s conn label (.start op) conn') : conn'.calls = s.calls.length :: conn.calls := by
  cases h with
  | dispatch | clean | sweep => rfl

theorem Owns.lt (h : Owns s conn) {k : CallId} (hk : k ∈ conn.calls) : k < s.calls.length := by
  obtain ⟨c, -, hc, -⟩ := h.calls k hk
  exact (List.getElem?_eq_some_iff.mp hc).1

theorem Inv.accept {w : World} (h : Inv w) (roomTx : SinkId) :
    Inv { w with conns := w.conns ++ [.accept roomTx], connections := w.connections.register w.conns.length } where
  rooms := h.rooms
  owned k c hc hop := by
    obtain ⟨id, conn, hconn, hk⟩ := h.owned k c hc hop
    exact ⟨id, conn, Indexed.append_old hconn, hk⟩
  owns id conn hconn := by
    obtain hconn | ⟨-, rfl⟩ := Indexed.append_cases hconn
    · exact h.owns id conn hconn
    · exact ⟨fun _ hk => absurd hk List.not_mem_nil, fun _ hk => by cases hk⟩
  disjoint i j a b k ha hb hka hkb := by
    obtain ha | ⟨-, rfl⟩ := Indexed.append_cases ha
    · obtain hb | ⟨-, rfl⟩ := Indexed.append_cases hb
      · exact h.disjoint i j a b k ha hb hka hkb
      · cases hkb
    · cases hka
  listed id := by
    show id ∈ w.connections.insert w.conns.length _ ↔ _
    rw [AList.mem_insert, h.listed]
    constructor
    · rintro (rfl | ⟨conn, hconn, hphase⟩)
      · exact ⟨.accept roomTx, by simp, by simp [Conn.accept]⟩
      · exact ⟨conn, Indexed.append_old hconn, hphase⟩
    · rintro ⟨conn, hconn, hphase⟩
      obtain hconn | ⟨rfl, -⟩ := Indexed.append_cases hconn
      · exact Or.inr ⟨conn, hconn, hphase⟩
      · exact Or.inl rfl
  removed id conn hconn := by
    obtain hconn | ⟨rfl, rfl⟩ := Indexed.append_cases hconn
    · exact h.removed id conn hconn
    · exact List.count_eq_zero.mpr fun hmem => Nat.lt_irrefl _ (h.accepted _ hmem)
  accepted id hid := by
    rw [List.length_append]
    exact Nat.lt_add_right _ (h.accepted id hid)

theorem Inv.service {w : World} (h : Inv w) (hs : Shift config w.rooms s' request)
    (hrequest : ∀ op, request = some (.start op) → op.closesAll = true) : Inv { w with rooms := s' } where
  rooms := hs.inv h.rooms
  owned k c hc hop := by
    obtain ⟨-, hstart⟩ | ⟨c₀, hc₀, hop₀⟩ := hs.call h.rooms hc
    · rw [hrequest _ hstart] at hop
      cases hop
    · exact h.owned k c₀ hc₀ (hop₀ ▸ hop)
  owns id conn hconn := (h.owns id conn hconn).shift h.rooms hs
  disjoint := h.disjoint
  listed := h.listed
  removed := h.removed
  accepted := h.accepted

theorem perform_listed (w : World) (id i : ConnId) (deed : Deed) :
    i ∈ (w.perform config id deed).connections ↔ i ∈ w.connections ∧ (deed = .remove → i ≠ id) := by
  cases deed with
  | idle | start | drop => simp [World.perform, World.act]
  | beginDrain =>
      show i ∈ w.connections.replace id _ ↔ _
      rw [AList.mem_replace]
      simp
  | remove =>
      show i ∈ w.connections.erase id ↔ _
      rw [AList.mem_erase]
      simp [and_comm]

theorem perform_removed (w : World) (id : ConnId) (deed : Deed) :
    (w.perform config id deed).removed = if deed = .remove then w.removed ++ [id] else w.removed := by
  cases deed <;> rfl

theorem Inv.stepped {w : World} (h : Inv w) {id : ConnId} (hconn : w.conns[id]? = some conn)
    (hstep : Stepped w.rooms conn label deed conn') :
    Inv { w.perform config id deed with conns := w.conns.set id conn' } where
  rooms := (perform_shift config w id deed).inv h.rooms
  owned k c hc hop := by
    obtain ⟨rfl, hstart⟩ | ⟨c₀, hc₀, hop₀⟩ := (perform_shift config w id deed).call h.rooms hc
    · refine ⟨id, conn', Indexed.set_self hconn, ?_⟩
      cases deed with
      | start op =>
          rw [hstep.start]
          exact List.mem_cons_self
      | idle | drop | beginDrain | remove => cases hstart
    · obtain ⟨i, a, ha, hk⟩ := h.owned k c₀ hc₀ (hop₀ ▸ hop)
      by_cases hi : i = id
      · subst hi
        obtain rfl := Option.some.inj (hconn.symm.trans ha)
        refine ⟨i, conn', Indexed.set_self hconn, ?_⟩
        obtain hcalls | ⟨op, -, hcalls⟩ := hstep.calls
        · exact hcalls ▸ hk
        · exact hcalls ▸ List.mem_cons_of_mem _ hk
      · exact ⟨i, a, (Indexed.set_of_ne hi).trans ha, hk⟩
  owns i a ha := by
    obtain ⟨-, rfl⟩ | ⟨-, ha⟩ := Indexed.set_cases ha
    · exact (h.owns id conn hconn).stepped h.rooms hstep
    · exact (h.owns i a ha).shift h.rooms (perform_shift config w id deed)
  disjoint i j a b k ha hb hka hkb := by
    have hother : ∀ {i : ConnId} {a : Conn}, w.conns[i]? = some a → k ∈ a.calls → k ∈ conn'.calls → i = id := by
      intro i a ha hka hk
      obtain hcalls | ⟨op, -, hcalls⟩ := hstep.calls
      · exact h.disjoint i id a conn k ha hconn hka (hcalls ▸ hk)
      · rw [hcalls] at hk
        obtain rfl | hk := List.mem_cons.mp hk
        · exact absurd ((h.owns i a ha).lt hka) (Nat.lt_irrefl _)
        · exact h.disjoint i id a conn k ha hconn hka hk
    obtain ⟨rfl, rfl⟩ | ⟨-, ha'⟩ := Indexed.set_cases ha
    · obtain ⟨rfl, -⟩ | ⟨-, hb'⟩ := Indexed.set_cases hb
      · rfl
      · exact (hother hb' hkb hka).symm
    · obtain ⟨rfl, rfl⟩ | ⟨-, hb'⟩ := Indexed.set_cases hb
      · exact hother ha' hka hkb
      · exact h.disjoint i j a b k ha' hb' hka hkb
  listed i := by
    show i ∈ (w.perform config id deed).connections ↔ _
    rw [perform_listed, h.listed]
    by_cases hi : i = id
    · subst hi
      constructor
      · rintro ⟨-, hremove⟩
        exact ⟨conn', Indexed.set_self hconn, fun hended => hremove (hstep.ended.mp hended) rfl⟩
      · rintro ⟨a, ha, hphase⟩
        obtain ⟨-, rfl⟩ | ⟨hne, -⟩ := Indexed.set_cases ha
        · exact ⟨⟨conn, hconn, hstep.live⟩, fun hremove => absurd (hstep.ended.mpr hremove) hphase⟩
        · exact absurd rfl hne
    · rw [Indexed.set_of_ne hi]
      exact and_iff_left fun _ => hi
  removed i a ha := by
    show (w.perform config id deed).removed.count i = _
    rw [perform_removed]
    obtain ⟨rfl, rfl⟩ | ⟨hne, ha⟩ := Indexed.set_cases ha
    · have hcount := h.removed i conn hconn
      rw [if_neg hstep.live] at hcount
      by_cases hremove : deed = .remove
      · rw [if_pos hremove, if_pos (hstep.ended.mpr hremove), List.count_append, hcount]
        simp
      · rw [if_neg hremove, if_neg (fun hended => hremove (hstep.ended.mp hended)), hcount]
    · rw [← h.removed i a ha]
      split_ifs
      · rw [List.count_append, List.count_singleton]
        simp [Ne.symm hne]
      · rfl
  accepted i hi := by
    change i ∈ (w.perform config id deed).removed at hi
    rw [perform_removed] at hi
    rw [List.length_set]
    split_ifs at hi
    · obtain hi | hi := List.mem_append.mp hi
      · exact h.accepted i hi
      · obtain rfl := List.mem_singleton.mp hi
        exact (List.getElem?_eq_some_iff.mp hconn).1
    · exact h.accepted i hi

/-- **Every step of the gateway keeps the invariant.** -/
theorem Inv.step {w w' : World} (h : Inv w) {label : Label} (hstep : w.step uuids config label = some w') : Inv w' := by
  cases step_taken hstep with
  | accept roomTx => exact h.accept roomTx
  | conn id label conn conn' deed hconn hstepped => exact h.stepped hconn hstepped
  | service label s' hlabel hrooms =>
      refine h.service (Or.inr ⟨label, rfl, hrooms⟩) fun op hop => ?_
      obtain rfl := Option.some.inj hop
      cases hlabel
  | closeAll reason s' hrooms =>
      refine h.service (Or.inr ⟨_, rfl, hrooms⟩) fun op hop => ?_
      obtain rfl := Service.Label.start.inj (Option.some.inj hop)
      rfl

theorem init_inv (uuids : Uuids) (config : Service.RoomServiceConfig) : Inv (system uuids config).init where
  rooms := Service.init_inv config
  owned _ _ h := by cases h
  owns _ _ h := by cases h
  disjoint _ _ _ _ _ h := by cases h
  listed id := by
    refine iff_of_false (AList.notMem_empty id) ?_
    rintro ⟨conn, hconn, -⟩
    cases hconn
  removed _ _ h := by cases h
  accepted _ h := by cases h

theorem run_inv {w w' : World} {labels : List Label} (h : Inv w) (hrun : (system uuids config).run w labels = some w') :
    Inv w' := TransitionSystem.run_invariant (fun _ _ _ h hstep => h.step hstep) h hrun

end

end LongshipX.Gateway
