import LongshipX.Gateway.Connections
import LongshipX.Room.Cleanup

/-!
# A connection that has ended has left nothing behind

Whatever way a bound connection ends, its cleanup takes its player out of every open room, for every interleaving
with the other connections and with the room actors, as long as no player is bound to two connections at a time.

* `Unique` : no player is;
* `Conn.Progress` : how far the cleanup of a connection is;
* `Progress.shift`, `Progress.stepped` : a step of another, a step of its own;
* `cleanup_complete` : what is true once the connection has ended.
-/

namespace LongshipX.Gateway
open Protocol
open Service (CallId Op CleanupAt Kept Silent)

/-- A connection is bound only to a player that no other connection still is bound to. -/
def OneConnection (w : World) : Label → Prop
  | .conn _ (.bind player _) =>
    ∀ conn ∈ w.conns, conn.phase ≠ .ended → ∀ p, conn.auth.player = some p → p.playerId ≠ player.playerId
  | _ => True

/-- No player is bound to two connections that have not ended. -/
def Unique (w : World) : Prop :=
  ∀ (i j : ConnId) (a b : Conn) (p q : AuthedPlayer), w.conns[i]? = some a → w.conns[j]? = some b →
    a.phase ≠ .ended → b.phase ≠ .ended → a.auth.player = some p → b.auth.player = some q → p.playerId = q.playerId → i = j

/-- Nobody got into a room before the player who created it, and `close_all` was not called. -/
structure Calm (s : Service.State) : Prop where
  first : ∀ r t, s.rooms r = some t → ¬ t.Intruded
  running : s.NoCloseAll

/-- The connection's `leave_all` is under way. -/
def Sweeping (s : Service.State) (conn : Conn) (k : CallId) : Prop :=
  ∃ c player, s.calls[k]? = some c ∧ conn.auth.player = some player ∧
    c.op = .leaveAll player.playerId "connection closed" ∧ CleanupAt s player.playerId k c.pc

/-- Its player is out of every room, unless the cleanup was cut short. -/
def Swept (s : Service.State) (conn : Conn) : Prop :=
  conn.timedOut = false → ∀ player, conn.auth.player = some player → s.CleanBut player.playerId []

def Conn.Progress (s : Service.State) (conn : Conn) : Prop :=
  match conn.phase with
  | .reading => conn.cleaned = false
  | .dispatching _ => conn.cleaned = false
  | .leaving => conn.cleaned = false
  | .cleaning k => conn.cleaned = false ∧ Sweeping s conn k
  | .tidy => Swept s conn
  | .draining => Swept s conn
  | .dropping => conn.cleaned = true → Swept s conn
  | .spawned => True
  | .sweeping k => Sweeping s conn k
  | .swept => Swept s conn
  | .ended => True

section
variable {uuids : Uuids} {config : Service.RoomServiceConfig} {w w' : World} {s s' : Service.State} {conn conn' : Conn}
  {id : ConnId} {label : ConnLabel} {deed : Deed} {request : Option Service.Label}

/-! ## One connection for a player -/

theorem Stepped.player (h : Stepped s conn label deed conn') :
    conn'.auth.player = conn.auth.player ∨
      ∃ player token, label = .bind player token ∧ conn'.auth.player = some player := by
  cases h with
  | bind player token => exact Or.inr ⟨player, token, rfl, rfl⟩
  | resume k c => exact Or.inl (resumeCall_player conn.auth c)
  | answer | dispatch | leave | leaveCall | clean | sweep | cleanNobody | sweepNobody | cleaned | swept | cleanTimeout
  | sweepTimeout | beginDrain | drained | abort | abortCall | spawn | dropped | removed => exact Or.inl rfl

/-- **Bindings stay unique.** -/
theorem Unique.step (h : Unique w) {label : Label} (hone : OneConnection w label)
    (hstep : w.step uuids config label = some w') : Unique w' := by
  cases step_taken hstep with
  | accept roomTx =>
      intro i j a b p q ha hb hi hj hp hq heq
      obtain ha | ⟨-, rfl⟩ := Indexed.append_cases ha
      · obtain hb | ⟨-, rfl⟩ := Indexed.append_cases hb
        · exact h i j a b p q ha hb hi hj hp hq heq
        · cases hq
      · cases hp
  | service | closeAll => exact h
  | conn id label conn conn' deed hconn hstepped =>
      have hother : ∀ (j : ConnId) (b : Conn) p q, w.conns[j]? = some b → b.phase ≠ .ended → conn'.auth.player = some p →
          b.auth.player = some q → p.playerId = q.playerId → j = id := by
        intro j b p q hb hj hp hq heq
        obtain hsame | ⟨player, token, rfl, hplayer⟩ := hstepped.player
        · exact (h id j conn b p q hconn hb hstepped.live hj (hsame.symm.trans hp) hq heq).symm
        · obtain rfl := Option.some.inj (hplayer.symm.trans hp)
          exact absurd heq.symm (hone b (List.mem_of_getElem? hb) hj q hq)
      intro i j a b p q ha hb hi hj hp hq heq
      obtain ⟨rfl, rfl⟩ | ⟨-, ha'⟩ := Indexed.set_cases ha
      · obtain ⟨rfl, -⟩ | ⟨-, hb'⟩ := Indexed.set_cases hb
        · rfl
        · exact (hother j b p q hb' hj hp hq heq).symm
      · obtain ⟨rfl, rfl⟩ | ⟨-, hb'⟩ := Indexed.set_cases hb
        · exact hother i a q p ha' hi hq hp heq.symm
        · exact h i j a b p q ha' hb' hi hj hp hq heq

theorem Inv.joiner (h : Inv w) {k : CallId} {c : Service.Call} {room : Option RoomId} {p : PlayerId} {nickname : String}
    {sink : SinkId} (hc : w.rooms.calls[k]? = some c) (hop : c.op = .joinOrCreate room p nickname sink) :
    c.pc.over = true ∨ ∃ (j : ConnId) (b : Conn) (q : AuthedPlayer), w.conns[j]? = some b ∧ b.phase.call = some k ∧
      b.auth.player = some q ∧ p = q.playerId := by
  obtain ⟨j, b, hb, hk⟩ := h.owned k c hc (by rw [hop]; rfl)
  obtain ⟨c', q, hc', hq, hop', hover | hawaited⟩ := (h.owns j b hb).calls k hk
  · obtain rfl := Option.some.inj (hc.symm.trans hc')
    exact Or.inl hover
  · obtain rfl := Option.some.inj (hc.symm.trans hc')
    rw [hop] at hop'
    exact Or.inr ⟨j, b, q, hb, hawaited, hq, Option.some.inj hop'⟩

theorem Inv.noJoiner (h : Inv w) (hunique : Unique w) (hconn : w.conns[id]? = some conn) (hlive : conn.phase ≠ .ended)
    {player : AuthedPlayer} (hplayer : conn.auth.player = some player)
    (hcall : ∀ k c, conn.phase.call = some k → w.rooms.calls[k]? = some c → c.op.leaves = true) :
    w.rooms.NoJoiner player.playerId := by
  intro k c room nickname sink hc hop
  obtain hover | ⟨j, b, q, hb, hawaited, hq, hsame⟩ := h.joiner hc hop
  · exact hover
  · have hb_live : b.phase ≠ .ended := by
      intro hended
      rw [hended] at hawaited
      cases hawaited
    obtain rfl := hunique id j conn b player q hconn hb hlive hb_live hplayer hq hsame
    obtain rfl := Option.some.inj (hconn.symm.trans hb)
    have hleaves := hcall k c hawaited hc
    rw [hop] at hleaves
    cases hleaves

/-! ## The cleanup goes on -/

theorem Calm.back (g : Service.Grows s s') (h : Calm s') : Calm s := by
  refine ⟨fun r t ht hintruded => ?_, h.running.back g⟩
  obtain ⟨t', ht', hgrow⟩ := g.rooms r t ht
  exact h.first r t' ht' (hgrow.intruded hintruded)

theorem Swept.shift (h : Swept s conn) (hinv : Service.Inv s)
    (hno : ∀ player, conn.auth.player = some player → s.NoJoiner player.playerId) (hs : Shift config s s' request) :
    Swept s' conn := by
  obtain rfl | ⟨label, -, hstep⟩ := hs
  · exact h
  · intro htimedOut player hplayer
    exact (h htimedOut player hplayer).step hinv (hno player hplayer) hstep

theorem Sweeping.shift {k : CallId} (h : Sweeping s conn k) (hinv : Service.Inv s) (hkept : Kept s) (hcalm : Calm s)
    (hno : ∀ player, conn.auth.player = some player → s.NoJoiner player.playerId) (hs : Shift config s s' request)
    (hrequest : request ≠ some (.cancel k)) : Sweeping s' conn k := by
  obtain rfl | ⟨label, hlabel, hstep⟩ := hs
  · exact h
  · obtain ⟨c, player, hc, hplayer, hop, hat⟩ := h
    obtain ⟨c', hc', hop', -⟩ := hinv.step_call hstep hc
    refine ⟨c', player, hc', hplayer, hop'.trans hop, ?_⟩
    refine hat.step hinv hkept hcalm.first (hno player hplayer) hc hop hstep (fun hcancel => ?_) hc'
    exact hrequest (hcancel ▸ hlabel)

/-- **A step of somebody else** does not set the cleanup back. -/
theorem Inv.progress_shift (h : Inv w) (hunique : Unique w) (hkept : Kept w.rooms) (hcalm : Calm w.rooms)
    (hconn : w.conns[id]? = some conn) (hprogress : conn.Progress w.rooms) (hs : Shift config w.rooms s' request)
    (hrequest : ∀ k, conn.phase.call = some k → request ≠ some (.cancel k)) : conn.Progress s' := by
  have hidle : ∀ {phase : Phase}, conn.phase = phase → phase ≠ .ended → phase.call = none → ∀ player,
      conn.auth.player = some player → w.rooms.NoJoiner player.playerId := by
    intro phase hphase hlive hcall player hplayer
    refine h.noJoiner hunique hconn (hphase ▸ hlive) hplayer fun k c hk => ?_
    rw [hphase, hcall] at hk
    cases hk
  have hbusy : ∀ {phase : Phase} {k}, conn.phase = phase → phase ≠ .ended → phase.call = some k → Sweeping w.rooms conn k →
      Sweeping s' conn k := by
    intro phase k hphase hlive hcall hsweeping
    refine hsweeping.shift h.rooms hkept hcalm (fun player hplayer => ?_) hs (hrequest k (by rw [hphase, hcall]))
    refine h.noJoiner hunique hconn (hphase ▸ hlive) hplayer fun k' c hk' hc => ?_
    rw [hphase, hcall] at hk'
    obtain rfl := Option.some.inj hk'
    obtain ⟨c', _, hc', -, hop, -⟩ := hsweeping
    obtain rfl := Option.some.inj (hc.symm.trans hc')
    rw [hop]
    rfl
  unfold Conn.Progress at hprogress ⊢
  cases hphase : conn.phase with
  | reading | dispatching | leaving | spawned | ended =>
      rw [hphase] at hprogress
      exact hprogress
  | cleaning k =>
      rw [hphase] at hprogress
      exact ⟨hprogress.1, hbusy hphase (by simp) rfl hprogress.2⟩
  | sweeping k =>
      rw [hphase] at hprogress
      exact hbusy hphase (by simp) rfl hprogress
  | tidy | draining | swept =>
      rw [hphase] at hprogress
      exact Swept.shift hprogress h.rooms (hidle hphase (by simp) rfl) hs
  | dropping =>
      rw [hphase] at hprogress
      exact fun hcleaned => (hprogress hcleaned).shift h.rooms (hidle hphase (by simp) rfl) hs

theorem Sweeping.over {k : CallId} {c : Service.Call} (h : Sweeping s conn k) (hinv : Service.Inv s)
    (hc : s.calls[k]? = some c) (hover : c.pc.over = true) : Swept s conn := by
  intro _ player hplayer
  obtain ⟨c', player', hc', hplayer', hop, hat⟩ := h
  obtain rfl := Option.some.inj (hc.symm.trans hc')
  obtain rfl := Option.some.inj (hplayer.symm.trans hplayer')
  exact hat.over hinv hc hop hover

theorem Sweeping.start {player : AuthedPlayer} (hplayer : conn.auth.player = some player) :
    Sweeping (w.perform config id (.start (.leaveAll player.playerId "connection closed"))).rooms conn
      w.rooms.calls.length := by
  refine ⟨⟨_, .liveHandles, []⟩, player, ?_, hplayer, rfl, trivial⟩
  show (w.rooms.calls ++ [_])[w.rooms.calls.length]? = _
  simp [Service.Op.start]

/-- **A step of the connection itself** brings its cleanup on. -/
theorem Inv.progress_stepped (h : Inv w) (hprogress : conn.Progress w.rooms) (hstep : Stepped w.rooms conn label deed conn') :
    conn'.Progress (w.perform config id deed).rooms := by
  unfold Conn.Progress at hprogress
  cases hstep with
  | bind player token hphase =>
      rw [hphase] at hprogress
      unfold Conn.Progress
      rw [hphase]
      exact hprogress
  | answer hphase =>
      rw [hphase] at hprogress
      unfold Conn.Progress
      rw [hphase]
      exact hprogress
  | dispatch op player hphase | resume k c hphase | leave hphase | leaveCall k hphase =>
      rw [hphase] at hprogress
      exact hprogress
  | clean player hphase hplayer =>
      rw [hphase] at hprogress
      exact ⟨hprogress, Sweeping.start hplayer⟩
  | sweep player hphase hplayer => exact Sweeping.start hplayer
  | cleanNobody hphase hplayer | sweepNobody hphase hplayer =>
      intro _ player hplayer'
      change conn.auth.player = some player at hplayer'
      rw [hplayer] at hplayer'
      cases hplayer'
  | cleaned k c hphase hc hover =>
      rw [hphase] at hprogress
      exact hprogress.2.over h.rooms hc hover
  | swept k c hphase hc hover =>
      rw [hphase] at hprogress
      exact Sweeping.over hprogress h.rooms hc hover
  | cleanTimeout | sweepTimeout =>
      intro htimedOut
      cases htimedOut
  | beginDrain hphase =>
      rw [hphase] at hprogress
      exact hprogress
  | drained hphase =>
      rw [hphase] at hprogress
      exact fun _ => hprogress
  | abort hphase =>
      intro hcleaned
      change conn.cleaned = true at hcleaned
      obtain hphase | hphase | hphase | hphase := hphase <;> rw [hphase] at hprogress
      · rw [hcleaned] at hprogress
        cases hprogress
      · rw [hcleaned] at hprogress
        cases hprogress
      · exact hprogress
      · exact hprogress
  | abortCall k hphase =>
      intro hcleaned
      change conn.cleaned = true at hcleaned
      obtain hphase | hphase := hphase <;> rw [hphase, hcleaned] at hprogress
      · cases hprogress
      · cases hprogress.1
  | spawn | dropped | removed => trivial

/-! ## Whole runs -/

/-- What holds in every state that a run passes. -/
structure Sound (w : World) : Prop where
  inv : Inv w
  unique : Unique w
  kept : Calm w.rooms → Kept w.rooms
  progress : Calm w.rooms → ∀ (id : ConnId) (conn : Conn), w.conns[id]? = some conn → conn.Progress w.rooms

theorem Taken.shift {label : Label} (h : Taken config w label w') : ∃ request, Shift config w.rooms w'.rooms request := by
  cases h with
  | accept => exact ⟨none, Or.inl rfl⟩
  | conn id label conn conn' deed => exact ⟨_, perform_shift config w id deed⟩
  | service label s' hlabel hstep => exact ⟨_, Or.inr ⟨label, rfl, hstep⟩⟩
  | closeAll reason s' hstep => exact ⟨_, Or.inr ⟨_, rfl, hstep⟩⟩

theorem Sound.step (h : Sound w) {label : Label} (hone : OneConnection w label)
    (hstep : w.step uuids config label = some w') : Sound w' := by
  obtain ⟨request, hshift⟩ := (step_taken hstep).shift
  have hback : Calm w'.rooms → Calm w.rooms := Calm.back (hshift.grows h.inv.rooms)
  refine ⟨h.inv.step hstep, h.unique.step hone hstep, fun hcalm => ?_, fun hcalm => ?_⟩
  · obtain hsame | ⟨l, -, hl⟩ := hshift
    · exact hsame ▸ h.kept (hback hcalm)
    · exact (h.kept (hback hcalm)).step h.inv.rooms hl hcalm.running
  · have hkept := h.kept (hback hcalm)
    have hold := h.progress (hback hcalm)
    have hother : ∀ {id : ConnId} {conn : Conn} {s' request}, w.conns[id]? = some conn → Shift config w.rooms s' request →
        (∀ k, conn.phase.call = some k → request ≠ some (.cancel k)) → conn.Progress s' :=
      fun hconn hs hrequest =>
        h.inv.progress_shift h.unique hkept (hback hcalm) hconn (hold _ _ hconn) hs hrequest
    cases step_taken hstep with
    | accept roomTx =>
        intro id conn hconn
        obtain hconn | ⟨-, rfl⟩ := Indexed.append_cases hconn
        · exact hold id conn hconn
        · rfl
    | conn id label conn conn' deed hconn hstepped =>
        intro j b hb
        obtain ⟨-, rfl⟩ | ⟨hne, hb⟩ := Indexed.set_cases hb
        · exact h.inv.progress_stepped (hold id conn hconn) hstepped
        · refine hother hb (perform_shift config w id deed) fun k hk hdrop => hne ?_
          have hmem := (h.inv.owns id conn hconn).awaited k (hstepped.drops hdrop)
          exact h.inv.disjoint j id b conn k hb hconn ((h.inv.owns j b hb).awaited k hk) hmem
    | service label s' hlabel hrooms =>
        intro id conn hconn
        refine hother hconn (Or.inr ⟨label, rfl, hrooms⟩) fun k _ hcancel => ?_
        obtain rfl := Option.some.inj hcancel
        cases hlabel
    | closeAll reason s' hrooms =>
        intro id conn hconn
        exact hother hconn (Or.inr ⟨_, rfl, hrooms⟩) fun k _ hcancel => by cases hcancel

theorem init_sound (uuids : Uuids) (config : Service.RoomServiceConfig) : Sound (system uuids config).init where
  inv := init_inv uuids config
  unique _ _ _ _ _ _ h := by cases h
  kept _ _ _ h := by cases h
  progress _ _ _ h := by cases h

/-- **Every run** in which no player is bound twice is sound. -/
theorem run_sound {labels : List Label} (hone : (system uuids config).Along OneConnection (system uuids config).init labels)
    (hrun : (system uuids config).run (system uuids config).init labels = some w) : Sound w :=
  TransitionSystem.run_induction OneConnection (fun _ _ _ h => h.step) (init_sound uuids config) hone hrun

/-! ## The end -/

def Label.binds : Label → Option PlayerId
  | .conn _ (.bind player _) => some player.playerId
  | _ => none

/-- Every connection that was bound to this player has ended. -/
def Idle (conns : List Conn) (p : PlayerId) : Prop :=
  ∀ (j : ConnId) (b : Conn) q, conns[j]? = some b → b.auth.player = some q → q.playerId = p → b.phase = .ended

/-- The step that ends a connection removes it from the registry, after its player was taken out of all rooms. -/
theorem Sound.departs (h : Sound w) (hcalm : Calm w.rooms) {label : Label} (hstep : w.step uuids config label = some w')
    (hconn : w.conns[id]? = some conn) (hlive : conn.phase ≠ .ended) (hconn' : w'.conns[id]? = some conn')
    (hended : conn'.phase = .ended) {player : AuthedPlayer} (hplayer : conn'.auth.player = some player)
    (htimedOut : conn'.timedOut = false) : w'.rooms.CleanBut player.playerId [] ∧ Idle w'.conns player.playerId := by
  have hsame : w.conns[id]? ≠ some conn' := by
    intro hsame
    obtain rfl := Option.some.inj (hconn.symm.trans hsame)
    exact hlive hended
  cases step_taken hstep with
  | accept roomTx =>
      obtain hold | ⟨rfl, rfl⟩ := Indexed.append_cases hconn'
      · exact absurd hold hsame
      · cases hended
  | service | closeAll => exact absurd hconn' hsame
  | conn j label a a' deed ha hstepped =>
      obtain ⟨rfl, rfl⟩ | ⟨-, hold⟩ := Indexed.set_cases hconn'
      · obtain rfl := Option.some.inj (hconn.symm.trans ha)
        obtain rfl := hstepped.ended.mp hended
        have hprogress := h.progress hcalm _ conn hconn
        unfold Conn.Progress at hprogress
        have hidle : Idle (w.conns.set id conn') player.playerId := by
          intro i b q hb hq heq
          obtain ⟨-, rfl⟩ | ⟨hne, hb'⟩ := Indexed.set_cases hb
          · exact hended
          · by_contra hb_live
            have hsamePlayer : conn.auth.player = some player := by
              cases hstepped with
              | dropped | removed => exact hplayer
            exact hne (h.unique _ _ b conn q player hb' hconn hb_live hlive hq hsamePlayer heq)
        cases hstepped with
        | dropped hphase hclean =>
            rw [hphase] at hprogress
            obtain hcleaned | hnobody := hclean
            · exact ⟨hprogress hcleaned htimedOut player hplayer, hidle⟩
            · cases hnobody.symm.trans hplayer
        | removed hphase =>
            rw [hphase] at hprogress
            exact ⟨hprogress htimedOut player hplayer, hidle⟩
      · exact absurd hold hsame

theorem Inv.noJoiner_of_idle (h : Inv w) {p : PlayerId} (hidle : Idle w.conns p) : w.rooms.NoJoiner p := by
  intro k c room nickname sink hc hop
  obtain hover | ⟨j, b, q, hb, hawaited, hq, hsame⟩ := h.joiner hc hop
  · exact hover
  · rw [hidle j b q hb hq hsame.symm] at hawaited
    cases hawaited

theorem Idle.step {p : PlayerId} (h : Idle w.conns p) {label : Label} (hbinds : label.binds ≠ some p)
    (hstep : w.step uuids config label = some w') : Idle w'.conns p := by
  cases step_taken hstep with
  | accept roomTx =>
      intro j b q hb hq heq
      obtain hb | ⟨-, rfl⟩ := Indexed.append_cases hb
      · exact h j b q hb hq heq
      · cases hq
  | service | closeAll => exact h
  | conn id label conn conn' deed hconn hstepped =>
      intro j b q hb hq heq
      obtain ⟨-, rfl⟩ | ⟨-, hb⟩ := Indexed.set_cases hb
      · obtain hsame | ⟨player, token, rfl, hplayer⟩ := hstepped.player
        · exact absurd (h id conn q hconn (hsame.symm.trans hq) heq) hstepped.live
        · obtain rfl := Option.some.inj (hplayer.symm.trans hq)
          exact absurd (congrArg some heq) hbinds
      · exact h j b q hb hq heq

theorem ended_stays {label : Label} (hconn : w.conns[id]? = some conn) (hended : conn.phase = .ended)
    (hstep : w.step uuids config label = some w') : w'.conns[id]? = some conn := by
  cases step_taken hstep with
  | accept roomTx =>
      exact Indexed.append_old hconn
  | service | closeAll => exact hconn
  | conn j label a a' deed ha hstepped =>
      show (w.conns.set j a')[id]? = _
      by_cases hj : j = id
      · subst hj
        obtain rfl := Option.some.inj (hconn.symm.trans ha)
        exact absurd hended hstepped.live
      · exact (Indexed.set_of_ne (Ne.symm hj)).trans hconn

/-- The calls of a connection that has ended are silent from the moment its player was out of all rooms. -/
theorem Inv.silent (h : Inv w) (hconn : w.conns[id]? = some conn) (hended : conn.phase = .ended) {player : AuthedPlayer}
    (hplayer : conn.auth.player = some player) (hclean : w.rooms.CleanBut player.playerId []) :
    Silent w.rooms conn.calls w.rooms := by
  refine ⟨fun k hk => ?_, fun r t ht => ?_, fun r t ht => ?_, fun r hr => ?_⟩
  · obtain ⟨c, -, hc, -, -, hover | hawaited⟩ := (h.owns id conn hconn).calls k hk
    · exact ⟨c, hc, hover⟩
    · rw [hended] at hawaited
      cases hawaited
  · refine (hclean r t ht List.not_mem_nil).imp_right fun hout command hmem k hk hjoin => ?_
    obtain ⟨c, q, hc, hq, hop, -⟩ := (h.owns id conn hconn).calls k hk
    obtain rfl := Option.some.inj (hplayer.symm.trans hq)
    have hjoins := hout.2 command hmem
    cases command with
    | chat | leave | close => cases hjoin
    | join p nickname sink reply =>
        obtain rfl := Option.some.inj hjoin
        have haccepted : RoomCommand.join p nickname sink reply ∈ t.accepted := List.mem_append_right _ hmem
        obtain ⟨c', hc', -, hsends⟩ := h.rooms.asked r t ht _ haccepted reply rfl
        obtain rfl := Option.some.inj (hc.symm.trans hc')
        cases hc'' : c.op with
        | joinOrCreate =>
            rw [hc''] at hsends hop
            obtain ⟨rfl, -⟩ := RoomCommand.join.inj hsends
            obtain rfl := Option.some.inj hop
            simp [Service.isJoinOf] at hjoins
        | leave | leaveAll => rw [hc''] at hsends; cases hsends
        | chat | closeAll => rw [hc''] at hsends; exact hsends.elim
  · refine ⟨[], ?_, fun _ hmem => absurd hmem List.not_mem_nil⟩
    unfold Service.State.handledAt
    rw [ht, List.append_nil]
  · unfold Service.State.handledAt
    rw [hr]

/-- **Cleanup is complete on every exit path.** Take any run in which no player is bound to two connections at a
time, up to a step with which a bound connection ends without its cleanup having run into the timeout. Suppose
that up to then nobody got into a room before its creator and `close_all` was not called. Then, in every later state:

1. until the player is bound again, it is a member of no open room;
2. no actor has handled a `Join` of one of the connection's calls since;
3. the connection was in the registry until that step, is not in it any more, and was removed from it exactly once. -/
theorem cleanup_complete (uuids : Uuids) (config : Service.RoomServiceConfig) {before later : List Label} {label : Label}
    {w w' w'' : World} {id : ConnId} {conn conn' : Conn} {player : AuthedPlayer}
    (hone : (system uuids config).Along OneConnection (system uuids config).init before)
    (hbefore : (system uuids config).run (system uuids config).init before = some w)
    (hstep : (system uuids config).step w label = some w') (hlater : (system uuids config).run w' later = some w'')
    (hcalm : Calm w'.rooms) (hconn : w.conns[id]? = some conn) (hlive : conn.phase ≠ .ended)
    (hconn' : w'.conns[id]? = some conn') (hended : conn'.phase = .ended) (hplayer : conn'.auth.player = some player)
    (htimedOut : conn'.timedOut = false) :
    ((∀ l ∈ later, l.binds ≠ some player.playerId) → ∀ r t, w''.rooms.rooms r = some t → t.actor.closed = false →
      player.playerId ∉ t.actor.room.members) ∧
    (∀ r t, w''.rooms.rooms r = some t → ∃ new, t.handled = w'.rooms.handledAt r ++ new ∧
      ∀ h ∈ new, ∀ k ∈ conn'.calls, Service.joinOf h.command ≠ some k) ∧
    id ∈ w.connections ∧ id ∉ w''.connections ∧ w''.removed.count id = 1 := by
  have hsound := run_sound hone hbefore
  have hinv' := hsound.inv.step hstep
  obtain ⟨request, hshift⟩ := (step_taken hstep).shift
  obtain ⟨hclean, hidle⟩ := hsound.departs (hcalm.back (hshift.grows hsound.inv.rooms)) hstep hconn hlive hconn' hended
    hplayer htimedOut
  have hrest : Inv w'' ∧ w''.conns[id]? = some conn' ∧ Silent w'.rooms conn'.calls w''.rooms := by
    refine TransitionSystem.run_invariant
      (I := fun v => Inv v ∧ v.conns[id]? = some conn' ∧ Silent w'.rooms conn'.calls v.rooms)
      (fun v l v' h hstep => ?_) ⟨hinv', hconn', hinv'.silent hconn' hended hplayer hclean⟩ hlater
    obtain ⟨hinv, hthere, hsilent⟩ := h
    obtain ⟨request, hshift⟩ := (step_taken hstep).shift
    refine ⟨hinv.step hstep, ended_stays hthere hended hstep, ?_⟩
    obtain hsame | ⟨l', -, hrooms⟩ := hshift
    · exact hsame ▸ hsilent
    · exact hsilent.step hinv.rooms hrooms
  obtain ⟨hinv'', hthere, hsilent⟩ := hrest
  refine ⟨fun hbinds r t ht hopen => ?_, hsilent.handled, (hsound.inv.listed id).mpr ⟨conn, hconn, hlive⟩, ?_, ?_⟩
  · have hout : Inv w'' ∧ Idle w''.conns player.playerId ∧ w''.rooms.CleanBut player.playerId [] := by
      refine TransitionSystem.run_induction (fun _ (l : Label) => l.binds ≠ some player.playerId)
        (I := fun v => Inv v ∧ Idle v.conns player.playerId ∧ v.rooms.CleanBut player.playerId [])
        (fun v l v' h hl hstep => ?_) ⟨hinv', hidle, hclean⟩
        (TransitionSystem.along_of_forall (fun l hl _ => hbinds l hl) w') hlater
      obtain ⟨hinv, hidle, hclean⟩ := h
      obtain ⟨request, hshift⟩ := (step_taken hstep).shift
      refine ⟨hinv.step hstep, hidle.step hl hstep, ?_⟩
      obtain hsame | ⟨l', -, hrooms⟩ := hshift
      · exact hsame ▸ hclean
      · exact hclean.step hinv.rooms (hinv.noJoiner_of_idle hidle) hrooms
    obtain hclosed | ⟨hmember, -⟩ := hout.2.2 r t ht List.not_mem_nil
    · rw [hopen] at hclosed
      cases hclosed
    · exact hmember
  · rw [hinv''.listed]
    rintro ⟨a, ha, hphase⟩
    obtain rfl := Option.some.inj (hthere.symm.trans ha)
    exact hphase hended
  · rw [hinv''.removed id conn' hthere, if_pos hended]

theorem step_unopened {label : Label} (hstep : w.step uuids config label = some w') {r : RoomId}
    (hlabel : ∀ k, label ≠ .service (.openRoom k r)) (hr : w.rooms.rooms r = none) : w'.rooms.rooms r = none := by
  cases step_taken hstep with
  | accept => exact hr
  | conn id label conn conn' deed =>
      obtain hsame | ⟨l, hl, hrooms⟩ := perform_shift config w id deed
      · exact (congrArg (fun s => s.rooms r) hsame).trans hr
      · refine Service.step_unopened hrooms (fun k hk => ?_) hr
        subst hk
        cases deed <;> cases hl
  | service l s' _ hrooms => exact Service.step_unopened hrooms (fun k hk => hlabel k (hk ▸ rfl)) hr
  | closeAll reason s' hrooms => exact Service.step_unopened hrooms (fun k hk => by cases hk) hr

end

/-- The handler is aborted while its `JOIN_ROOM` creates a room: the `Join` is queued and not yet handled. The guard's
task queues its `Leave` behind it. -/
def abortLabels : List Label :=
  [.accept 0, .conn 0 (.bind ⟨⟨1⟩, "a"⟩ "t"), .conn 0 (.dispatch (.joinRoom ⟨none⟩)), .service (.openRoom 0 ⟨7⟩),
    .service (.next 0), .service (.next 0), .service (.next 0), .conn 0 .abort, .conn 0 .dropGuard, .conn 0 .cleanupRoom,
    .service (.liveHandles 1 [⟨7⟩]), .service (.next 1), .service (.next 1), .service (.process ⟨7⟩),
    .service (.perform ⟨7⟩), .service (.perform ⟨7⟩), .service (.process ⟨7⟩), .service (.perform ⟨7⟩),
    .service (.perform ⟨7⟩), .service (.perform ⟨7⟩), .service (.next 1), .service (.next 1), .service (.next 1),
    .conn 0 .cleanupReturns]

theorem cleanup_complete_aborted_join : ∃ w w' : World,
    (system noUuids ⟨16, 4⟩).run (system noUuids ⟨16, 4⟩).init abortLabels = some w ∧
    (system noUuids ⟨16, 4⟩).step w (.conn 0 .remove) = some w' ∧
    (∀ r t, w'.rooms.rooms r = some t → t.actor.closed = false → ⟨1⟩ ∉ t.actor.room.members) ∧
    0 ∉ w'.connections ∧ w'.removed.count 0 = 1 := by
  have hone : (system noUuids ⟨16, 4⟩).Along OneConnection (system noUuids ⟨16, 4⟩).init abortLabels := by
    refine ⟨trivial, fun w hw => ⟨?_, fun w' _ => TransitionSystem.along_of_forall ?_ w'⟩⟩
    · obtain rfl := Option.some.inj hw
      intro conn hmem _ p hp
      obtain rfl := List.mem_singleton.mp hmem
      cases hp
    · simp [OneConnection]
  have hunopened : ∀ w r, r ≠ ⟨7⟩ → (system noUuids ⟨16, 4⟩).run (system noUuids ⟨16, 4⟩).init abortLabels = some w →
      w.rooms.rooms r = none := by
    intro w r hr hrun
    refine TransitionSystem.run_induction (fun _ l => ∀ k, l ≠ .service (.openRoom k r))
      (I := fun w => w.rooms.rooms r = none) (fun _ _ _ h hl hstep => step_unopened hstep hl h) ?_
      (TransitionSystem.along_of_forall ?_ _) hrun
    · rfl
    · have hr' : ¬ (⟨7#128⟩ : RoomId) = r := fun h => hr h.symm
      simp [abortLabels, hr']
  refine ⟨_, _, rfl, rfl, ?_⟩
  have h := @cleanup_complete noUuids ⟨16, 4⟩ abortLabels [] (.conn 0 .remove) _ _ _ 0 _ _ ⟨⟨1⟩, "a"⟩ hone rfl rfl rfl ?_
    rfl ?_ rfl ?_ ?_ ?_
  · exact ⟨h.1 (by simp), h.2.2.2⟩
  · refine ⟨fun r t ht => ?_, by decide⟩
    by_cases hr : r = ⟨7⟩
    · subst hr
      obtain rfl := Option.some.inj ht
      rintro ⟨k, hk, hne⟩
      exact hne (Option.some.inj hk).symm
    · cases (hunopened _ r hr rfl).symm.trans ht
  · decide
  · rfl
  · rfl
  · rfl

end LongshipX.Gateway
