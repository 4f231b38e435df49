import LongshipX.Room.Serial

/-!
# `leave_all` is complete

While nobody sends a `Join` for a player, a `leave_all` of that player that returns has taken it out of every
open room, also out of those for which a `Join` was still queued when it started: its `Leave` went into the
same queue behind that `Join`.

* `RoomTask.Clean` : the player is not in the room and no queued `Join` will put it there;
* `RoomTask.Pending` : it will be out once the `Leave` in the queue is handled;
* `CleanupAt` : what a `leave_all` has achieved at each of its positions;
* `CleanupAt.step` : no step undoes it.
-/

namespace LongshipX.Service
open RoomActor

/-- A `Join` of this player. -/
def isJoinOf (p : PlayerId) : RoomCommand CallId → Bool
  | .join q _ _ _ => decide (q = p)
  | _ => false

/-- The room is closed, or the player is out of it and no queued `Join` will let it in. -/
def RoomTask.Clean (t : RoomTask) (p : PlayerId) : Prop :=
  t.actor.closed = true ∨ (p ∉ t.actor.room.members ∧ ∀ command ∈ t.queue, isJoinOf p command = false)

/-- The `Leave` of call `k` is queued, with no `Join` of the player behind it. -/
def RoomTask.Pending (t : RoomTask) (p : PlayerId) (k : CallId) : Prop :=
  ∃ x reason y, t.queue = x ++ .leave p reason k :: y ∧ ∀ command ∈ y, isJoinOf p command = false

/-- Nobody is about to send a `Join` for this player. -/
def State.NoJoiner (s : State) (p : PlayerId) : Prop :=
  ∀ (k : CallId) (c : Call) room nickname sink, s.calls[k]? = some c → c.op = .joinOrCreate room p nickname sink →
    c.pc.over = true

/-- Every room outside `todo` is clean. -/
def State.CleanBut (s : State) (p : PlayerId) (todo : List RoomId) : Prop :=
  ∀ r t, s.rooms r = some t → r ∉ todo → t.Clean p

/-- What a `leave_all` has achieved. -/
def CleanupAt (s : State) (p : PlayerId) (k : CallId) : Pc → Prop
  | .leaveLookup r todo => s.CleanBut p (r :: todo)
  | .leaveSend r todo => s.CleanBut p (r :: todo)
  | .leaveWait r none todo => s.CleanBut p (r :: todo) ∧ ∀ t, s.rooms r = some t → t.Clean p ∨ t.Pending p k
  | .leaveWait _ (some _) todo => s.CleanBut p todo
  | .leaveForget _ _ todo => s.CleanBut p todo
  | .leavePublish _ todo => s.CleanBut p todo
  | .returned none => s.CleanBut p []
  | .returned (some _) => False
  | .cancelled => False
  | _ => True

/-! ## One room -/

theorem Handled.stays_out {ρ : Type} {a a' : RoomActor} {command : RoomCommand ρ} {effects : List (Effect ρ)} {stop : Bool}
    (hh : Handled a command a' effects stop) {p : PlayerId} (hp : p ∉ a.room.members)
    (hjoin : ∀ nickname sink reply, command ≠ .join p nickname sink reply) : p ∉ a'.room.members := by
  have hfilter : ∀ q, p ∉ a.room.members.filter (fun member => decide (member ≠ q)) :=
    fun q hmem => hp (List.mem_of_mem_filter hmem)
  cases hh with
  | joinNew q nickname sink reply =>
      intro hmem
      obtain hmem | hmem := List.mem_append.mp hmem
      · exact hp hmem
      · obtain rfl := List.mem_singleton.mp hmem
        exact hjoin nickname sink reply rfl
  | leaveOthers q => exact hfilter q
  | leaveLast q => exact hfilter q
  | joinAgain | joinFull | chatIgnored | chatSent | leaveOutsider | close => exact hp

section
variable {config : RoomServiceConfig} {s s' : State} {r : RoomId} {t t' : RoomTask} {p : PlayerId} {k : CallId}

theorem ne_join_of_isJoinOf {command : RoomCommand CallId} (h : isJoinOf p command = false) (nickname : String)
    (sink : SinkId) (reply : CallId) : command ≠ .join p nickname sink reply := by
  rintro rfl
  simp [isJoinOf] at h

theorem notJoin_of_sends (hno : s.NoJoiner p) {j : CallId} {c : Call} {command : RoomCommand CallId}
    (hc : s.calls[j]? = some c) (hover : c.pc.over = false)
    (hsends : ∀ i, replyOf command = some i → c.op.Sends j command) : isJoinOf p command = false := by
  cases command with
  | chat | leave | close => rfl
  | join q nickname sink reply =>
      have hop := hsends reply rfl
      by_cases hq : q = p
      · subst hq
        cases hc' : c.op with
        | joinOrCreate room player nickname' sink' =>
            rw [hc'] at hop
            obtain ⟨rfl, rfl, rfl, -⟩ := RoomCommand.join.inj hop
            rw [hno j c room nickname sink hc hc'] at hover
            cases hover
        | leave | leaveAll => rw [hc'] at hop; cases hop
        | chat | closeAll => rw [hc'] at hop; exact hop.elim
      · exact decide_eq_false hq

theorem RoomTask.Clean.step (hclean : t.Clean p) (hinv : RoomInv r t) (hno : s.NoJoiner p) (hstep : RoomStep s r t t') :
    t'.Clean p := by
  cases hstep with
  | same | inserted | pop => exact hclean
  | push j c command hc hover hsends =>
      refine hclean.imp id fun ⟨hp, hqueue⟩ => ⟨hp, fun command' hmem => ?_⟩
      obtain hmem | hmem := List.mem_append.mp hmem
      · exact hqueue command' hmem
      · rw [List.mem_singleton.mp hmem]
        exact notJoin_of_sends hno hc hover hsends
  | process command rest hidle hqueue =>
      obtain ⟨-, hstopping, -⟩ := RoomTask.idle_iff.mp hidle
      obtain ⟨a, effects, stop, hh, heq⟩ := hinv.process_eq hidle command rest
      obtain hclosed | ⟨hp, hall⟩ := hclean
      · rw [← hinv.stopping, hstopping] at hclosed
        cases hclosed
      · rw [hqueue] at hall
        rw [heq]
        refine Or.inr ⟨Handled.stays_out hh hp (ne_join_of_isJoinOf (hall command List.mem_cons_self)), ?_⟩
        exact fun command' hmem => hall command' (List.mem_cons_of_mem _ hmem)
  | hungUp => exact Or.inl rfl
  | terminated hstopping => exact Or.inl (hinv.stopping ▸ hstopping)

theorem RoomTask.Pending.step (hpending : t.Pending p k) (hinv : RoomInv r t) (hno : s.NoJoiner p)
    (hstep : RoomStep s r t t') : t'.Clean p ∨ t'.Pending p k := by
  obtain ⟨x, reason, y, hqueue, hy⟩ := hpending
  cases hstep with
  | same | inserted | pop => exact Or.inr ⟨x, reason, y, hqueue, hy⟩
  | push j c command hc hover hsends =>
      refine Or.inr ⟨x, reason, y ++ [command], ?_, fun command' hmem => ?_⟩
      · show t.queue ++ [command] = _
        rw [hqueue, List.append_assoc, List.cons_append]
      · obtain hmem | hmem := List.mem_append.mp hmem
        · exact hy command' hmem
        · rw [List.mem_singleton.mp hmem]
          exact notJoin_of_sends hno hc hover hsends
  | process command rest hidle hqueue' =>
      obtain ⟨a, effects, stop, hh, heq⟩ := hinv.process_eq hidle command rest
      rw [heq]
      rw [hqueue] at hqueue'
      cases x with
      | nil =>
          obtain ⟨rfl, rfl⟩ := List.cons.inj hqueue'
          exact Or.inl (Or.inr ⟨leave_takes_out hh, hy⟩)
      | cons z x =>
          obtain ⟨rfl, rfl⟩ := List.cons.inj hqueue'
          exact Or.inr ⟨x, reason, y, rfl, hy⟩
  | hungUp => exact Or.inl (Or.inl rfl)
  | terminated hstopping => exact Or.inl (Or.inl (hinv.stopping ▸ hstopping))

theorem RoomInv.not_pending (hinv : RoomInv r t) (hleft : t.LeftBy k) : ¬ t.Pending p k := by
  rintro ⟨x, reason, y, hqueue, -⟩
  obtain ⟨h, hmem, q, reason', hcommand⟩ := hleft
  have hnodup := hinv.asked
  rw [RoomTask.accepted, List.filterMap_append] at hnodup
  refine (List.nodup_append.mp hnodup).2.2 k ?_ k ?_ rfl
  · exact List.mem_filterMap.mpr ⟨_, List.mem_map_of_mem hmem, by rw [hcommand]; rfl⟩
  · exact List.mem_filterMap.mpr ⟨.leave p reason k, by rw [hqueue]; simp, rfl⟩

/-! ## All rooms -/

theorem clean_spawn (config : RoomServiceConfig) (r : RoomId) (k : CallId) (p : PlayerId) :
    (RoomTask.spawn config r k).Clean p :=
  Or.inr ⟨List.not_mem_nil, fun _ hmem => absurd hmem List.not_mem_nil⟩

theorem State.CleanBut.step {todo : List RoomId} (hclean : s.CleanBut p todo) (h : Inv s) (hno : s.NoJoiner p)
    {label : Label} (hstep : s.step config label = some s') : s'.CleanBut p todo := by
  intro r t' ht' hr
  obtain ⟨-, k, rfl⟩ | ⟨t, ht, hroom⟩ := h.step_room hstep ht'
  · exact clean_spawn config r k p
  · exact (hclean r t ht hr).step (h.rooms r t ht) hno hroom

/-- A room that is open and not registered is clean: nobody could ever send it anything. -/
theorem Inv.clean_of_unregistered (h : Inv s) (hkept : Kept s) (hfirst : ∀ r t, s.rooms r = some t → ¬ t.Intruded)
    (ht : s.rooms r = some t) (hr : r ∉ s.registry) : t.Clean p := by
  cases hclosed : t.actor.closed with
  | true => exact Or.inl hclosed
  | false =>
      cases hinserted : t.inserted with
      | true =>
          obtain hr' | hintruded := hkept r t ht hinserted hclosed
          · exact absurd hr' hr
          · exact absurd hintruded (hfirst r t ht)
      | false =>
          have hinv := h.rooms r t ht
          obtain ⟨hqueue, hhandled⟩ := hinv.hidden hinserted
          have hhad : ¬ t.actor.hadMembers = true := by
            rw [hinv.joined, hhandled]
            simp
          rw [hinv.actor.had hclosed, not_not] at hhad
          refine Or.inr ⟨by rw [hhad]; exact List.not_mem_nil, fun _ hmem => ?_⟩
          rw [hqueue] at hmem
          cases hmem

theorem cleanupAt_leaveNext {todo : List RoomId} (h : s.CleanBut p todo) : CleanupAt s p k (leaveNext todo) := by
  cases todo with
  | nil => exact h
  | cons r todo => exact h

theorem CleanupAt.mono {pc : Pc} (hat : CleanupAt s p k pc) (h : Inv s) (hno : s.NoJoiner p) {label : Label}
    (hstep : s.step config label = some s') : CleanupAt s' p k pc := by
  have hbut : ∀ {todo}, s.CleanBut p todo → s'.CleanBut p todo := fun hclean => hclean.step h hno hstep
  cases pc with
  | leaveLookup | leaveSend | leaveForget | leavePublish => exact hbut hat
  | leaveWait r reply todo =>
      cases reply with
      | some reply => exact hbut hat
      | none =>
          refine ⟨hbut hat.1, fun t' ht' => ?_⟩
          obtain ⟨-, j, rfl⟩ | ⟨t, ht, hroom⟩ := h.step_room hstep ht'
          · exact Or.inl (clean_spawn config r j p)
          · obtain hclean | hpending := hat.2 t ht
            · exact Or.inl (hclean.step (h.rooms r t ht) hno hroom)
            · exact hpending.step (h.rooms r t ht) hno hroom
  | returned r =>
      cases r with
      | none => exact hbut hat
      | some r => exact hat.elim
  | cancelled => exact hat.elim
  | create | insert | joinLookup | joinSend | joinWait | joinPublish | undo | liveHandles | chatLookup | chatSend | drain
  | closeSend | failed => trivial

theorem State.CleanBut.cons {todo : List RoomId} (h : s.CleanBut p (r :: todo))
    (hr : ∀ t, s.rooms r = some t → t.Clean p) : s.CleanBut p todo := by
  intro x t ht hx
  by_cases hxr : x = r
  · subst hxr
    exact hr t ht
  · exact h x t ht fun hmem => (List.mem_cons.mp hmem).elim hxr hx

theorem clean_of_isClosed (hclosed : s.isClosed r = true) (ht : s.rooms r = some t) : t.Clean p := by
  obtain ⟨t', ht', hclosed⟩ := isClosed_iff.mp hclosed
  obtain rfl := Option.some.inj (ht.symm.trans ht')
  exact Or.inl hclosed

theorem CleanupAt.next {pc pc' : Pc} {act : Act} {reason : String} (hat : CleanupAt s p k pc) (h : Inv s) (hkept : Kept s)
    (hfirst : ∀ r t, s.rooms r = some t → ¬ t.Intruded) (hadvance : advanceLeave config s k p reason pc = some (act, pc'))
    (hbut : ∀ {todo}, s.CleanBut p todo → (s.move k act pc').CleanBut p todo) : CleanupAt (s.move k act pc') p k pc' := by
  cases pc with
  | leaveLookup r todo =>
      simp only [advanceLeave] at hadvance
      obtain ⟨hfor, hr, hopen⟩ | ⟨hfor, hr, hclosed⟩ | ⟨hfor, hr⟩ := handleFor_cases s r
      · rw [hfor] at hadvance
        obtain ⟨rfl, rfl⟩ := Prod.mk.inj (Option.some.inj hadvance)
        exact hbut hat
      · rw [hfor] at hadvance
        obtain ⟨rfl, rfl⟩ := Prod.mk.inj (Option.some.inj hadvance)
        exact cleanupAt_leaveNext (hbut (hat.cons fun t ht => clean_of_isClosed hclosed ht))
      · rw [hfor] at hadvance
        obtain ⟨rfl, rfl⟩ := Prod.mk.inj (Option.some.inj hadvance)
        exact cleanupAt_leaveNext (hbut (hat.cons fun t ht => h.clean_of_unregistered hkept hfirst ht hr))
  | leaveSend r todo =>
      simp only [advanceLeave] at hadvance
      split at hadvance
      · obtain ⟨rfl, rfl⟩ := Prod.mk.inj (Option.some.inj hadvance)
        refine ⟨hbut hat, fun t' ht' => Or.inr ?_⟩
        obtain ⟨t, ht, rfl⟩ : ∃ t, s.rooms r = some t ∧ t' = t.push (.leave p reason k) := by
          obtain ⟨t, -, ht, rfl⟩ | ⟨hne, -⟩ := State.update_cases ht'
          · exact ⟨t, ht, rfl⟩
          · exact absurd rfl hne
        exact ⟨t.queue, reason, [], rfl, fun _ hmem => absurd hmem List.not_mem_nil⟩
      · cases hadvance
      · split_ifs at hadvance with hclosed
        · obtain ⟨rfl, rfl⟩ := Prod.mk.inj (Option.some.inj hadvance)
          exact hbut (hat.cons fun t ht => clean_of_isClosed hclosed ht)
        · obtain ⟨rfl, rfl⟩ := Prod.mk.inj (Option.some.inj hadvance)
          trivial
  | leaveWait r reply todo =>
      obtain _ | (err | left) | _ := reply
      · cases hadvance
      · obtain ⟨rfl, rfl⟩ := Prod.mk.inj (Option.some.inj hadvance)
        trivial
      · simp only [advanceLeave] at hadvance
        split_ifs at hadvance
        · obtain ⟨rfl, rfl⟩ := Prod.mk.inj (Option.some.inj hadvance)
          exact hbut hat
        · obtain ⟨rfl, rfl⟩ := Prod.mk.inj (Option.some.inj hadvance)
          exact hbut hat
        · obtain ⟨rfl, rfl⟩ := Prod.mk.inj (Option.some.inj hadvance)
          exact cleanupAt_leaveNext (hbut hat)
      · simp only [advanceLeave] at hadvance
        split_ifs at hadvance
        · obtain ⟨rfl, rfl⟩ := Prod.mk.inj (Option.some.inj hadvance)
          exact hbut hat
        · obtain ⟨rfl, rfl⟩ := Prod.mk.inj (Option.some.inj hadvance)
          trivial
  | leaveForget r left todo =>
      obtain ⟨rfl, rfl⟩ := Prod.mk.inj (Option.some.inj hadvance)
      cases left with
      | true => exact hbut hat
      | false => exact cleanupAt_leaveNext (hbut hat)
  | leavePublish r todo =>
      obtain ⟨rfl, rfl⟩ := Prod.mk.inj (Option.some.inj hadvance)
      exact cleanupAt_leaveNext (hbut hat)
  | create | insert | joinLookup | joinSend | joinWait | joinPublish | undo | liveHandles | chatLookup | chatSend
  | drain | closeSend | returned | failed | cancelled => cases hadvance

/-- **One step, anybody's**: a `leave_all` that is not dropped keeps what it has achieved, and gains what its own
step gains. -/
theorem CleanupAt.step {c c' : Call} {reason : String} (hat : CleanupAt s p k c.pc) (h : Inv s) (hkept : Kept s)
    (hfirst : ∀ r t, s.rooms r = some t → ¬ t.Intruded) (hno : s.NoJoiner p) (hc : s.calls[k]? = some c)
    (hop : c.op = .leaveAll p reason) {label : Label} (hstep : s.step config label = some s') (hlabel : label ≠ .cancel k)
    (hc' : s'.calls[k]? = some c') : CleanupAt s' p k c'.pc := by
  have hbut : ∀ {todo}, s.CleanBut p todo → s'.CleanBut p todo := fun hclean => hclean.step h hno hstep
  have hmono := hat.mono h hno hstep
  obtain ⟨hk, -⟩ | ⟨c₀, hc₀, hcall⟩ := (step_taken hstep).call hc'
  · have hlt := (List.getElem?_eq_some_iff.mp hc).1
    rw [hk] at hlt
    exact absurd hlt (Nat.lt_irrefl _)
  · obtain rfl := Option.some.inj (hc.symm.trans hc₀)
    have hfact := (h.calls k c hc).1
    cases hcall with
    | same => exact hmono
    | opened r => trivial
    | cancel hcancel => exact absurd hcancel hlabel
    | next act pc hadvance hs' =>
        subst hs'
        unfold advance at hadvance
        rw [hop] at hadvance
        exact hat.next h hkept hfirst hadvance hbut
    | retain order hpc horder =>
        refine cleanupAt_leaveNext (hbut fun r t ht hr => ?_)
        by_cases hreg : r ∈ s.registry
        · have hclosed : s.isClosed r = true := by
            have hr' : r ∉ (s.apply .retain).registry := fun hmem => hr (horder.symm.subset hmem)
            simpa [State.apply, hreg] using hr'
          exact clean_of_isClosed hclosed ht
        · exact h.clean_of_unregistered hkept hfirst ht hreg
    | drain order hpc =>
        unfold Fact at hfact
        rw [hpc] at hfact
        obtain ⟨reason', hop'⟩ := hfact
        rw [hop] at hop'
        cases hop'
    | answered r c' hanswered =>
        cases hanswered with
        | same => exact hmono
        | join reply hpc => trivial
        | leave reply todo hpc =>
            rw [hpc] at hmono
            refine hmono.1.cons fun t ht => ?_
            have hinv := (h.step hstep).inv
            have hfact' := (hinv.calls k _ hc').1
            obtain hclean | hpending := hmono.2 t ht
            · exact hclean
            · obtain (err | left) | _ := reply
              · exact hfact'.elim
              · obtain ⟨-, t', ht', hleft⟩ := hfact'
                obtain rfl := Option.some.inj (ht.symm.trans ht')
                exact absurd hpending ((hinv.rooms r t ht).not_pending hleft)
              · obtain ⟨-, t', ht', hreceiver, -⟩ := hfact'
                obtain rfl := Option.some.inj (ht.symm.trans ht')
                exact Or.inl ((hinv.rooms r t ht).dropped hreceiver).1

theorem CleanupAt.over {c : Call} {reason : String} (hat : CleanupAt s p k c.pc) (h : Inv s) (hc : s.calls[k]? = some c)
    (hop : c.op = .leaveAll p reason) (hover : c.pc.over = true) : s.CleanBut p [] := by
  have hfact := (h.calls k c hc).1
  unfold Fact at hfact
  cases hpc : c.pc with
  | returned r =>
      rw [hpc] at hat
      cases r with
      | none => exact hat
      | some r => exact hat.elim
  | cancelled =>
      rw [hpc] at hat
      exact hat.elim
  | failed err =>
      rw [hpc, hop] at hfact
      cases hfact
  | create | insert | joinLookup | joinSend | joinWait | joinPublish | undo | liveHandles | leaveLookup | leaveSend
  | leaveWait | leaveForget | leavePublish | chatLookup | chatSend | drain | closeSend =>
      rw [hpc] at hover
      cases hover

/-! ## Calls that are over -/

theorem CallStep.over {label : Label} {c c' : Call} (hcall : CallStep config s s' label k c c')
    (hover : c.pc.over = true) : c'.pc.over = true := by
  cases hcall with
  | same => exact hover
  | next act pc hadvance =>
      rw [advance_not_over hadvance] at hover
      cases hover
  | cancel => rfl
  | opened r hpc | retain order hpc | drain order hpc =>
      rw [hpc] at hover
      cases hover
  | answered r c' hanswered =>
      cases hanswered with
      | same => exact hover
      | join reply hpc | leave reply todo hpc =>
          rw [hpc] at hover
          cases hover

theorem Inv.step_call (h : Inv s) {label : Label} (hstep : s.step config label = some s') {c : Call}
    (hc : s.calls[k]? = some c) :
    ∃ c', s'.calls[k]? = some c' ∧ c'.op = c.op ∧ (c.pc.over = true → c'.pc.over = true) := by
  obtain ⟨c', hc', hop, -⟩ := (h.step hstep).grows.calls k c hc
  refine ⟨c', hc', hop, fun hover => ?_⟩
  obtain ⟨hk, -⟩ | ⟨c₀, hc₀, hcall⟩ := (step_taken hstep).call hc'
  · have hlt := (List.getElem?_eq_some_iff.mp hc).1
    rw [hk] at hlt
    exact absurd hlt (Nat.lt_irrefl _)
  · obtain rfl := Option.some.inj (hc.symm.trans hc₀)
    exact hcall.over hover

/-! ## Nothing comes late -/

/-- None of these calls has a `Join` in the queue of an open room. -/
def RoomTask.Quiet (t : RoomTask) (ks : List CallId) : Prop :=
  t.actor.closed = true ∨ ∀ command ∈ t.queue, ∀ k ∈ ks, joinOf command ≠ some k

def State.handledAt (s : State) (r : RoomId) : List Handling :=
  match s.rooms r with
  | some t => t.handled
  | none => []

/-- Since the state `s₀`, no actor has handled a `Join` of one of these calls, and none will. -/
structure Silent (s₀ : State) (ks : List CallId) (s : State) : Prop where
  calls : ∀ k ∈ ks, ∃ c, s.calls[k]? = some c ∧ c.pc.over = true
  quiet : ∀ r t, s.rooms r = some t → t.Quiet ks
  handled : ∀ r t, s.rooms r = some t → ∃ new, t.handled = s₀.handledAt r ++ new ∧
    ∀ h ∈ new, ∀ k ∈ ks, joinOf h.command ≠ some k
  unopened : ∀ r, s.rooms r = none → s₀.handledAt r = []

theorem Silent.push {s₀ : State} {ks : List CallId} (h : Silent s₀ ks s) {j : CallId} {c : Call}
    {command : RoomCommand CallId} (hc : s.calls[j]? = some c) (hover : c.pc.over = false)
    (hsends : ∀ i, replyOf command = some i → c.op.Sends j command) : ∀ k ∈ ks, joinOf command ≠ some k := by
  intro k hk hjoin
  cases command with
  | chat | leave | close => cases hjoin
  | join q nickname sink reply =>
      obtain rfl := Option.some.inj hjoin
      have hop := hsends reply rfl
      cases hc' : c.op with
      | joinOrCreate =>
          rw [hc'] at hop
          obtain ⟨-, -, -, rfl⟩ := RoomCommand.join.inj hop
          obtain ⟨c₀, hc₀, hover₀⟩ := h.calls reply hk
          obtain rfl := Option.some.inj (hc.symm.trans hc₀)
          rw [hover] at hover₀
          cases hover₀
      | leave | leaveAll => rw [hc'] at hop; cases hop
      | chat | closeAll => rw [hc'] at hop; exact hop.elim

/-- **No step breaks the silence.** -/
theorem Silent.step {s₀ : State} {ks : List CallId} (h : Silent s₀ ks s) (hinv : Inv s) {label : Label}
    (hstep : s.step config label = some s') : Silent s₀ ks s' := by
  have hroom : ∀ r t', s'.rooms r = some t' → t'.Quiet ks ∧ ∃ new, t'.handled = s₀.handledAt r ++ new ∧
      ∀ h ∈ new, ∀ k ∈ ks, joinOf h.command ≠ some k := by
    intro r t' ht'
    obtain ⟨hnone, k, rfl⟩ | ⟨t, ht, hstep⟩ := hinv.step_room hstep ht'
    · refine ⟨Or.inr fun _ hmem => absurd hmem List.not_mem_nil, [], ?_, fun _ hmem => absurd hmem List.not_mem_nil⟩
      rw [h.unopened r hnone]
      rfl
    · obtain ⟨new, hnew, hall⟩ := h.handled r t ht
      have hquiet := h.quiet r t ht
      cases hstep with
      | same | inserted | pop => exact ⟨hquiet, new, hnew, hall⟩
      | push j c command hc hover hsends =>
          refine ⟨hquiet.imp id fun hqueue command' hmem => ?_, new, hnew, hall⟩
          obtain hmem | hmem := List.mem_append.mp hmem
          · exact hqueue command' hmem
          · rw [List.mem_singleton.mp hmem]
            exact h.push hc hover hsends
      | process command rest hidle hqueue =>
          obtain ⟨-, hstopping, -⟩ := RoomTask.idle_iff.mp hidle
          obtain ⟨a, effects, stop, -, heq⟩ := (hinv.rooms r t ht).process_eq hidle command rest
          obtain hclosed | hjoins := hquiet
          · rw [← (hinv.rooms r t ht).stopping, hstopping] at hclosed
            cases hclosed
          · rw [hqueue] at hjoins
            rw [heq]
            refine ⟨Or.inr fun command' hmem => hjoins command' (List.mem_cons_of_mem _ hmem),
              new ++ [⟨command, t.actor, a⟩], ?_, fun handling hmem => ?_⟩
            · rw [hnew, List.append_assoc]
            · obtain hmem | hmem := List.mem_append.mp hmem
              · exact hall handling hmem
              · rw [List.mem_singleton.mp hmem]
                exact hjoins command List.mem_cons_self
      | hungUp => exact ⟨Or.inl rfl, new, hnew, hall⟩
      | terminated hstopping => exact ⟨Or.inl ((hinv.rooms r t ht).stopping ▸ hstopping), new, hnew, hall⟩
  refine ⟨fun k hk => ?_, fun r t' ht' => (hroom r t' ht').1, fun r t' ht' => (hroom r t' ht').2, fun r hr => ?_⟩
  · obtain ⟨c, hc, hover⟩ := h.calls k hk
    obtain ⟨c', hc', -, hover'⟩ := hinv.step_call hstep hc
    exact ⟨c', hc', hover' hover⟩
  · apply h.unopened
    cases ht : s.rooms r with
    | none => rfl
    | some t =>
        obtain ⟨t', ht', -⟩ := (hinv.step hstep).grows.rooms r t ht
        rw [hr] at ht'
        cases ht'

end

end LongshipX.Service
