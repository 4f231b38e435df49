import LongshipX.Room.Runs

/-!
# Orphan rooms

A room is published in the registry before its first `Join` is sent. If the call that opened it is dropped in
between, nothing takes the room out again: an actor that never had a member does not end on a `Leave`, and
only the error branch of `create_and_join` removes the entry.

* `NoOrphans` : every open registered room has a member, a queued `Join`, or its creator's call;
* `DropsCleanly` : the condition on a dropped call, at the two positions between registering and sending;
* `no_orphans_iff` : over every run, the one holds throughout exactly when the other does;
* `orphan_after_drop` : a run with an orphan.
-/

namespace LongshipX.Service
open RoomActor

/-- Somebody is in the room or has a `Join` in its queue. -/
def RoomTask.Occupied (t : RoomTask) : Prop :=
  t.actor.room.members ≠ [] ∨ ∃ command ∈ t.queue, (joinOf command).isSome

instance (t : RoomTask) : Decidable t.Occupied :=
  inferInstanceAs (Decidable (t.actor.room.members ≠ [] ∨ ∃ command ∈ t.queue, (joinOf command).isSome))

/-- The call that opened the room is still in progress. -/
def State.CreatorBusy (s : State) (t : RoomTask) : Prop := ∃ c, s.calls[t.creator]? = some c ∧ c.pc.over = false

/-- **No orphan rooms.** -/
def NoOrphans (s : State) : Prop :=
  ∀ r ∈ s.registry, ∀ t, s.rooms r = some t → t.actor.closed = false → t.Occupied ∨ s.CreatorBusy t

/-- A dropped call leaves no room behind: if it is a `create_and_join` that has registered its room and not yet
sent its `Join`, that room is out of the registry, or closed, or occupied by others. -/
def DropsCleanly (s : State) (label : Label) : Prop :=
  ∀ k, label = .cancel k → ∀ c r, s.calls[k]? = some c → c.op.creates = true →
    c.pc = .joinLookup r ∨ c.pc = .joinSend r → r ∈ s.registry → ∀ t, s.rooms r = some t →
    t.actor.closed = false → t.Occupied

section
variable {config : RoomServiceConfig} {s s' : State} {k : CallId} {r : RoomId}

theorem Inv.occupied_iff (h : Inv s) {t : RoomTask} (ht : s.rooms r = some t) (hopen : t.actor.closed = false) :
    t.Alive ↔ t.Occupied := by
  have hinv := (h.rooms r t ht).actor
  unfold RoomTask.Alive RoomTask.Occupied
  rw [hopen, ← hinv.had hopen]
  simp

theorem Inv.alive_of_joinedBy (h : Inv s) {t : RoomTask} (ht : s.rooms r = some t) (hjoined : t.JoinedBy k) : t.Alive := by
  obtain ⟨x, hx, p, nickname, sink, hcommand, -⟩ := hjoined
  exact Or.inr (Or.inl ((h.rooms r t ht).joined.mpr ⟨x, hx, by rw [hcommand]; rfl⟩))

/-- The invariant behind `NoOrphans`: a registered room whose creator's call is over is alive. -/
def Tended (s : State) : Prop :=
  ∀ r ∈ s.registry, ∀ t, s.rooms r = some t → s.CreatorBusy t ∨ t.Alive

theorem Tended.noOrphans (hs : Tended s) (h : Inv s) : NoOrphans s := by
  intro r hr t ht hopen
  obtain hbusy | halive := hs r hr t ht
  · exact Or.inr hbusy
  · exact Or.inl ((h.occupied_iff ht hopen).mp halive)

theorem Inv.registered_inserted (h : Inv s) (hr : r ∈ s.registry) {t : RoomTask} (ht : s.rooms r = some t) :
    t.inserted = true := by
  obtain ⟨t', ht', hinserted⟩ := h.registry r hr
  obtain rfl := Option.some.inj (ht.symm.trans ht')
  exact hinserted

/-- When the creator's call is dropped past its `Join`, or cleanly before it, the room is alive. -/
theorem Inv.alive_at_drop (h : Inv s) (hr : r ∈ s.registry) {t : RoomTask} (ht : s.rooms r = some t) {c : Call}
    (hc : s.calls[t.creator]? = some c) (hbusy : c.pc.over = false)
    (hclean : c.op.creates = true → c.pc = .joinLookup r ∨ c.pc = .joinSend r → t.actor.closed = false → t.Occupied) :
    t.Alive := by
  obtain ⟨c', hc', hcreates, htends⟩ := h.created r t ht
  obtain rfl := Option.some.inj (hc.symm.trans hc')
  have hinserted := h.registered_inserted hr ht
  have hfact := (h.calls _ c hc).1
  have hat : ∀ {P : RoomTask → Prop}, s.At r P → P t := by
    intro P hP
    obtain ⟨t', ht', hp⟩ := hP
    obtain rfl := Option.some.inj (ht.symm.trans ht')
    exact hp
  have hopen : (t.actor.closed = false → t.Occupied) → t.Alive := by
    intro hocc
    cases hclosed : t.actor.closed with
    | true => exact Or.inl hclosed
    | false => exact (h.occupied_iff ht hclosed).mpr (hocc hclosed)
  obtain ⟨op, pc, sent⟩ := c
  cases pc with
  | insert r₀ =>
      have hhidden := htends.2
      rw [hinserted] at hhidden
      cases hhidden
  | joinLookup r₀ =>
      obtain rfl := htends.1
      exact hopen (hclean hcreates (Or.inl rfl))
  | joinSend r₀ =>
      obtain rfl := htends.1
      exact hopen (hclean hcreates (Or.inr rfl))
  | joinWait r₀ reply =>
      obtain rfl := htends.1
      obtain _ | (_ | _) | _ := reply
      · exact hat hfact
      · exact Or.inr (Or.inl (hat hfact).1)
      · exact h.alive_of_joinedBy ht (hat hfact)
      · exact Or.inl (hat hfact)
  | joinPublish r₀ =>
      obtain rfl := htends.1
      exact h.alive_of_joinedBy ht (hat hfact)
  | undo r₀ err =>
      obtain rfl := htends.1
      obtain ⟨-, hgone | hat'⟩ := hfact
      · exact absurd hr hgone.2
      · obtain hclosed | hrefused := hat hat'
        · exact Or.inl hclosed
        · exact Or.inr (Or.inl hrefused.1)
  | returned | failed | cancelled => cases hbusy
  | create | liveHandles | leaveLookup | leaveSend | leaveWait | leaveForget | leavePublish | chatLookup | chatSend
  | drain | closeSend => exact htends.elim

theorem Inv.registers (h : Inv s) {label : Label} (hstep : s.step config label = some s') (hr : r ∉ s.registry)
    (hr' : r ∈ s'.registry) {t' : RoomTask} (ht' : s'.rooms r = some t') : s'.CreatorBusy t' := by
  have l := h.step hstep
  cases step_taken hstep with
  | start | opened | cancel => exact absurd hr' hr
  | retain => exact absurd (List.mem_of_mem_filter hr') hr
  | drain => cases hr'
  | actor label s' hregistry => exact absurd (hregistry ▸ hr') hr
  | next k c act pc hc hadvance =>
      cases advance_acts hadvance with
      | skip | publish | enqueue => exact absurd hr' hr
      | forgetClosed | forget => exact absurd (List.mem_of_mem_filter hr') hr
      | register r₀ hpc =>
          obtain rfl | hr' := List.mem_insert_iff.mp hr'
          · obtain ⟨t, ht, hcreator, -⟩ := h.insert_hidden hc hpc
            obtain ⟨t'', ht'', hgrow⟩ := l.grows.rooms r t ht
            obtain rfl := Option.some.inj (ht'.symm.trans ht'')
            refine ⟨c.moved (.register r) pc, ?_, ?_⟩
            · rw [hgrow.creator, hcreator]
              exact State.move_self hc
            · obtain ⟨op, pc₀, sent⟩ := c
              obtain rfl : pc₀ = .insert r := hpc
              cases op with
              | joinOrCreate room player nickname sink =>
                  obtain ⟨-, rfl⟩ := Prod.mk.inj (Option.some.inj hadvance)
                  rfl
              | leave | leaveAll | chat | closeAll => cases hadvance
          · exact absurd hr' hr

theorem advanceJoin_ne_cancelled {creates : Bool} {player : PlayerId} {nickname : String} {sink : SinkId} {pc : Pc}
    {act : Act} : advanceJoin config s k creates player nickname sink pc ≠ some (act, .cancelled) := by
  intro hadvance
  have hfailed : ∀ {act act' : Act} {r : RoomId} {err : AppError},
      some (act, joinFailed creates r err) ≠ some (act', Pc.cancelled) := by
    intro act act' r err heq
    cases creates <;> cases heq
  cases pc with
  | joinLookup r =>
      simp only [advanceJoin] at hadvance
      split at hadvance
      · cases hadvance
      · exact hfailed hadvance
  | joinSend r =>
      simp only [advanceJoin] at hadvance
      split at hadvance
      · cases hadvance
      · cases hadvance
      · exact hfailed hadvance
  | joinWait r reply =>
      obtain _ | (_ | _) | _ := reply
      · cases hadvance
      · exact hfailed hadvance
      · cases hadvance
      · exact hfailed hadvance
  | create | insert | joinPublish | undo | liveHandles | leaveLookup | leaveSend | leaveWait | leaveForget | leavePublish
  | chatLookup | chatSend | drain | closeSend | returned | failed | cancelled => cases hadvance

theorem cancelled_from {label : Label} (hstep : Taken config s label s') {c c' : Call} (hc' : s'.calls[k]? = some c')
    (hpc : c'.pc = .cancelled) (hc : s.calls[k]? = some c) (hop : c.op.creates = true) :
    c.pc = .cancelled ∨ (label = .cancel k ∧ c.pc.over = false) := by
  obtain ⟨hk, -⟩ | ⟨c₀, hc₀, hcall⟩ := hstep.call hc'
  · have hlt := (List.getElem?_eq_some_iff.mp hc).1
    rw [hk] at hlt
    exact absurd hlt (Nat.lt_irrefl _)
  · obtain rfl := Option.some.inj (hc.symm.trans hc₀)
    cases hcall with
    | same => exact Or.inl hpc
    | opened => cases hpc
    | retain order => cases order <;> cases hpc
    | drain order => cases order <;> cases hpc
    | cancel hlabel hover => exact Or.inr ⟨hlabel, hover⟩
    | answered r₀ c' hanswered =>
        cases hanswered with
        | same => exact Or.inl hpc
        | join | leave => cases hpc
    | next act pc hadvance =>
        obtain rfl : pc = .cancelled := hpc
        obtain ⟨op, pc₀, sent⟩ := c
        cases op with
        | joinOrCreate room player nickname sink => exact absurd hadvance advanceJoin_ne_cancelled
        | leave | leaveAll | chat | closeAll => cases hop

/-- **One step**: a room can lose its creator's call only by a drop, and then it is alive if the drop is clean. -/
theorem Tended.step (hs : Tended s) (h : Inv s) {label : Label} (hstep : s.step config label = some s')
    (hclean : DropsCleanly s label) : Tended s' := by
  have l := h.step hstep
  intro r hr' t' ht'
  by_cases hr : r ∈ s.registry
  · obtain ⟨t, ht, -⟩ := h.registry r hr
    obtain ⟨t'', ht'', hgrow⟩ := l.grows.rooms r t ht
    obtain rfl := Option.some.inj (ht'.symm.trans ht'')
    obtain ⟨c', hc', hcreates', htends'⟩ := l.inv.created r t' ht'
    have hfact' := (l.inv.calls _ c' hc').1
    obtain ⟨op, pc, sent⟩ := c'
    cases hover : pc.over with
    | false => exact Or.inl ⟨_, hc', hover⟩
    | true =>
        cases pc with
        | returned r₀ =>
            obtain rfl := htends'.1
            obtain ⟨t₀, ht₀, hjoined⟩ := hfact'
            obtain rfl := Option.some.inj (ht'.symm.trans ht₀)
            exact Or.inr (l.inv.alive_of_joinedBy ht' hjoined)
        | failed err => exact absurd hr' htends'.2
        | cancelled =>
            obtain ⟨c, hc, hcreates, -⟩ := h.created r t ht
            rw [hgrow.creator] at hc'
            have hlast := cancelled_from (step_taken hstep) hc' rfl hc hcreates
            refine Or.inr (hgrow.alive ?_)
            obtain hcancelled | ⟨hlabel, hbusy⟩ := hlast
            · obtain ⟨c₀, hc₀, hbusy⟩ | halive := hs r hr t ht
              · obtain rfl := Option.some.inj (hc.symm.trans hc₀)
                rw [hcancelled] at hbusy
                cases hbusy
              · exact halive
            · exact h.alive_at_drop hr ht hc hbusy fun hop hpc hopen => hclean _ hlabel c r hc hop hpc hr t ht hopen
        | create | insert | joinLookup | joinSend | joinWait | joinPublish | undo | liveHandles | leaveLookup
        | leaveSend | leaveWait | leaveForget | leavePublish | chatLookup | chatSend | drain | closeSend => cases hover
  · exact Or.inl (h.registers hstep hr hr' ht')

theorem Inv.dropsCleanly_of_noOrphans (h : Inv s) {label : Label} (hstep : s.step config label = some s')
    (hs' : NoOrphans s') : DropsCleanly s label := by
  rintro k rfl c r hc hcreates hpc hr t ht hopen
  simp only [State.step, hc] at hstep
  split_ifs at hstep
  obtain rfl := Option.some.inj hstep
  obtain hocc | ⟨c', hc', hbusy⟩ := hs' r hr t ht hopen
  · exact hocc
  · have htending : c.pc.tending = some r := by
      obtain hpc | hpc := hpc <;> rw [hpc] <;> rfl
    obtain ⟨t₀, ht₀, hcreator⟩ := h.owns k c hc hcreates r htending
    obtain rfl := Option.some.inj (ht.symm.trans ht₀)
    rw [hcreator, State.move_self hc, Option.some.injEq] at hc'
    rw [← hc'] at hbusy
    cases hbusy

/-- **A run leaves no orphan rooms, in any state it passes, exactly when its drops are clean.** -/
theorem no_orphans_iff (config : RoomServiceConfig) (labels : List Label) (s : State)
    (hrun : (system config).run (system config).init labels = some s) :
    (system config).Along DropsCleanly (system config).init labels ↔
      ∀ before after s', labels = before ++ after → (system config).run (system config).init before = some s' →
        NoOrphans s' := by
  constructor
  · rintro hclean before after s' rfl hbefore
    have hprefix := (TransitionSystem.along_append hclean hbefore).1
    have hinv : Inv s' ∧ Tended s' := by
      refine TransitionSystem.run_induction DropsCleanly (I := fun s => Inv s ∧ Tended s) ?_ ?_ hprefix hbefore
      · rintro s₁ label s₂ ⟨h, hs⟩ hok hstep
        exact ⟨(h.step hstep).inv, hs.step h hstep hok⟩
      · exact ⟨init_inv config, fun r hr => by cases hr⟩
    exact hinv.2.noOrphans hinv.1
  · intro hall
    refine TransitionSystem.along_of_prefixes fun before label after t hlabels hbefore => ?_
    subst hlabels
    rw [TransitionSystem.run_append, hbefore, Option.bind_some] at hrun
    obtain ⟨t', hstep, -⟩ := Option.bind_eq_some_iff.mp hrun
    have h := (run_leads (init_inv config) hbefore).inv
    refine h.dropsCleanly_of_noOrphans hstep (hall (before ++ [label]) after t' ?_ ?_)
    · rw [List.append_assoc]
      rfl
    · exact TransitionSystem.run_concat.mpr ⟨t, hbefore, hstep⟩

end

/-- A call creates a room and is dropped while it waits for the registry again. -/
def dropLabels : List Label :=
  [.start (.joinOrCreate none ⟨1⟩ "a" 0), .openRoom 0 ⟨7⟩, .next 0, .cancel 0]

/-- The room stays registered and open, with nobody in it and nobody coming. -/
theorem orphan_after_drop : ¬ ∀ (config : RoomServiceConfig) (labels : List Label) (s : State),
    (system config).run (system config).init labels = some s → NoOrphans s := by
  intro h
  have hs := h ⟨16, 4⟩ dropLabels _ rfl ⟨7⟩ (by decide) _ rfl rfl
  obtain hocc | ⟨c, hc, hbusy⟩ := hs
  · exact absurd hocc (by decide)
  · obtain rfl := Option.some.inj hc
    cases hbusy

/-- A call creates a room and is dropped while its `Join` is queued. -/
def queuedLabels : List Label :=
  [.start (.joinOrCreate none ⟨1⟩ "a" 0), .openRoom 0 ⟨7⟩, .next 0, .next 0, .next 0, .cancel 0]

theorem no_orphans_iff_queued : ∃ s, (system ⟨16, 4⟩).run (system ⟨16, 4⟩).init queuedLabels = some s ∧
    (system ⟨16, 4⟩).Along DropsCleanly (system ⟨16, 4⟩).init queuedLabels ∧ NoOrphans s := by
  have hnot : ∀ s label, (∀ k, label ≠ .cancel k) → DropsCleanly s label := fun _ _ h k hk => absurd hk (h k)
  have hclean : (system ⟨16, 4⟩).Along DropsCleanly (system ⟨16, 4⟩).init queuedLabels := by
    refine ⟨hnot _ _ (by simp), fun s₁ h₁ => ⟨hnot _ _ (by simp), fun s₂ h₂ => ⟨hnot _ _ (by simp), fun s₃ h₃ =>
      ⟨hnot _ _ (by simp), fun s₄ h₄ => ⟨hnot _ _ (by simp), fun s₅ h₅ => ⟨?_, fun _ _ => trivial⟩⟩⟩⟩⟩⟩
    obtain rfl := Option.some.inj h₁
    obtain rfl := Option.some.inj h₂
    obtain rfl := Option.some.inj h₃
    obtain rfl := Option.some.inj h₄
    obtain rfl := Option.some.inj h₅
    intro k hk c r hc _ hpc
    obtain rfl := Label.cancel.inj hk
    obtain rfl := Option.some.inj hc
    obtain hpc | hpc := hpc <;> cases hpc
  exact ⟨_, rfl, hclean, (no_orphans_iff ⟨16, 4⟩ queuedLabels _ rfl).mp hclean queuedLabels [] _ rfl rfl⟩

end LongshipX.Service
