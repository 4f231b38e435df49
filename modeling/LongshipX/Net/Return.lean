import LongshipX.Lib.Quiescence
import LongshipX.Net.Places

/-!
# The accept loop returns

Once `true` was sent on the shutdown channel, `accept_loop_with` comes to its end, even if no handler ever does: a worker
that waits in its `select!` hears the signal, and the shutdown timeout ends a drain.

* `Label.winds` : what may happen after the signal; `Label.prompt` : what needs neither the transport nor a handler;
* `Heard` : no worker misses the signal;
* `State.ahead` : a bound on the steps, which each of them lowers;
* `accept_loop_returns`.
-/

namespace LongshipX.Net.Listener

def Label.winds : Label → Bool
  | .send _ => false
  | .dropSender => false
  | _ => true

/-- What happens by itself: the transport and the handlers may hang. -/
def Label.prompt : Label → Bool
  | .send _ => false
  | .dropSender => false
  | .accept _ => false
  | .acceptError _ => false
  | .finish _ _ => false
  | _ => true

/-- The steps a worker has before it; a connection in its hand may become a handler. -/
def Phase.ahead : Phase → Nat
  | .select => 11
  | .decide _ => 10
  | .start _ => 4
  | .retry => 4
  | .head => 3
  | .drain => 2
  | .aborting => 1
  | .finished => 0

def Life.ahead : Life → Nat
  | .placed => 5
  | .spawned => 4
  | .running => 3
  | .over _ => 2
  | .ended _ => 1
  | .joined => 0

/-- **What is left to do.** -/
def State.ahead (s : State) : Nat :=
  (s.workers.map fun x => x.phase.ahead).sum + (s.handlers.map fun y => y.life.ahead).sum + (s.workers.length - s.joined)

/-- **No worker misses the signal**: one that waits in its `select!` although the value is `true` has not seen the last
version of it. -/
structure Heard (s : State) : Prop where
  seen : ∀ x ∈ s.workers, x.seen ≤ s.shutdown.version
  waits : ∀ x ∈ s.workers, x.phase = .select → s.shutdown.value = true → x.seen < s.shutdown.version

section
variable {s s' : State} {limit : Option Nat} {w : WorkerId} {h : HandlerId} {x : Worker} {y : Handler} {label : Label}

/-! ## What a step does -/

/-- What a step does that is none of the sender's: a worker that waits for the signal has read `false`, and once it was
sent, less is left to do. -/
structure Pass (s s' : State) : Prop where
  shutdown : s'.shutdown = s.shutdown
  workers : s'.workers = s.workers ∨ ∃ (w : WorkerId) (x : Worker) (phase : Phase), s.workers[w]? = some x ∧
    s'.workers = s.workers.set w ⟨phase, x.seen⟩ ∧ (phase = .select → s.shutdown.value = false)
  lower : s.shutdown.value = true → s'.ahead < s.ahead

theorem Pass.worker (hw : s.workers[w]? = some x) {phase : Phase} (hselect : phase = .select → s.shutdown.value = false)
    (hlower : s.shutdown.value = true → phase.ahead < x.phase.ahead) : Pass s (s.goto w ⟨phase, x.seen⟩) := by
  refine ⟨rfl, Or.inr ⟨w, x, phase, hw, rfl, hselect⟩, fun hvalue => ?_⟩
  have hsum : ((s.workers.set w ⟨phase, x.seen⟩).map fun x => x.phase.ahead).sum + x.phase.ahead =
      (s.workers.map fun x => x.phase.ahead).sum + phase.ahead := Sums.set hw _ _
  have hless := hlower hvalue
  simp only [State.ahead, State.goto, List.length_set]
  omega

theorem Pass.handler (hy : s.handlers[h]? = some y) {life : Life} (hlower : life.ahead < y.life.ahead)
    (semaphore : Option Semaphore) : Pass s { s with semaphore := semaphore, handlers := s.handlers.set h { y with life := life } } := by
  refine ⟨rfl, Or.inl rfl, fun _ => ?_⟩
  have hsum : ((s.handlers.set h { y with life := life }).map fun y => y.life.ahead).sum + y.life.ahead =
      (s.handlers.map fun y => y.life.ahead).sum + life.ahead := Sums.set hy _ _
  simp only [State.ahead]
  omega

theorem Pass.place {conn : ConnId} {seen : Nat} (hw : s.workers[w]? = some ⟨.decide conn, seen⟩) (semaphore : Option Semaphore) :
    Pass s (s.place w seen conn semaphore) := by
  refine ⟨rfl, Or.inr ⟨w, _, .start s.handlers.length, hw, rfl, fun hselect => by cases hselect⟩, fun _ => ?_⟩
  have hworkers : ((s.workers.set w ⟨.start s.handlers.length, seen⟩).map fun x => x.phase.ahead).sum + 10 =
      (s.workers.map fun x => x.phase.ahead).sum + 4 := Sums.set hw _ fun x => x.phase.ahead
  have hhandlers : ((s.handlers ++ [(⟨w, conn, .placed⟩ : Handler)]).map fun y => y.life.ahead).sum =
      (s.handlers.map fun y => y.life.ahead).sum + 5 := by
    rw [List.map_append, List.sum_append]
    rfl
  simp only [State.ahead, State.place, State.goto, List.length_set]
  omega

theorem Pass.spawn (hi : Inv limit s) {seen : Nat} (hw : s.workers[w]? = some ⟨.start h, seen⟩) (hy : s.handlers[h]? = some y) :
    Pass s ((s.put h { y with life := .spawned }).goto w ⟨.head, seen⟩) := by
  obtain ⟨conn, hplaced⟩ := hi.starting.placed w h seen hw
  obtain rfl := Option.some.inj (hy.symm.trans hplaced)
  refine ⟨rfl, Or.inr ⟨w, _, .head, hw, rfl, fun hselect => by cases hselect⟩, fun _ => ?_⟩
  have hworkers : ((s.workers.set w ⟨.head, seen⟩).map fun x => x.phase.ahead).sum + 4 =
      (s.workers.map fun x => x.phase.ahead).sum + 3 := Sums.set hw _ fun x => x.phase.ahead
  have hhandlers : ((s.handlers.set h ⟨w, conn, .spawned⟩).map fun y => y.life.ahead).sum + 5 =
      (s.handlers.map fun y => y.life.ahead).sum + 4 := Sums.set hy _ fun y => y.life.ahead
  simp only [State.ahead, State.put, State.goto, List.length_set]
  omega

theorem Pass.join (hw : s.workers[s.joined]? = some x) : Pass s { s with joined := s.joined + 1 } := by
  refine ⟨rfl, Or.inl rfl, fun _ => ?_⟩
  have hlt := (List.getElem?_eq_some_iff.mp hw).1
  simp only [State.ahead]
  omega

theorem step_pass (hi : Inv limit s) (hlabel : label.winds = true) (hstep : s.step label = some s') : Pass s s' := by
  cases label with
  | send | dropSender => cases hlabel
  | enter w =>
      simp only [State.step] at hstep
      split at hstep
      · next seen hw =>
        obtain rfl := Option.some.inj hstep
        cases hvalue : s.shutdown.value with
        | false => exact .worker hw (fun _ => hvalue) fun htrue => by rw [hvalue] at htrue; cases htrue
        | true => exact .worker hw (fun hselect => by cases hselect) fun _ => by simp [Phase.ahead]
      · cases hstep
  | accept w =>
      simp only [State.step] at hstep
      split at hstep
      · next seen hw =>
        obtain rfl := Option.some.inj hstep
        have hpass : Pass s (s.goto w ⟨.decide s.taken, seen⟩) :=
          .worker hw (fun hselect => by cases hselect) fun _ => by simp [Phase.ahead]
        exact ⟨rfl, hpass.workers, hpass.lower⟩
      · cases hstep
  | acceptError w =>
      simp only [State.step] at hstep
      split at hstep
      · next seen hw =>
        obtain rfl := Option.some.inj hstep
        exact .worker hw (fun hselect => by cases hselect) fun _ => by simp [Phase.ahead]
      · cases hstep
  | wake w =>
      simp only [State.step] at hstep
      split at hstep
      · next seen hw =>
        obtain rfl := Option.some.inj hstep
        exact .worker hw (fun hselect => by cases hselect) fun _ => by simp [Phase.ahead]
      · cases hstep
  | changed w =>
      simp only [State.step] at hstep
      split at hstep
      · next seen hw =>
        split_ifs at hstep
        obtain rfl := Option.some.inj hstep
        exact .worker hw (fun hselect => by cases hselect) fun _ => by simp [Phase.ahead]
      · cases hstep
  | reap w h =>
      simp only [State.step] at hstep
      split at hstep
      · next worker owner conn ending hw hy =>
        split_ifs at hstep
        obtain rfl := Option.some.inj hstep
        exact .handler hy (by simp [Life.ahead]) s.semaphore
      · cases hstep
  | acquire w =>
      simp only [State.step] at hstep
      split at hstep
      · next conn seen hw =>
        split at hstep
        · obtain rfl := Option.some.inj hstep
          exact .place hw none
        · split at hstep
          · next rest _ =>
            obtain rfl := Option.some.inj hstep
            exact .place hw (some rest)
          · obtain rfl := Option.some.inj hstep
            have hpass : Pass s (s.goto w ⟨.head, seen⟩) :=
              .worker hw (fun hselect => by cases hselect) fun _ => by simp [Phase.ahead]
            exact ⟨rfl, hpass.workers, hpass.lower⟩
      · cases hstep
  | spawn w =>
      simp only [State.step] at hstep
      split at hstep
      · next h seen hw =>
        split at hstep
        · next y hy =>
          obtain rfl := Option.some.inj hstep
          exact .spawn hi hw hy
        · cases hstep
      · cases hstep
  | poll h =>
      simp only [State.step] at hstep
      split at hstep
      · next owner conn hy =>
        obtain rfl := Option.some.inj hstep
        exact .handler hy (by simp [Life.ahead]) s.semaphore
      · cases hstep
  | finish h panicked =>
      simp only [State.step] at hstep
      split at hstep
      · next owner conn hy =>
        obtain rfl := Option.some.inj hstep
        exact .handler hy (by simp [Life.ahead]) s.semaphore
      · cases hstep
  | cancel h =>
      simp only [State.step] at hstep
      split at hstep
      · next owner conn life hy =>
        split_ifs at hstep with hguard
        obtain rfl := Option.some.inj hstep
        refine .handler hy ?_ s.semaphore
        rcases hguard.1 with rfl | rfl <;> simp [Life.ahead]
      · cases hstep
  | release h =>
      simp only [State.step] at hstep
      split at hstep
      · next owner conn ending hy =>
        obtain rfl := Option.some.inj hstep
        exact .handler hy (by simp [Life.ahead]) _
      · cases hstep
  | timeout w =>
      simp only [State.step] at hstep
      split at hstep
      · next seen hw =>
        obtain rfl := Option.some.inj hstep
        exact .worker hw (fun hselect => by cases hselect) fun _ => by simp [Phase.ahead]
      · cases hstep
  | close w =>
      simp only [State.step] at hstep
      split at hstep
      · next phase seen hw =>
        split_ifs at hstep with hguard
        obtain rfl := Option.some.inj hstep
        refine .worker hw (fun hselect => by cases hselect) fun _ => ?_
        rcases hguard.1 with rfl | rfl <;> simp [Phase.ahead]
      · cases hstep
  | join =>
      simp only [State.step] at hstep
      split at hstep
      · next hw =>
        obtain rfl := Option.some.inj hstep
        exact .join hw
      · cases hstep

/-! ## The signal is heard -/

theorem Heard.step (hi : Inv limit s) (hheard : Heard s) (hstep : s.step label = some s') : Heard s' := by
  cases hwinds : label.winds with
  | true =>
      obtain ⟨hshutdown, hworkers, -⟩ := step_pass hi hwinds hstep
      obtain hsame | ⟨w, x, phase, hw, hset, hselect⟩ := hworkers
      · exact ⟨by rw [hshutdown, hsame]; exact hheard.seen, by rw [hshutdown, hsame]; exact hheard.waits⟩
      · refine ⟨fun z hz => ?_, fun z hz hphase hvalue => ?_⟩
        · rw [hset] at hz
          rw [hshutdown]
          rcases List.mem_or_eq_of_mem_set hz with hz | rfl
          · exact hheard.seen z hz
          · exact hheard.seen x (List.mem_of_getElem? hw)
        · rw [hset] at hz
          rw [hshutdown] at hvalue ⊢
          rcases List.mem_or_eq_of_mem_set hz with hz | rfl
          · exact hheard.waits z hz hphase hvalue
          · rw [hselect hphase] at hvalue
            cases hvalue
  | false =>
      cases label with
      | send value =>
          simp only [State.step] at hstep
          split_ifs at hstep
          obtain rfl := Option.some.inj hstep
          exact ⟨fun z hz => (hheard.seen z hz).trans (Nat.le_succ _), fun z hz _ _ => Nat.lt_succ_of_le (hheard.seen z hz)⟩
      | dropSender =>
          obtain rfl := Option.some.inj hstep
          exact ⟨hheard.seen, hheard.waits⟩
      | enter | accept | acceptError | wake | changed | reap | acquire | spawn | poll | finish | cancel | release | timeout
      | close | join => cases hwinds

theorem start_heard {config : AcceptLoopConfig} {shutdown : Watch} {seen : Nat} (hstart : start config shutdown seen = some s)
    (hseen : seen ≤ shutdown.version) : Heard s := by
  have hinit : s.shutdown = shutdown ∧ ∀ x ∈ s.workers, x = ⟨.head, seen⟩ := by
    unfold start at hstart
    split at hstart
    · obtain rfl := Option.some.inj hstart
      exact ⟨rfl, fun x hx => List.eq_of_mem_replicate hx⟩
    · obtain ⟨semaphore, -, rfl⟩ := Option.map_eq_some_iff.mp hstart
      exact ⟨rfl, fun x hx => List.eq_of_mem_replicate hx⟩
  obtain ⟨rfl, hhead⟩ := hinit
  refine ⟨fun x hx => ?_, fun x hx hphase => ?_⟩
  · rw [hhead x hx]
    exact hseen
  · rw [hhead x hx] at hphase
    cases hphase

/-! ## Where it stops -/

theorem joinSet_step {seen : Nat} (hw : s.workers[w]? = some ⟨.aborting, seen⟩) (hne : s.joinSet w ≠ []) :
    ∃ label, label.prompt = true ∧ (s.step label).isSome = true := by
  obtain ⟨y, hy⟩ := List.exists_mem_of_ne_nil _ hne
  obtain ⟨hmem, hguard⟩ := List.mem_filter.mp hy
  obtain ⟨h, hh⟩ := List.mem_iff_getElem?.mp hmem
  obtain ⟨rfl, hplaced, hjoined⟩ := of_decide_eq_true hguard
  obtain ⟨owner, conn, life⟩ := y
  rcases life with _ | _ | _ | ending | ending | _
  · exact absurd rfl hplaced
  · exact ⟨.cancel h, rfl, by simp [State.step, hh, hw]⟩
  · exact ⟨.cancel h, rfl, by simp [State.step, hh, hw]⟩
  · exact ⟨.release h, rfl, by simp [State.step, hh]⟩
  · exact ⟨.reap owner h, rfl, by simp [State.step, hh, hw, Phase.reaps]⟩
  · exact absurd rfl hjoined

theorem worker_step (hi : Inv limit s) (hheard : Heard s) (hvalue : s.shutdown.value = true) (hw : s.workers[w]? = some x)
    (hopen : x.phase ≠ .finished) : ∃ label, label.prompt = true ∧ (s.step label).isSome = true := by
  obtain ⟨phase, seen⟩ := x
  cases phase with
  | head => exact ⟨.enter w, rfl, by simp [State.step, hw]⟩
  | select =>
      have hmissed : seen < s.shutdown.version := hheard.waits _ (List.mem_of_getElem? hw) rfl hvalue
      exact ⟨.changed w, rfl, by simp [State.step, hw, Nat.ne_of_gt hmissed]⟩
  | decide conn =>
      refine ⟨.acquire w, rfl, ?_⟩
      simp only [State.step, hw]
      split
      · rfl
      · split <;> rfl
  | start h =>
      obtain ⟨conn, hplaced⟩ := hi.starting.placed w h seen hw
      exact ⟨.spawn w, rfl, by simp [State.step, hw, hplaced]⟩
  | retry => exact ⟨.wake w, rfl, by simp [State.step, hw]⟩
  | drain => exact ⟨.timeout w, rfl, by simp [State.step, hw]⟩
  | aborting =>
      by_cases hempty : s.joinSet w = []
      · exact ⟨.close w, rfl, by simp [State.step, hw, hempty]⟩
      · exact joinSet_step hw hempty
  | finished => exact absurd rfl hopen

/-- **Until the loop has returned, something happens by itself.** -/
theorem prompt_step (hi : Inv limit s) (hheard : Heard s) (hvalue : s.shutdown.value = true) (hopen : ¬ s.Returned) :
    ∃ label, label.prompt = true ∧ (s.step label).isSome = true := by
  by_cases hall : ∀ (w : WorkerId) (x : Worker), s.workers[w]? = some x → x.phase = .finished
  · have hlt : s.joined < s.workers.length := Nat.lt_of_not_le hopen
    obtain ⟨⟨phase, seen⟩, hw⟩ : ∃ x, s.workers[s.joined]? = some x := ⟨_, List.getElem?_eq_getElem hlt⟩
    obtain rfl : phase = .finished := hall s.joined _ hw
    exact ⟨.join, rfl, by simp [State.step, hw]⟩
  · push Not at hall
    obtain ⟨w, x, hw, hx⟩ := hall
    exact worker_step hi hheard hvalue hw hx

/-! ## The whole way -/

theorem Label.winds_of_prompt (h : label.prompt = true) : label.winds = true := by
  cases label with
  | send | dropSender | accept | acceptError | finish => cases h
  | enter | wake | changed | reap | acquire | spawn | poll | cancel | release | timeout | close | join => rfl

/-- The signal was sent, and so many steps are left. -/
structure Signalled (limit : Option Nat) (s : State) (n : Nat) : Prop where
  inv : Inv limit s
  heard : Heard s
  value : s.shutdown.value = true
  ahead : s.ahead = n

theorem signalled_ranks (s₀ : State) (limit : Option Nat) :
    (system s₀).Ranks (fun label => label.winds = true) (Signalled limit) := by
  rintro s n label s' ⟨hi, hheard, hvalue, rfl⟩ hwinds hstep
  have hpass := step_pass hi hwinds hstep
  exact ⟨s'.ahead, hpass.lower hvalue, hi.step hstep, hheard.step hi hstep, hpass.shutdown ▸ hvalue, rfl⟩

theorem ahead_le (s : State) : s.ahead ≤ 12 * s.workers.length + 5 * s.handlers.length := by
  have hworkers : (s.workers.map fun x => x.phase.ahead).sum ≤ 11 * s.workers.length :=
    Sums.le_mul fun x => by cases x.phase <;> simp [Phase.ahead]
  have hhandlers : (s.handlers.map fun y => y.life.ahead).sum ≤ 5 * s.handlers.length :=
    Sums.le_mul fun y => by cases y.life <;> simp [Life.ahead]
  unfold State.ahead
  omega

/-- **The accept loop returns.** Let `true` stand on the shutdown channel in any state that `accept_loop_with` reaches, and
let nothing more be sent.

1. However workers, handlers and the transport go on, there is a bound on their steps.
2. They cannot stop before the loop has returned: until then a step is left that needs neither the transport nor a handler,
so a worker cannot miss the signal, and a handler that hangs does not hold the loop.
3. So it returns. -/
theorem accept_loop_returns {config : AcceptLoopConfig} {shutdown : Watch} {seen : Nat} {s₀ : State}
    {labels later : List Label} (hstart : start config shutdown seen = some s₀) (hseen : seen ≤ shutdown.version)
    (hrun : (system s₀).run s₀ labels = some s) (hvalue : s.shutdown.value = true)
    (hwinds : ∀ label ∈ later, label.winds = true) (hlater : (system s₀).run s later = some s') :
    later.length ≤ 12 * s.workers.length + 5 * s.handlers.length ∧
      (¬ s'.Returned → ∃ label, label.prompt = true ∧ (s'.step label).isSome = true) ∧
      ∃ last s'', (∀ label ∈ last, label.prompt = true) ∧ (system s₀).run s' last = some s'' ∧ s''.Returned := by
  obtain ⟨hi, hheard⟩ : Inv config.maxConcurrent s ∧ Heard s :=
    TransitionSystem.run_invariant (I := fun s => Inv config.maxConcurrent s ∧ Heard s)
      (fun _ _ _ h hstep => ⟨h.1.step hstep, h.2.step h.1 hstep⟩)
      ⟨start_inv hstart, start_heard hstart hseen⟩ hrun
  obtain ⟨n, hlength, hsignalled⟩ := (signalled_ranks s₀ _).length_le ⟨hi, hheard, hvalue, rfl⟩ hwinds hlater
  have hbound := ahead_le s
  refine ⟨by omega, prompt_step hsignalled.inv hsignalled.heard hsignalled.value, ?_⟩
  have hprompt : (system s₀).Ranks (fun label => label.prompt = true) (Signalled config.maxConcurrent) :=
    (signalled_ranks s₀ _).mono fun _ => Label.winds_of_prompt
  obtain ⟨last, s'', hlast, hrun', hrest⟩ := hprompt.exists_rest hsignalled
  obtain ⟨m, -, hsignalled'⟩ := hprompt.length_le hsignalled hlast hrun'
  refine ⟨last, s'', hlast, hrun', ?_⟩
  by_contra hopen
  obtain ⟨label, hlabel, hsome⟩ := prompt_step hsignalled'.inv hsignalled'.heard hsignalled'.value hopen
  have hnone : s''.step label = none := hrest label hlabel
  rw [hnone] at hsome
  cases hsome

end

/-- Two workers and one place: a handler runs and never ends, and the second worker has just taken a connection. -/
def signalLabels : List Label :=
  [.enter 0, .enter 1, .accept 0, .acquire 0, .spawn 0, .poll 0, .enter 0, .accept 1, .send true]

theorem accept_loop_returns_hanging : ∃ s₀ s, start ⟨2, some 1⟩ ⟨false, 0, true⟩ 0 = some s₀ ∧
    (system s₀).run s₀ signalLabels = some s ∧ s.handlers.map Handler.life = [.running] ∧
      ∃ last s', (∀ label ∈ last, label.prompt = true) ∧ (system s₀).run s last = some s' ∧ s'.Returned := by
  let s₀ := (start ⟨2, some 1⟩ ⟨false, 0, true⟩ 0).get (by decide)
  have hstart : start ⟨2, some 1⟩ ⟨false, 0, true⟩ 0 = some s₀ := (Option.some_get _).symm
  let s := ((system s₀).run s₀ signalLabels).get (by decide +kernel)
  have hrun : (system s₀).run s₀ signalLabels = some s := (Option.some_get _).symm
  obtain ⟨-, -, hreturns⟩ := accept_loop_returns hstart (Nat.le_refl 0) hrun (by decide +kernel)
    (fun _ h => absurd h List.not_mem_nil) (TransitionSystem.run_nil s)
  exact ⟨s₀, s, hstart, hrun, by decide +kernel, hreturns⟩

end LongshipX.Net.Listener
