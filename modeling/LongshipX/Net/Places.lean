import LongshipX.Lib.Indexed
import LongshipX.Net.Listener

/-!
# Places and handlers of the accept loop

* `Inv` : what holds between any two steps: the free permits and the running handlers add up to the limit, every connection
  is in one hand, and a worker that is done has joined its handlers;
* `Inv.step` : one step keeps it; `run_inv` : so does every run;
* `Left.step`, `run_left` : a worker that has left its loop starts no handler;
* `accept_loop_contract` : the loop from its start to its return.
-/

namespace LongshipX.Net.Listener

/-! ## The invariant -/

namespace State

def deciding (s : State) (conn : ConnId) : Nat := s.workers.countP fun x => decide (x.phase = .decide conn)

def given (s : State) (conn : ConnId) : Nat := s.handlers.countP fun x => decide (x.conn = conn)

/-- How often this connection was dropped without a handler. -/
def dropped (s : State) (conn : ConnId) : Nat := s.refused.countP fun x => decide (x.conn = conn)

end State

/-- The free permits and the running handlers add up to the limit. -/
def Balanced (limit : Option Nat) (semaphore : Option Semaphore) (running : Nat) : Prop :=
  semaphore.map (fun x => x.permits + running) = limit

/-- A handler that has its place has not been spawned yet exactly while its worker is about to spawn it. -/
structure Starting (workers : List Worker) (handlers : List Handler) : Prop where
  placed : ∀ (w : WorkerId) (h : HandlerId) (seen : Nat), workers[w]? = some ⟨.start h, seen⟩ →
    ∃ conn, handlers[h]? = some ⟨w, conn, .placed⟩
  start : ∀ (h : HandlerId) (x : Handler), handlers[h]? = some x → x.life = .placed →
    ∃ seen, workers[x.worker]? = some ⟨.start h, seen⟩

structure Inv (limit : Option Nat) (s : State) : Prop where
  places : Balanced limit s.semaphore s.running
  hands : ∀ conn, s.deciding conn + s.given conn + s.dropped conn = if conn < s.taken then 1 else 0
  refused : ∀ r ∈ s.refused, limit = some r.running
  starting : Starting s.workers s.handlers
  owned : ∀ x ∈ s.handlers, x.worker < s.workers.length
  finished : ∀ (w : WorkerId) (seen : Nat), s.workers[w]? = some ⟨.finished, seen⟩ → ∀ x ∈ s.handlers, x.worker = w → x.life = .joined
  joined : ∀ w < s.joined, ∃ seen, s.workers[w]? = some ⟨.finished, seen⟩

theorem start_inv {config : AcceptLoopConfig} {shutdown : Watch} {seen : Nat} {s : State}
    (h : start config shutdown seen = some s) : Inv config.maxConcurrent s := by
  have hinit : ∀ semaphore : Option Semaphore, semaphore.map Semaphore.permits = config.maxConcurrent →
      Inv config.maxConcurrent
        ⟨shutdown, semaphore, List.replicate (max config.acceptConcurrency 1) ⟨.head, seen⟩, [], 0, [], 0⟩ := by
    intro semaphore hpermits
    have hhead : ∀ (w : WorkerId) (x : Worker),
        (List.replicate (max config.acceptConcurrency 1) (⟨.head, seen⟩ : Worker))[w]? = some x → x = ⟨.head, seen⟩ := by
      intro w x hx
      exact List.eq_of_mem_replicate (List.mem_of_getElem? hx)
    refine ⟨hpermits, fun conn => ?_, ?_, ⟨?_, ?_⟩, ?_, ?_, ?_⟩
    · have hnone : List.countP (fun x : Worker => decide (x.phase = .decide conn))
          (List.replicate (max config.acceptConcurrency 1) ⟨.head, seen⟩) = 0 := by
        rw [List.countP_eq_zero]
        intro x hx
        rw [List.eq_of_mem_replicate hx]
        simp
      simp only [State.deciding, State.given, State.dropped, hnone, List.countP_nil, Nat.not_lt_zero, if_false]
    · intro r hr
      cases hr
    · intro w h seen' hw
      cases hhead w _ hw
    · intro h x hx
      cases hx
    · intro x hx
      cases hx
    · intro w seen' hw
      cases hhead w _ hw
    · intro w hw
      cases hw
  unfold start at h
  cases hlimit : config.maxConcurrent with
  | none =>
      rw [hlimit] at h
      obtain rfl := Option.some.inj h
      exact hlimit ▸ hinit none hlimit.symm
  | some n =>
      rw [hlimit] at h
      obtain ⟨semaphore, hnew, rfl⟩ := Option.map_eq_some_iff.mp h
      obtain ⟨-, rfl⟩ := Semaphore.new_eq_some_iff.mp hnew
      exact hlimit ▸ hinit (some ⟨n⟩) hlimit.symm

/-! ## How the counts change -/

section
variable {s s' : State} {limit : Option Nat} {w : WorkerId} {h : HandlerId} {x : Worker} {y : Handler} {conn : ConnId}

theorem deciding_goto (conn : ConnId) (hw : s.workers[w]? = some x) (x' : Worker) : (s.goto w x').deciding conn +
    (if x.phase = .decide conn then 1 else 0) = s.deciding conn + (if x'.phase = .decide conn then 1 else 0) := by
  have hcount := Indexed.countP_set_of_some (y := x') hw fun x => decide (x.phase = .decide conn)
  simpa only [State.deciding, State.goto, decide_eq_true_eq] using hcount

theorem decide_of_idle {phase : Phase} (hidle : phase.idle = true) : phase ≠ .decide conn := by
  rintro rfl
  cases hidle

theorem start_of_idle {phase : Phase} (hidle : phase.idle = true) : phase ≠ .start h := by
  rintro rfl
  cases hidle

theorem deciding_goto_idle (hw : s.workers[w]? = some x) {x' : Worker} (hidle : x.phase.idle = true)
    (hidle' : x'.phase.idle = true) : (s.goto w x').deciding conn = s.deciding conn := by
  have hcount := deciding_goto conn hw x'
  rwa [if_neg (decide_of_idle hidle), if_neg (decide_of_idle hidle')] at hcount

theorem running_put (hy : s.handlers[h]? = some y) (y' : Handler) : (s.put h y').running +
    (if y.life.runs = true then 1 else 0) = s.running + (if y'.life.runs = true then 1 else 0) :=
  Indexed.countP_set_of_some hy fun x => x.life.runs

theorem given_put (conn : ConnId) (hy : s.handlers[h]? = some y) (y' : Handler) (hconn : y'.conn = y.conn) :
    (s.put h y').given conn = s.given conn := by
  refine Indexed.countP_set_same hy ?_
  rw [hconn]

/-! ## One step -/

theorem Starting.goto {workers : List Worker} {handlers : List Handler} (hs : Starting workers handlers)
    (hw : workers[w]? = some x) {x' : Worker} (hstart : ∀ h, x.phase ≠ .start h) (hstart' : ∀ h, x'.phase ≠ .start h) :
    Starting (workers.set w x') handlers where
  placed w' h seen hw' := by
    rcases Indexed.set_cases hw' with ⟨-, heq⟩ | ⟨-, hold⟩
    · exact absurd (congrArg Worker.phase heq).symm (hstart' h)
    · exact hs.placed w' h seen hold
  start h y hy hplaced := by
    obtain ⟨seen, hold⟩ := hs.start h y hy hplaced
    have hne : y.worker ≠ w := Indexed.ne_of_ne hold hw Worker.phase (hstart h).symm
    exact ⟨seen, (Indexed.set_of_ne hne).trans hold⟩

/-- Nothing but the life of a handler changes, and it is one that has been spawned and was not joined. -/
theorem Starting.put {workers : List Worker} {handlers : List Handler} (hs : Starting workers handlers)
    (hy : handlers[h]? = some y) {life : Life} (hplaced : y.life ≠ .placed) (hplaced' : life ≠ .placed) :
    Starting workers (handlers.set h { y with life := life }) where
  placed w' h' seen hw' := by
    obtain ⟨conn, hold⟩ := hs.placed w' h' seen hw'
    have hne : h' ≠ h := Indexed.ne_of_ne hold hy Handler.life hplaced.symm
    exact ⟨conn, (Indexed.set_of_ne hne).trans hold⟩
  start h' y' hy' hplaced'' := by
    rcases Indexed.set_cases hy' with ⟨-, rfl⟩ | ⟨-, hold⟩
    · exact absurd hplaced'' hplaced'
    · exact hs.start h' y' hold hplaced''

theorem Inv.worker_lt (hw : s.workers[w]? = some x) : w < s.workers.length := (List.getElem?_eq_some_iff.mp hw).1

theorem Inv.joined_goto (hi : Inv limit s) (hw : s.workers[w]? = some x) (hopen : x.phase ≠ .finished) (x' : Worker) :
    ∀ w' < s.joined, ∃ seen, (s.goto w x').workers[w']? = some ⟨.finished, seen⟩ := by
  intro w' hlt
  obtain ⟨seen, hold⟩ := hi.joined w' hlt
  have hne : w' ≠ w := Indexed.ne_of_ne hold hw Worker.phase hopen.symm
  exact ⟨seen, (Indexed.set_of_ne hne).trans hold⟩

theorem finished_goto {x' : Worker} (hopen : x'.phase ≠ .finished) {w' : WorkerId} {seen : Nat}
    (hw' : (s.goto w x').workers[w']? = some ⟨.finished, seen⟩) : w' ≠ w ∧ s.workers[w']? = some ⟨.finished, seen⟩ := by
  rcases Indexed.set_cases hw' with ⟨-, heq⟩ | hold
  · exact absurd (congrArg Worker.phase heq).symm hopen
  · exact hold

theorem owned_goto {x' : Worker} (howned : ∀ y ∈ s.handlers, y.worker < s.workers.length) :
    ∀ y ∈ (s.goto w x').handlers, y.worker < (s.goto w x').workers.length := by
  intro y hy
  rw [State.goto, List.length_set]
  exact howned y hy

theorem Inv.moved (hi : Inv limit s) {seen : Nat} {phase phase' : Phase} (hw : s.workers[w]? = some ⟨phase, seen⟩)
    (hidle : phase.idle = true) (hidle' : phase'.idle = true) (hopen : phase ≠ .finished)
    (hclose : phase' = .finished → phase.left = true ∧ s.joinSet w = []) : Inv limit (s.goto w ⟨phase', seen⟩) where
  places := hi.places
  hands conn := by
    rw [deciding_goto_idle hw hidle hidle']
    exact hi.hands conn
  refused := hi.refused
  starting := hi.starting.goto hw (fun _ => start_of_idle hidle) fun _ => start_of_idle hidle'
  owned := owned_goto hi.owned
  finished w' seen' hw' y hy howner := by
    rcases Indexed.set_cases hw' with ⟨rfl, heq⟩ | ⟨-, hold⟩
    · obtain ⟨hleft, hempty⟩ := hclose (congrArg Worker.phase heq).symm
      by_contra hnot
      have hplaced : y.life = .placed := by
        by_contra hspawned
        have hmem : y ∈ s.joinSet w' := List.mem_filter.mpr ⟨hy, decide_eq_true ⟨howner, hspawned, hnot⟩⟩
        rw [hempty] at hmem
        cases hmem
      obtain ⟨h, hh⟩ := List.getElem?_of_mem hy
      obtain ⟨seen'', hstart⟩ := hi.starting.start h y hh hplaced
      rw [howner, hw] at hstart
      exact start_of_idle hidle (congrArg Worker.phase (Option.some.inj hstart))
    · exact hi.finished w' seen' hold y hy howner
  joined := hi.joined_goto hw hopen _

theorem Inv.accepted (hi : Inv limit s) {seen : Nat} (hw : s.workers[w]? = some ⟨.select, seen⟩) :
    Inv limit { s.goto w ⟨.decide s.taken, seen⟩ with taken := s.taken + 1 } where
  places := hi.places
  hands conn := by
    have hcount := deciding_goto conn hw ⟨.decide s.taken, seen⟩
    have hold := hi.hands conn
    simp only [reduceCtorEq, if_false, Phase.decide.injEq] at hcount
    show (s.goto w ⟨.decide s.taken, seen⟩).deciding conn + s.given conn + s.dropped conn = if conn < s.taken + 1 then 1 else 0
    rcases Nat.lt_trichotomy conn s.taken with hlt | heq | hgt
    · rw [if_neg (Nat.ne_of_gt hlt)] at hcount
      rw [if_pos hlt] at hold
      rw [if_pos (Nat.lt_succ_of_lt hlt)]
      omega
    · rw [if_pos heq.symm] at hcount
      rw [if_neg (Nat.not_lt.mpr (Nat.le_of_eq heq.symm))] at hold
      rw [if_pos (Nat.lt_succ_of_le (Nat.le_of_eq heq))]
      omega
    · rw [if_neg (Nat.ne_of_lt hgt)] at hcount
      rw [if_neg (Nat.not_lt.mpr (Nat.le_of_lt hgt))] at hold
      rw [if_neg (Nat.not_lt.mpr hgt)]
      omega
  refused := hi.refused
  starting := hi.starting.goto hw (fun _ => by simp) fun _ => by simp
  owned := owned_goto hi.owned
  finished w' seen' hw' := hi.finished w' seen' (finished_goto (by simp) hw').2
  joined := hi.joined_goto hw (by simp) _

theorem Inv.refuses (hi : Inv limit s) {seen : Nat} {semaphore : Semaphore} (hw : s.workers[w]? = some ⟨.decide conn, seen⟩)
    (hsemaphore : s.semaphore = some semaphore) (hfull : semaphore.permits = 0) : Inv limit (s.refuse w seen conn) where
  places := hi.places
  hands conn' := by
    have hcount := deciding_goto conn' hw ⟨.head, seen⟩
    have hold := hi.hands conn'
    have hdropped : (s.refuse w seen conn).dropped conn' = s.dropped conn' + if conn = conn' then 1 else 0 := by
      simp [State.dropped, State.refuse, List.countP_append, List.countP_singleton]
    simp only [reduceCtorEq, if_false, Phase.decide.injEq] at hcount
    show (s.goto w ⟨.head, seen⟩).deciding conn' + s.given conn' + (s.refuse w seen conn).dropped conn' =
      if conn' < s.taken then 1 else 0
    rw [hdropped]
    omega
  refused r hr := by
    rcases List.mem_append.mp hr with hold | hnew
    · exact hi.refused r hold
    · obtain rfl := List.mem_singleton.mp hnew
      have hplaces := hi.places
      rw [Balanced, hsemaphore, Option.map_some, hfull, Nat.zero_add] at hplaces
      exact hplaces.symm
  starting := hi.starting.goto hw (fun _ => by simp) fun _ => by simp
  owned := owned_goto hi.owned
  finished w' seen' hw' := hi.finished w' seen' (finished_goto (by simp) hw').2
  joined := hi.joined_goto hw (by simp) _

theorem Inv.placed (hi : Inv limit s) {seen : Nat} {rest : Option Semaphore}
    (hw : s.workers[w]? = some ⟨.decide conn, seen⟩)
    (hpermit : s.semaphore = none ∧ rest = none ∨
      ∃ semaphore left, s.semaphore = some semaphore ∧ semaphore.tryAcquire = some left ∧ rest = some left) :
    Inv limit (s.place w seen conn rest) where
  places := by
    have hrunning : (s.place w seen conn rest).running = s.running + 1 := by
      simp [State.running, State.place, List.countP_append, Life.runs]
    have hplaces := hi.places
    rw [hrunning]
    rcases hpermit with ⟨hnone, rfl⟩ | ⟨semaphore, left, hsome, hacquire, rfl⟩
    · rw [Balanced, hnone] at hplaces
      exact hplaces
    · rw [Balanced, hsome, Option.map_some, Semaphore.tryAcquire_eq_some_iff.mp hacquire] at hplaces
      rw [← hplaces]
      show some (left.permits + (s.running + 1)) = some (left.permits + 1 + s.running)
      exact congrArg some (by omega)
  hands conn' := by
    have hcount := deciding_goto conn' hw ⟨.start s.handlers.length, seen⟩
    have hold := hi.hands conn'
    have hgiven : (s.place w seen conn rest).given conn' = s.given conn' + if conn = conn' then 1 else 0 := by
      simp [State.given, State.place, List.countP_append, List.countP_singleton]
    simp only [reduceCtorEq, if_false, Phase.decide.injEq] at hcount
    show (s.goto w ⟨.start s.handlers.length, seen⟩).deciding conn' + (s.place w seen conn rest).given conn' +
      s.dropped conn' = if conn' < s.taken then 1 else 0
    rw [hgiven]
    omega
  refused := hi.refused
  starting := by
    constructor
    · intro w' h seen' hw'
      rcases Indexed.set_cases hw' with ⟨rfl, heq⟩ | ⟨-, hold⟩
      · obtain rfl := Phase.start.inj (congrArg Worker.phase heq)
        exact ⟨conn, List.getElem?_concat_length⟩
      · obtain ⟨conn', hh⟩ := hi.starting.placed w' h seen' hold
        exact ⟨conn', Indexed.append_old hh⟩
    · intro h y hy hplaced
      rcases Indexed.append_cases hy with hold | ⟨rfl, rfl⟩
      · obtain ⟨seen', hstart⟩ := hi.starting.start h y hold hplaced
        have hne : y.worker ≠ w := Indexed.ne_of_ne hstart hw Worker.phase (by simp)
        exact ⟨seen', (Indexed.set_of_ne hne).trans hstart⟩
      · exact ⟨seen, Indexed.set_self hw⟩
  owned y hy := by
    show y.worker < (s.workers.set w _).length
    rw [List.length_set]
    rcases List.mem_append.mp hy with hold | hnew
    · exact hi.owned y hold
    · rw [List.mem_singleton.mp hnew]
      exact Inv.worker_lt hw
  finished w' seen' hw' y hy howner := by
    obtain ⟨hne, hold⟩ := finished_goto (by simp) hw'
    rcases List.mem_append.mp hy with hy | hnew
    · exact hi.finished w' seen' hold y hy howner
    · rw [List.mem_singleton.mp hnew] at howner
      exact absurd howner.symm hne
  joined := hi.joined_goto hw (by simp) _

theorem Inv.spawns (hi : Inv limit s) {seen : Nat} (hw : s.workers[w]? = some ⟨.start h, seen⟩)
    (hy : s.handlers[h]? = some y) : Inv limit ((s.put h { y with life := .spawned }).goto w ⟨.head, seen⟩) := by
  obtain ⟨conn, hplaced⟩ := hi.starting.placed w h seen hw
  obtain rfl := Option.some.inj (hy.symm.trans hplaced)
  refine ⟨?_, fun conn' => ?_, hi.refused, ⟨?_, ?_⟩, ?_, ?_, ?_⟩
  · have hrunning := running_put hy ⟨w, conn, .spawned⟩
    have hplaces := hi.places
    rw [show s.running = (s.put h ⟨w, conn, .spawned⟩).running from (Nat.add_right_cancel hrunning).symm] at hplaces
    exact hplaces
  · have hcount := deciding_goto conn' hw ⟨.head, seen⟩
    have hold := hi.hands conn'
    have hgiven := given_put conn' hy ⟨w, conn, .spawned⟩ rfl
    simp only [reduceCtorEq, if_false] at hcount
    show (s.goto w ⟨.head, seen⟩).deciding conn' + (s.put h ⟨w, conn, .spawned⟩).given conn' + s.dropped conn' = _
    rw [hgiven]
    exact (congrArg (fun n => n + s.given conn' + s.dropped conn') hcount).trans hold
  · intro w' h' seen' hw'
    rcases Indexed.set_cases hw' with ⟨-, heq⟩ | ⟨hne, hold⟩
    · cases heq
    · obtain ⟨conn', hh⟩ := hi.starting.placed w' h' seen' hold
      have hne' : h' ≠ h := Indexed.ne_of_ne hh hy Handler.worker hne
      exact ⟨conn', (Indexed.set_of_ne hne').trans hh⟩
  · intro h' y' hy' hplaced'
    rcases Indexed.set_cases hy' with ⟨-, rfl⟩ | ⟨hne, hold⟩
    · cases hplaced'
    · obtain ⟨seen', hstart⟩ := hi.starting.start h' y' hold hplaced'
      have hne' : y'.worker ≠ w := Indexed.ne_of_ne hstart hw Worker.phase fun heq => hne (Phase.start.inj heq)
      exact ⟨seen', (Indexed.set_of_ne hne').trans hstart⟩
  · intro y' hy'
    show y'.worker < (s.workers.set w _).length
    rw [List.length_set]
    rcases List.mem_or_eq_of_mem_set hy' with hold | rfl
    · exact hi.owned y' hold
    · exact Inv.worker_lt hw
  · intro w' seen' hw' y' hy' howner
    obtain ⟨hne, hold⟩ := finished_goto (by simp) hw'
    rcases List.mem_or_eq_of_mem_set hy' with hmem | rfl
    · exact hi.finished w' seen' hold y' hmem howner
    · exact absurd howner.symm hne
  · exact hi.joined_goto hw (by simp) _

/-- What stays of the invariant when a handler that was spawned and not joined goes on. -/
theorem Inv.put (hi : Inv limit s) {life : Life} {semaphore : Option Semaphore} (hy : s.handlers[h]? = some y)
    (hplaced : y.life ≠ .placed) (hplaced' : life ≠ .placed) (hjoined : y.life ≠ .joined)
    (hplaces : Balanced limit semaphore (s.put h { y with life := life }).running) :
    Inv limit { s.put h { y with life := life } with semaphore := semaphore } where
  places := hplaces
  hands conn := by
    show s.deciding conn + (s.put h { y with life := life }).given conn + s.dropped conn = _
    rw [given_put conn hy { y with life := life } rfl]
    exact hi.hands conn
  refused := hi.refused
  starting := hi.starting.put hy hplaced hplaced'
  owned y' hy' := by
    rcases List.mem_or_eq_of_mem_set hy' with hold | rfl
    · exact hi.owned y' hold
    · exact hi.owned y (List.mem_of_getElem? hy)
  finished w' seen' hw' y' hy' howner := by
    rcases List.mem_or_eq_of_mem_set hy' with hold | rfl
    · exact hi.finished w' seen' hw' y' hold howner
    · exact absurd (hi.finished w' seen' hw' y (List.mem_of_getElem? hy) howner) hjoined
  joined := hi.joined

/-- **One step of the loop.** -/
theorem Inv.step (hi : Inv limit s) {label : Label} (hstep : s.step label = some s') : Inv limit s' := by
  cases step_stepped hstep with
  | signal shutdown => exact ⟨hi.places, hi.hands, hi.refused, hi.starting, hi.owned, hi.finished, hi.joined⟩
  | moved w seen phase phase' hw hidle hidle' hleft hopen hclose => exact hi.moved hw hidle hidle' hopen hclose
  | accepted w seen hw => exact hi.accepted hw
  | placed w seen conn rest hw hpermit => exact hi.placed hw hpermit
  | refused w seen conn semaphore hw hsemaphore hfull => exact hi.refuses hw hsemaphore hfull
  | spawned w seen h x hw hx => exact hi.spawns hw hx
  | lived h x life hx hruns hplaced hplaced' hjoined =>
      refine hi.put hx hplaced hplaced' hjoined ?_
      have hrunning := running_put hx { x with life := life }
      rw [show (({ x with life := life } : Handler).life.runs) = x.life.runs from hruns] at hrunning
      rw [Nat.add_right_cancel hrunning]
      exact hi.places
  | released h x ending hx hover =>
      refine hi.put hx (by simp [hover]) (by simp) (by simp [hover]) ?_
      have hrunning := running_put hx { x with life := .ended ending }
      rw [hover] at hrunning
      simp only [Life.runs, if_true, Bool.false_eq_true, if_false] at hrunning
      have hplaces := hi.places
      unfold Balanced at hplaces ⊢
      rw [← hplaces, Option.map_map]
      refine congrArg (fun f => Option.map f s.semaphore) (funext fun semaphore => ?_)
      show semaphore.permits + 1 + _ = semaphore.permits + s.running
      omega
  | joined seen hw =>
      refine ⟨hi.places, hi.hands, hi.refused, hi.starting, hi.owned, hi.finished, fun w' hlt => ?_⟩
      rcases Nat.lt_or_eq_of_le (Nat.le_of_lt_succ hlt) with hold | rfl
      · exact hi.joined w' hold
      · exact ⟨seen, hw⟩

/-- **Every run keeps the invariant.** -/
theorem run_inv {s₀ : State} (hi : Inv limit s) {labels : List Label} (hrun : (system s₀).run s labels = some s') :
    Inv limit s' :=
  TransitionSystem.run_invariant (fun _ _ _ h hstep => h.step hstep) hi hrun

/-! ## A worker that has left its loop -/

def Left (s : State) (w : WorkerId) : Prop := ∃ x, s.workers[w]? = some x ∧ x.phase.left = true

def StartedBy (s : State) (w : WorkerId) (h : HandlerId) : Prop :=
  ∃ y, s.handlers[h]? = some y ∧ y.worker = w ∧ y.life ≠ .placed

theorem Left.goto {v : WorkerId} (hleft : Left s w) (hv : s.workers[v]? = some x) {x' : Worker}
    (hkeeps : x.phase.left = true → x'.phase.left = true) : Left (s.goto v x') w := by
  obtain ⟨z, hz, hzleft⟩ := hleft
  by_cases hwv : w = v
  · subst hwv
    obtain rfl := Option.some.inj (hv.symm.trans hz)
    exact ⟨x', Indexed.set_self hv, hkeeps hzleft⟩
  · exact ⟨z, (Indexed.set_of_ne hwv).trans hz, hzleft⟩

theorem Left.ne (hleft : Left s w) {v : WorkerId} (hv : s.workers[v]? = some x) (hin : x.phase.left = false) : v ≠ w := by
  obtain ⟨z, hz, hzleft⟩ := hleft
  exact Indexed.ne_of_ne hv hz (fun worker => worker.phase.left) (by simp [hin, hzleft])

theorem startedBy_put (hy : s.handlers[h]? = some y) {life : Life} (hplaced : y.life ≠ .placed) {h' : HandlerId}
    {v : WorkerId} (hstarted : StartedBy (s.put h { y with life := life }) v h') : StartedBy s v h' := by
  obtain ⟨z, hz, howner, hzlife⟩ := hstarted
  rcases Indexed.set_cases hz with ⟨rfl, rfl⟩ | ⟨-, hold⟩
  · exact ⟨y, hy, howner, hplaced⟩
  · exact ⟨z, hold, howner, hzlife⟩

/-- **A worker that has left its loop has left it for good, and spawns no handler.** -/
theorem Left.step (hi : Inv limit s) (hleft : Left s w) {label : Label} (hstep : s.step label = some s') :
    Left s' w ∧ ∀ h, StartedBy s' w h → StartedBy s w h := by
  cases step_stepped hstep with
  | signal | joined => exact ⟨hleft, fun _ h => h⟩
  | moved v seen phase phase' hv hidle hidle' hkeeps => exact ⟨hleft.goto hv hkeeps, fun _ h => h⟩
  | accepted v seen hv => exact ⟨hleft.goto hv (by simp [Phase.left]), fun _ h => h⟩
  | refused v seen conn semaphore hv => exact ⟨hleft.goto hv (by simp [Phase.left]), fun _ h => h⟩
  | placed v seen conn rest hv =>
      refine ⟨hleft.goto hv (by simp [Phase.left]), fun h hstarted => ?_⟩
      obtain ⟨y, hy, howner, hlife⟩ := hstarted
      rcases Indexed.append_cases hy with hold | ⟨-, rfl⟩
      · exact ⟨y, hold, howner, hlife⟩
      · exact absurd rfl hlife
  | spawned v seen h x hv hx =>
      refine ⟨hleft.goto hv (by simp [Phase.left]), fun h' hstarted => ?_⟩
      obtain ⟨y, hy, howner, hlife⟩ := hstarted
      rcases Indexed.set_cases hy with ⟨-, rfl⟩ | ⟨-, hold⟩
      · -- the handler belongs to the worker that spawns it, which is still in its loop
        obtain ⟨conn, hplaced⟩ := hi.starting.placed v h seen hv
        obtain rfl := Option.some.inj (hx.symm.trans hplaced)
        exact absurd howner (hleft.ne hv rfl)
      · exact ⟨y, hold, howner, hlife⟩
  | lived h x life hx hruns hplaced => exact ⟨hleft, fun _ => startedBy_put hx hplaced⟩
  | released h x ending hx hover => exact ⟨hleft, fun _ => startedBy_put hx (by simp [hover])⟩

theorem run_left {s₀ : State} (hi : Inv limit s) (hleft : Left s w) {labels : List Label}
    (hrun : (system s₀).run s labels = some s') :
    Left s' w ∧ ∀ h, StartedBy s' w h → StartedBy s w h := by
  have hall : Inv limit s' ∧ Left s' w ∧ ∀ h, StartedBy s' w h → StartedBy s w h := by
    refine TransitionSystem.run_invariant
      (I := fun t => Inv limit t ∧ Left t w ∧ ∀ h, StartedBy t w h → StartedBy s w h) ?_ ⟨hi, hleft, fun _ h => h⟩ hrun
    rintro t label t' ⟨hit, hleftt, hback⟩ hstep
    obtain ⟨hleft', hback'⟩ := hleftt.step hit hstep
    exact ⟨hit.step hstep, hleft', fun h hstarted => hback h (hback' h hstarted)⟩
  exact hall.2

end

/-! ## The loop from its start to its return -/

/-- **The accept loop bounds and drains its handlers.** In every state that a run of `accept_loop_with` reaches:

* the free places and the running handlers add up to the limit, so that no more handlers run, and the place of a handler is
  free again once it has come to its end, whatever the end;
* a connection that a worker took is in the hand of one worker, or was given to one handler, or was dropped while as many
  handlers ran as the limit allows, and only one of these;
* a worker that has left its loop will spawn no further handler;
* if the loop has returned, no worker has a connection in hand, and every handler has come to its end and was joined. -/
theorem accept_loop_contract {config : AcceptLoopConfig} {shutdown : Watch} {seen : Nat} {s₀ s : State}
    (hstart : start config shutdown seen = some s₀) {labels : List Label} (hrun : (system s₀).run s₀ labels = some s) :
    (∀ n, config.maxConcurrent = some n → ∃ semaphore, s.semaphore = some semaphore ∧ semaphore.permits + s.running = n) ∧
    (∀ h y ending, s.handlers[h]? = some y → y.life = .over ending →
      ∃ s', s.step (.release h) = some s' ∧ s'.running + 1 = s.running) ∧
    (∀ conn < s.taken, s.deciding conn + s.given conn + s.dropped conn = 1) ∧
    (∀ r ∈ s.refused, config.maxConcurrent = some r.running) ∧
    (∀ w, Left s w → ∀ later s', (system s₀).run s later = some s' → ∀ h, StartedBy s' w h → StartedBy s w h) ∧
    (s.Returned → (∀ conn, s.deciding conn = 0) ∧ ∀ y ∈ s.handlers, y.life = .joined) := by
  have hi := run_inv (start_inv hstart) hrun
  refine ⟨fun n hn => ?_, fun h y ending hy hover => ?_, fun conn hlt => ?_, hi.refused, fun w hleft later s' hlater => ?_,
    fun hreturned => ?_⟩
  · have hplaces := hi.places
    rw [hn] at hplaces
    exact Option.map_eq_some_iff.mp hplaces
  · obtain ⟨owner, conn, life⟩ := y
    obtain rfl : life = .over ending := hover
    refine ⟨s.release h ⟨owner, conn, .ended ending⟩, by simp only [State.step, hy], ?_⟩
    have hrunning := running_put hy ⟨owner, conn, .ended ending⟩
    exact hrunning
  · rw [hi.hands conn, if_pos hlt]
  · exact (run_left hi hleft hlater).2
  · have hfinished : ∀ (w : WorkerId) (x : Worker), s.workers[w]? = some x → x.phase = .finished := by
      intro w x hx
      obtain ⟨seen', hold⟩ := hi.joined w (Nat.lt_of_lt_of_le (Inv.worker_lt hx) hreturned)
      rw [hx] at hold
      exact congrArg Worker.phase (Option.some.inj hold)
    constructor
    · intro conn
      refine List.countP_eq_zero.mpr fun x hx => ?_
      obtain ⟨w, hw⟩ := List.getElem?_of_mem hx
      rw [hfinished w x hw]
      simp
    · intro y hy
      obtain ⟨x, hx⟩ : ∃ x, s.workers[y.worker]? = some x := ⟨_, List.getElem?_eq_getElem (hi.owned y hy)⟩
      obtain ⟨phase, seen'⟩ := x
      obtain rfl : phase = .finished := hfinished y.worker _ hx
      exact hi.finished y.worker seen' hx y hy rfl

/-- Two workers, one place: the second connection is dropped, and the handler of the first does not end by itself. -/
def abortedLabels : List Label :=
  [.enter 0, .enter 1, .accept 0, .accept 1, .acquire 0, .spawn 0, .acquire 1, .poll 0, .send true, .enter 0, .enter 1,
    .timeout 0, .cancel 0, .release 0, .reap 0 0, .close 0, .close 1, .join, .join]

def twoWorkers : State := ⟨⟨false, 0, true⟩, some ⟨1⟩, [⟨.head, 0⟩, ⟨.head, 0⟩], [], 0, [], 0⟩

def drained : State :=
  ⟨⟨true, 1, true⟩, some ⟨1⟩, [⟨.finished, 0⟩, ⟨.finished, 0⟩], [⟨0, 0, .joined⟩], 2, [⟨1, 1⟩], 2⟩

theorem accept_loop_contract_aborted : (system twoWorkers).run twoWorkers abortedLabels = some drained ∧
    (∃ semaphore, drained.semaphore = some semaphore ∧ semaphore.permits + drained.running = 1) ∧
    ∀ y ∈ drained.handlers, y.life = .joined := by
  have hstart : start ⟨2, some 1⟩ ⟨false, 0, true⟩ 0 = some twoWorkers := by decide +kernel
  have hrun : (system twoWorkers).run twoWorkers abortedLabels = some drained := by decide +kernel
  obtain ⟨hplaces, -, -, -, -, hreturned⟩ := accept_loop_contract hstart hrun
  exact ⟨hrun, hplaces 1 rfl, (hreturned (Nat.le_refl 2)).2⟩

end LongshipX.Net.Listener
