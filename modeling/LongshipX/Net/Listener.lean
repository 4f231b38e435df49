import LongshipX.Lib.Semaphore
import LongshipX.Lib.Transition

/-!
# The accept loop

`accept_loop_with` of `listener.rs`: any number of workers accept connections at the same time, share the semaphore of the
connection places, and keep the handlers they spawned in a `JoinSet` each. One label is one step of a worker, of a handler's
task, of the caller that joins the workers, or of the holder of the shutdown sender; a list of labels is one interleaving.
Time is left out: `timeout` may be taken at any moment of a drain.

* `Phase` : where a worker stands; `Life` : how far a handler has come;
* `State.step`, `start` : the loop, with `start` failing where `Semaphore::new` panics;
* `Stepped`, `step_stepped` : everything one step can do.
-/

namespace LongshipX.Net.Listener

/-- A connection, by its position among all that a transport accept returned to a worker. -/
abbrev ConnId := Nat

abbrev WorkerId := Nat

abbrev HandlerId := Nat

/-- `AcceptLoopConfig`, without the shutdown timeout. -/
structure AcceptLoopConfig where
  acceptConcurrency : Nat
  maxConcurrent : Option Nat
  deriving DecidableEq, Repr

/-- The shutdown channel: its value, how often it was sent, and whether the sender is still there. -/
structure Watch where
  value : Bool
  version : Nat
  sender : Bool
  deriving DecidableEq, Repr

/-- Where a worker stands. -/
inductive Phase where
  /-- before it reads the shutdown value -/
  | head
  /-- in the `select!` around a pending accept -/
  | select
  /-- with a connection, before it asks for a place -/
  | decide (conn : ConnId)
  /-- with a place for this handler, before it spawns it -/
  | start (handler : HandlerId)
  /-- asleep after an accept error -/
  | retry
  | drain
  /-- after `abort_all` -/
  | aborting
  | finished
  deriving DecidableEq, Repr

/-- A worker, with the version of the shutdown channel that its receiver has seen. -/
structure Worker where
  phase : Phase
  seen : Nat
  deriving DecidableEq, Repr

inductive Ending where
  | completed
  | panicked
  | aborted
  deriving DecidableEq, Repr

/-- How far a handler has come. -/
inductive Life where
  /-- it has its place, and its task is about to be spawned -/
  | placed
  | spawned
  | running
  /-- it came to its end, and its permit is about to be dropped -/
  | over (ending : Ending)
  /-- its task is over and waits to be joined -/
  | ended (ending : Ending)
  | joined
  deriving DecidableEq, Repr

/-- A handler runs from the moment its place is taken to the moment it is given back: no await point lies between the one
and its start, or between its end and the other. -/
def Life.runs : Life → Bool
  | .placed | .spawned | .running | .over _ => true
  | .ended _ | .joined => false

/-- The worker that spawned a handler, its connection, and how far it has come. -/
structure Handler where
  worker : WorkerId
  conn : ConnId
  life : Life
  deriving DecidableEq, Repr

/-- A connection that was dropped without a handler; `running` is the number of running handlers at that moment, a history
that no step reads. -/
structure Refusal where
  conn : ConnId
  running : Nat
  deriving DecidableEq, Repr

/-- `joined` counts the workers that the caller has joined; `taken` counts the connections that workers took. -/
structure State where
  shutdown : Watch
  semaphore : Option Semaphore
  workers : List Worker
  handlers : List Handler
  taken : Nat
  refused : List Refusal
  joined : Nat
  deriving DecidableEq, Repr

/-- `accept_loop_with` up to the spawning of the workers; each has a clone of one receiver. -/
def start (config : AcceptLoopConfig) (shutdown : Watch) (seen : Nat) : Option State :=
  let workers := List.replicate (max config.acceptConcurrency 1) ⟨.head, seen⟩
  match config.maxConcurrent with
  | none => some ⟨shutdown, none, workers, [], 0, [], 0⟩
  | some n => (Semaphore.new n).map fun semaphore => ⟨shutdown, some semaphore, workers, [], 0, [], 0⟩

namespace State

/-- The number of running handlers. -/
def running (s : State) : Nat := s.handlers.countP fun x => x.life.runs

/-- The tasks in the `JoinSet` of a worker. -/
def joinSet (s : State) (w : WorkerId) : List Handler :=
  s.handlers.filter fun x => decide (x.worker = w ∧ x.life ≠ .placed ∧ x.life ≠ .joined)

def goto (s : State) (w : WorkerId) (worker : Worker) : State := { s with workers := s.workers.set w worker }

def put (s : State) (h : HandlerId) (handler : Handler) : State := { s with handlers := s.handlers.set h handler }

/-- A connection gets a place, with what is left of the semaphore. -/
def place (s : State) (w : WorkerId) (seen : Nat) (conn : ConnId) (semaphore : Option Semaphore) : State :=
  { s.goto w ⟨.start s.handlers.length, seen⟩ with
    semaphore := semaphore, handlers := s.handlers ++ [⟨w, conn, .placed⟩] }

/-- A connection is dropped. -/
def refuse (s : State) (w : WorkerId) (seen : Nat) (conn : ConnId) : State :=
  { s.goto w ⟨.head, seen⟩ with refused := s.refused ++ [⟨conn, s.running⟩] }

/-- The permit of a handler is dropped with it. -/
def release (s : State) (h : HandlerId) (handler : Handler) : State :=
  { s.put h handler with semaphore := s.semaphore.map Semaphore.release }

end State

/-- Whether the worker reaps in this phase. -/
def Phase.reaps : Phase → Bool
  | .select | .drain | .aborting => true
  | _ => false

/-- Whether the worker has left its accept loop. -/
def Phase.left : Phase → Bool
  | .drain | .aborting | .finished => true
  | _ => false

/-! ## The steps -/

inductive Label where
  /-- The holder of the sender sends a value. -/
  | send (value : Bool)
  | dropSender
  /-- `while !*shutdown.borrow()`. -/
  | enter (w : WorkerId)
  /-- The transport returns a connection to a worker. -/
  | accept (w : WorkerId)
  /-- It returns an error. -/
  | acceptError (w : WorkerId)
  /-- The sleep after an error is over. -/
  | wake (w : WorkerId)
  /-- `shutdown.changed()` is ready. -/
  | changed (w : WorkerId)
  /-- `join_next` returns a task that is over. -/
  | reap (w : WorkerId) (h : HandlerId)
  /-- `try_acquire_owned`. -/
  | acquire (w : WorkerId)
  /-- `handshakes.spawn`. -/
  | spawn (w : WorkerId)
  /-- The task of a handler is polled for the first time. -/
  | poll (h : HandlerId)
  /-- The handler returns, or panics. -/
  | finish (h : HandlerId) (panicked : Bool)
  /-- An aborted task drops its handler. -/
  | cancel (h : HandlerId)
  /-- The task drops its permit and is over. -/
  | release (h : HandlerId)
  /-- The shutdown timeout is over. -/
  | timeout (w : WorkerId)
  /-- `join_next` finds nothing left. -/
  | close (w : WorkerId)
  /-- The caller joins the next worker. -/
  | join
  deriving DecidableEq, Repr

def State.step (s : State) : Label → Option State
  | .send value =>
    if s.shutdown.sender then some { s with shutdown := { s.shutdown with value := value, version := s.shutdown.version + 1 } }
    else none
  | .dropSender => some { s with shutdown := { s.shutdown with sender := false } }
  | .enter w =>
    match s.workers[w]? with
    | some ⟨.head, seen⟩ => some (s.goto w ⟨if s.shutdown.value then .drain else .select, seen⟩)
    | _ => none
  | .accept w =>
    match s.workers[w]? with
    | some ⟨.select, seen⟩ => some { s.goto w ⟨.decide s.taken, seen⟩ with taken := s.taken + 1 }
    | _ => none
  | .acceptError w =>
    match s.workers[w]? with
    | some ⟨.select, seen⟩ => some (s.goto w ⟨.retry, seen⟩)
    | _ => none
  | .wake w =>
    match s.workers[w]? with
    | some ⟨.retry, seen⟩ => some (s.goto w ⟨.head, seen⟩)
    | _ => none
  | .changed w =>
    match s.workers[w]? with
    | some ⟨.select, seen⟩ =>
      -- a new value, or the error of a sender that is gone
      if s.shutdown.version ≠ seen ∨ s.shutdown.sender = false then some (s.goto w ⟨.drain, seen⟩) else none
    | _ => none
  | .reap w h =>
    match s.workers[w]?, s.handlers[h]? with
    | some worker, some ⟨owner, conn, .ended _⟩ =>
      if owner = w ∧ worker.phase.reaps = true then some (s.put h ⟨owner, conn, .joined⟩) else none
    | _, _ => none
  | .acquire w =>
    match s.workers[w]? with
    | some ⟨.decide conn, seen⟩ =>
      match s.semaphore with
      | none => some (s.place w seen conn none)
      | some semaphore =>
        match semaphore.tryAcquire with
        | some rest => some (s.place w seen conn (some rest))
        | none => some (s.refuse w seen conn)
    | _ => none
  | .spawn w =>
    match s.workers[w]? with
    | some ⟨.start h, seen⟩ =>
      match s.handlers[h]? with
      | some handler => some ((s.put h { handler with life := .spawned }).goto w ⟨.head, seen⟩)
      | none => none
    | _ => none
  | .poll h =>
    match s.handlers[h]? with
    | some ⟨owner, conn, .spawned⟩ => some (s.put h ⟨owner, conn, .running⟩)
    | _ => none
  | .finish h panicked =>
    match s.handlers[h]? with
    | some ⟨owner, conn, .running⟩ =>
      some (s.put h ⟨owner, conn, .over (if panicked then .panicked else .completed)⟩)
    | _ => none
  | .cancel h =>
    match s.handlers[h]? with
    | some ⟨owner, conn, life⟩ =>
      if (life = .spawned ∨ life = .running) ∧ s.workers[owner]?.any (fun worker => worker.phase = .aborting) = true then
        some (s.put h ⟨owner, conn, .over .aborted⟩)
      else none
    | none => none
  | .release h =>
    match s.handlers[h]? with
    | some ⟨owner, conn, .over ending⟩ => some (s.release h ⟨owner, conn, .ended ending⟩)
    | _ => none
  | .timeout w =>
    match s.workers[w]? with
    | some ⟨.drain, seen⟩ => some (s.goto w ⟨.aborting, seen⟩)
    | _ => none
  | .close w =>
    match s.workers[w]? with
    | some ⟨phase, seen⟩ =>
      if (phase = .drain ∨ phase = .aborting) ∧ (s.joinSet w).isEmpty = true then some (s.goto w ⟨.finished, seen⟩) else none
    | none => none
  | .join =>
    match s.workers[s.joined]? with
    | some ⟨.finished, _⟩ => some { s with joined := s.joined + 1 }
    | _ => none

/-- The loop from this state on. -/
def system (s : State) : TransitionSystem State Label := ⟨s, State.step⟩

/-- `accept_loop_with` has returned: every worker is joined. -/
def State.Returned (s : State) : Prop := s.workers.length ≤ s.joined

/-! ## What one step does -/

/-- The phases in which a worker has no connection in hand. -/
def Phase.idle : Phase → Bool
  | .decide _ | .start _ => false
  | _ => true

/-- **Everything one step does**: the steps that only move a worker, or only move a handler along, are one case each. -/
inductive Stepped (s : State) : State → Prop where
  | signal (shutdown : Watch) : Stepped s { s with shutdown := shutdown }
  | moved (w : WorkerId) (seen : Nat) (phase phase' : Phase) (hw : s.workers[w]? = some ⟨phase, seen⟩)
      (hidle : phase.idle = true) (hidle' : phase'.idle = true) (hleft : phase.left = true → phase'.left = true)
      (hopen : phase ≠ .finished) (hclose : phase' = .finished → phase.left = true ∧ s.joinSet w = []) :
      Stepped s (s.goto w ⟨phase', seen⟩)
  | accepted (w : WorkerId) (seen : Nat) (hw : s.workers[w]? = some ⟨.select, seen⟩) :
      Stepped s { s.goto w ⟨.decide s.taken, seen⟩ with taken := s.taken + 1 }
  | placed (w : WorkerId) (seen : Nat) (conn : ConnId) (rest : Option Semaphore)
      (hw : s.workers[w]? = some ⟨.decide conn, seen⟩)
      (hpermit : s.semaphore = none ∧ rest = none ∨
        ∃ semaphore left, s.semaphore = some semaphore ∧ semaphore.tryAcquire = some left ∧ rest = some left) :
      Stepped s (s.place w seen conn rest)
  | refused (w : WorkerId) (seen : Nat) (conn : ConnId) (semaphore : Semaphore)
      (hw : s.workers[w]? = some ⟨.decide conn, seen⟩) (hsemaphore : s.semaphore = some semaphore)
      (hfull : semaphore.permits = 0) : Stepped s (s.refuse w seen conn)
  | spawned (w : WorkerId) (seen : Nat) (h : HandlerId) (x : Handler) (hw : s.workers[w]? = some ⟨.start h, seen⟩)
      (hx : s.handlers[h]? = some x) : Stepped s ((s.put h { x with life := .spawned }).goto w ⟨.head, seen⟩)
  | lived (h : HandlerId) (x : Handler) (life : Life) (hx : s.handlers[h]? = some x) (hruns : life.runs = x.life.runs)
      (hplaced : x.life ≠ .placed) (hplaced' : life ≠ .placed) (hjoined : x.life ≠ .joined) :
      Stepped s (s.put h { x with life := life })
  | released (h : HandlerId) (x : Handler) (ending : Ending) (hx : s.handlers[h]? = some x) (hover : x.life = .over ending) :
      Stepped s (s.release h { x with life := .ended ending })
  | joined (seen : Nat) (hw : s.workers[s.joined]? = some ⟨.finished, seen⟩) : Stepped s { s with joined := s.joined + 1 }

/-- A worker that has not left its loop moves, to a phase in which it has no connection in hand. -/
theorem Stepped.inLoop {s : State} {w : WorkerId} {seen : Nat} {phase phase' : Phase}
    (hw : s.workers[w]? = some ⟨phase, seen⟩) (hidle : phase.idle = true) (hidle' : phase'.idle = true)
    (hloop : phase.left = false) (hopen : phase' ≠ .finished) : Stepped s (s.goto w ⟨phase', seen⟩) := by
  refine .moved w seen phase phase' hw hidle hidle' (fun hleft => ?_) ?_ (fun hfinished => absurd hfinished hopen)
  · rw [hloop] at hleft
    cases hleft
  · rintro rfl
    cases hloop

theorem step_stepped {s s' : State} {label : Label} (hstep : s.step label = some s') : Stepped s s' := by
  cases label with
  | send value =>
      simp only [State.step] at hstep
      split_ifs at hstep
      obtain rfl := Option.some.inj hstep
      exact .signal _
  | dropSender =>
      obtain rfl := Option.some.inj hstep
      exact .signal _
  | enter w =>
      simp only [State.step] at hstep
      split at hstep
      · next seen hw =>
          obtain rfl := Option.some.inj hstep
          cases s.shutdown.value with
          | false => exact .inLoop hw rfl rfl rfl (by simp)
          | true => exact .inLoop hw rfl rfl rfl (by simp)
      · cases hstep
  | accept w =>
      simp only [State.step] at hstep
      split at hstep
      · next seen hw =>
          obtain rfl := Option.some.inj hstep
          exact .accepted w seen hw
      · cases hstep
  | acceptError w =>
      simp only [State.step] at hstep
      split at hstep
      · next seen hw =>
          obtain rfl := Option.some.inj hstep
          exact .inLoop hw rfl rfl rfl (by simp)
      · cases hstep
  | wake w =>
      simp only [State.step] at hstep
      split at hstep
      · next seen hw =>
          obtain rfl := Option.some.inj hstep
          exact .inLoop hw rfl rfl rfl (by simp)
      · cases hstep
  | changed w =>
      simp only [State.step] at hstep
      split at hstep
      · next seen hw =>
          split_ifs at hstep
          obtain rfl := Option.some.inj hstep
          exact .inLoop hw rfl rfl rfl (by simp)
      · cases hstep
  | reap w h =>
      simp only [State.step] at hstep
      split at hstep
      · next worker owner conn ending hw hx =>
          split_ifs at hstep
          obtain rfl := Option.some.inj hstep
          exact .lived h _ .joined hx rfl (by simp) (by simp) (by simp)
      · cases hstep
  | acquire w =>
      simp only [State.step] at hstep
      split at hstep
      · next conn seen hw =>
          split at hstep
          · next hsemaphore =>
              obtain rfl := Option.some.inj hstep
              exact .placed w seen conn none hw (Or.inl ⟨hsemaphore, rfl⟩)
          · next semaphore hsemaphore =>
              split at hstep
              · next left hacquire =>
                  obtain rfl := Option.some.inj hstep
                  exact .placed w seen conn (some left) hw (Or.inr ⟨semaphore, left, hsemaphore, hacquire, rfl⟩)
              · next hacquire =>
                  obtain rfl := Option.some.inj hstep
                  exact .refused w seen conn semaphore hw hsemaphore (Semaphore.tryAcquire_eq_none_iff.mp hacquire)
      · cases hstep
  | spawn w =>
      simp only [State.step] at hstep
      split at hstep
      · next h seen hw =>
          split at hstep
          · next x hx =>
              obtain rfl := Option.some.inj hstep
              exact .spawned w seen h x hw hx
          · cases hstep
      · cases hstep
  | poll h =>
      simp only [State.step] at hstep
      split at hstep
      · next owner conn hx =>
          obtain rfl := Option.some.inj hstep
          exact .lived h _ .running hx rfl (by simp) (by simp) (by simp)
      · cases hstep
  | finish h panicked =>
      simp only [State.step] at hstep
      split at hstep
      · next owner conn hx =>
          obtain rfl := Option.some.inj hstep
          exact .lived h _ _ hx rfl (by simp) (by simp) (by simp)
      · cases hstep
  | cancel h =>
      simp only [State.step] at hstep
      split at hstep
      · next owner conn life hx =>
          split_ifs at hstep with hguard
          obtain rfl := Option.some.inj hstep
          rcases hguard.1 with rfl | rfl
          · exact .lived h _ _ hx rfl (by simp) (by simp) (by simp)
          · exact .lived h _ _ hx rfl (by simp) (by simp) (by simp)
      · cases hstep
  | release h =>
      simp only [State.step] at hstep
      split at hstep
      · next owner conn ending hx =>
          obtain rfl := Option.some.inj hstep
          exact .released h _ ending hx rfl
      · cases hstep
  | timeout w =>
      simp only [State.step] at hstep
      split at hstep
      · next seen hw =>
          obtain rfl := Option.some.inj hstep
          exact .moved w seen .drain .aborting hw rfl rfl (by simp [Phase.left]) (by simp) (by simp)
      · cases hstep
  | close w =>
      simp only [State.step] at hstep
      split at hstep
      · next phase seen hw =>
          split_ifs at hstep with hguard
          obtain rfl := Option.some.inj hstep
          have hempty : s.joinSet w = [] := List.isEmpty_iff.mp hguard.2
          rcases hguard.1 with rfl | rfl
          · exact .moved w seen .drain .finished hw rfl rfl (by simp [Phase.left]) (by simp) fun _ => ⟨rfl, hempty⟩
          · exact .moved w seen .aborting .finished hw rfl rfl (by simp [Phase.left]) (by simp) fun _ => ⟨rfl, hempty⟩
      · cases hstep
  | join =>
      simp only [State.step] at hstep
      split at hstep
      · next seen hw =>
          obtain rfl := Option.some.inj hstep
          exact .joined seen hw
      · cases hstep

end LongshipX.Net.Listener
