import LongshipX.Gateway.AuthGate
import LongshipX.Lib.Indexed

/-!
# The quota of unauthenticated connections

All connections of a gateway from `Admission::acquire` on: the handshake of `TcpGateway::run`, the tasks of
`handle_admitted_connection`, its cleanup and the end. An `AuthPermit` calls `release` when it is dropped, so a place is
given back in the step that loses the permit: `permit.take()` in the read loop, or the drop of the `Admission` on whatever
way out.

* `Phase`, `Connection`, `State.step` : the connections; `step_cases`;
* `Connection.Ok`, `next_ok` : a connection holds its permit while it is pending; `Inv`, `step_inv` : the accounting;
* `unauth_quota` : the count, the bound, the refusals and the releases in every run.
-/

namespace LongshipX.Quota
open ReadLoop (Conn Instant)

/-! ## All connections -/

/-- How far the handler of a connection is. -/
inductive Phase (β : Type) where
  /-- `Admission::acquire` gave a permit. -/
  | admitted
  /-- With a slot, in the TLS handshake. -/
  | handshaking
  /-- In the `select!` of `handle_admitted_connection`. -/
  | serving (conn : Conn β)
  /-- From there to `drop(admission)`; whether it still holds its permit. -/
  | cleaning (permit : Bool)
  /-- The `Admission` is dropped. -/
  | ended

variable {β : Type}

/-- Whether the `Admission` holds an `AuthPermit`. -/
def Phase.permit : Phase β → Bool
  | .admitted => true
  | .handshaking => true
  | .serving conn => conn.permit
  | .cleaning permit => permit
  | .ended => false

def isAuthed : ReadLoop.Event → Bool
  | .authed _ _ => true
  | _ => false

/-- The dispatch of a successful `BIND` is over: `handle_bind` has called `set_authed` and the read loop is at its top
again. -/
def Phase.bindDone : Phase β → Bool
  | .serving conn => decide (conn.reader = .top) && conn.log.any isAuthed
  | _ => false

def Phase.isEnded : Phase β → Bool
  | .ended => true
  | _ => false

/-- An admitted connection. `bound` is a history: whether the dispatch of a successful `BIND` was ever completed. -/
structure Connection (β : Type) where
  ip : IpAddr
  phase : Phase β
  bound : Bool

/-- Admitted, and neither bound nor ended. -/
def Connection.pending (c : Connection β) : Bool := !c.bound && !c.phase.isEnded

/-- The gate and every connection that was admitted. `released` is a history: which connection gave its place back, and
the count that `release` found. -/
structure State (β : Type) where
  gate : AuthGate
  connections : List (Connection β)
  released : List (Nat × Nat)

/-- Why the handler returns before the connection is served. -/
inductive Early where
  | noSlot
  | shutdown
  | handshakeFailed
  | handshakeTimeout
  deriving DecidableEq, Repr

inductive Label (β : Type) where
  /-- `Admission::acquire`. -/
  | acquire (ip : IpAddr)
  /-- The connection has a slot for its handshake. -/
  | handshake (k : Nat)
  | early (k : Nat) (why : Early)
  /-- The tasks of the connection start, with what `Conn.accept` takes. -/
  | serve (k : Nat) (now deadline : Instant) (utcNow : Int) (bucket : Option β) (capacity : Nat)
  /-- A step of its tasks. -/
  | task (k : Nat) (label : ReadLoop.Label)
  /-- The `select!` is over: one of the tasks has finished. -/
  | finish (k : Nat)
  | dropAdmission (k : Nat)
  /-- The task of the connection is aborted or panics. -/
  | abort (k : Nat)

/-- What becomes of a connection in a step of its own. -/
def Phase.next (setup : ReadLoop.Setup β) (phase : Phase β) (label : Label β) : Option (Phase β) :=
  match phase, label with
  | .admitted, .handshake _ => some .handshaking
  | .admitted, .early _ .noSlot => some .ended
  | .handshaking, .early _ why => if why = .noSlot then none else some .ended
  -- `handle_connection` gets here without a handshake
  | .admitted, .serve _ now deadline utcNow bucket capacity => some (.serving (.accept now deadline utcNow bucket capacity))
  | .handshaking, .serve _ now deadline utcNow bucket capacity => some (.serving (.accept now deadline utcNow bucket capacity))
  | .serving conn, .task _ label => (conn.step setup label).map .serving
  | .serving conn, .finish _ =>
    if conn.reader = .returned ∨ conn.translator = .finished then some (.cleaning conn.permit) else none
  | .cleaning _, .dropAdmission _ => some .ended
  | .ended, _ => none
  | _, .abort _ => some .ended
  | _, _ => none

/-- The connection in its next phase, with its history. -/
def Connection.enter (c : Connection β) (phase : Phase β) : Connection β :=
  { c with phase := phase, bound := c.bound || phase.bindDone }

/-- Connection `k` moves to a phase; a permit that it loses there is released. -/
def State.move (s : State β) (k : Nat) (c : Connection β) (phase : Phase β) : State β :=
  let lost := c.phase.permit && !phase.permit
  { gate := if lost then s.gate.release c.ip else s.gate
    connections := s.connections.set k (c.enter phase)
    released := if lost then s.released ++ [(k, s.gate.unauthCount c.ip)] else s.released }

/-- Which connection a label is of. -/
def Label.subject : Label β → Option Nat
  | .acquire _ => none
  | .handshake k => some k
  | .early k _ => some k
  | .serve k _ _ _ _ _ => some k
  | .task k _ => some k
  | .finish k => some k
  | .dropAdmission k => some k
  | .abort k => some k

def State.step (setup : ReadLoop.Setup β) (s : State β) (label : Label β) : Option (State β) :=
  match label with
  | .acquire ip =>
    if (s.gate.acquire ip).1 then
      some { s with gate := (s.gate.acquire ip).2, connections := s.connections ++ [⟨ip, .admitted, false⟩] }
    else some { s with gate := (s.gate.acquire ip).2 }
  | label => do
    let k ← label.subject
    let c ← s.connections[k]?
    let phase ← c.phase.next setup label
    return s.move k c phase

def system (setup : ReadLoop.Setup β) (maxPerIp : Nat) : TransitionSystem (State β) (Label β) where
  init := ⟨.new maxPerIp, [], []⟩
  step := State.step setup

section
variable {setup : ReadLoop.Setup β} {s s' : State β} {label : Label β} {maxPerIp : Nat}

/-- **What a step can do**: admit a connection, refuse one, or move one that is there. -/
theorem step_cases (h : s.step setup label = some s') :
    (∃ ip, label = .acquire ip ∧ (s.gate.acquire ip).1 = true ∧
      s' = { s with gate := (s.gate.acquire ip).2, connections := s.connections ++ [⟨ip, .admitted, false⟩] }) ∨
    (∃ ip, label = .acquire ip ∧ (s.gate.acquire ip).1 = false ∧ s' = { s with gate := (s.gate.acquire ip).2 }) ∨
    (∃ k c phase, label.subject = some k ∧ s.connections[k]? = some c ∧ c.phase.next setup label = some phase ∧
      s' = s.move k c phase) := by
  cases label with
  | acquire ip =>
      simp only [State.step] at h
      split_ifs at h with hadmitted
      · exact Or.inl ⟨ip, rfl, hadmitted, (Option.some.inj h).symm⟩
      · exact Or.inr (Or.inl ⟨ip, rfl, Bool.eq_false_of_not_eq_true hadmitted, (Option.some.inj h).symm⟩)
  | handshake k | early k why | serve k now deadline utcNow bucket capacity | task k label | finish k | dropAdmission k
  | abort k =>
      obtain ⟨c, hget, hphase⟩ := Option.bind_eq_some_iff.mp h
      obtain ⟨phase, hnext, hmoved⟩ := Option.bind_eq_some_iff.mp hphase
      exact Or.inr (Or.inr ⟨k, c, phase, rfl, hget, hnext, (Option.some.inj hmoved).symm⟩)

/-! ## The invariant -/

/-- A connection holds its permit exactly while it is pending. -/
structure Connection.Ok (c : Connection β) : Prop where
  permit : c.phase.permit = c.pending
  bound : c.phase.bindDone = true → c.bound = true
  gate : ∀ conn, c.phase = .serving conn → ∃ deadline, ReadLoop.Inv deadline conn

theorem bindDone_iff {conn : Conn β} {deadline : Instant} (h : ReadLoop.Inv deadline conn) :
    (Phase.serving conn).bindDone = true ↔ Settled conn := by
  have hauthed : conn.log.any isAuthed = true ↔ conn.auth.isAuthenticated = true := by
    rw [List.any_eq_true]
    constructor
    · rintro ⟨event, hmem, hevent⟩
      cases event with
      | authed player token =>
          rw [Gateway.AuthState.isAuthenticated, (h.base.stored player token hmem).1]
          rfl
      | _ => cases hevent
    · intro hauth
      obtain ⟨player, token, hmem⟩ := h.base.bound hauth
      exact ⟨_, hmem, rfl⟩
  rw [Phase.bindDone, Bool.and_eq_true, decide_eq_true_eq, hauthed, Settled]

theorem ok_ended (c : Connection β) : (c.enter .ended).Ok where
  permit := by simp [Connection.enter, Phase.permit, Connection.pending, Phase.isEnded]
  bound h := nomatch h
  gate conn h := nomatch h

theorem ok_kept {c : Connection β} {phase : Phase β} (hpermit : phase.permit = !c.bound) (hended : phase.isEnded = false)
    (hdone : phase.bindDone = false) (hgate : ∀ conn, phase = .serving conn → ∃ deadline, ReadLoop.Inv deadline conn) :
    (c.enter phase).Ok where
  permit := by simp [Connection.enter, Connection.pending, hpermit, hended, hdone]
  bound h := by rw [show (c.enter phase).phase.bindDone = false from hdone] at h; cases h
  gate := hgate

theorem ok_task {c : Connection β} {conn conn' : Conn β} {event : ReadLoop.Label} (h : c.Ok) (hphase : c.phase = .serving conn)
    (hstep : conn.step setup event = some conn') : (c.enter (.serving conn')).Ok := by
  obtain ⟨deadline, hinv⟩ := h.gate conn hphase
  obtain ⟨task, hmoves, -⟩ := hinv.step hstep
  have hkeeps := step_keeps hstep
  have hpermit : conn.permit = !c.bound := by
    have := h.permit
    rw [Connection.pending, hphase] at this
    simpa [Phase.permit, Phase.isEnded] using this
  refine ⟨?_, fun hdone => ?_, fun other hother => ?_⟩
  · by_cases hdone : Settled conn'
    · have hlost : conn'.permit = false := by
        rcases hkeeps.taken hdone with hfalse | ⟨hbefore, hsame⟩
        · exact hfalse
        · have hbound : c.bound = true := h.bound (hphase ▸ (bindDone_iff hinv).mpr hbefore)
          rw [hsame, hpermit, hbound, Bool.not_true]
      simp [Connection.enter, Connection.pending, Phase.permit, hlost, (bindDone_iff hmoves.inv).mpr hdone]
    · have hopen : (Phase.serving conn').bindDone = false :=
        Bool.eq_false_of_not_eq_true fun hbound => hdone ((bindDone_iff hmoves.inv).mp hbound)
      simp [Connection.enter, Connection.pending, Phase.permit, Phase.isEnded, hopen, hkeeps.kept hdone, hpermit]
  · exact (Bool.or_eq_true _ _).mpr (Or.inr hdone)
  · cases hother
    exact ⟨deadline, hmoves.inv⟩

/-- **The connection of a step stays in order.** -/
theorem next_ok {c : Connection β} {phase : Phase β} (h : c.Ok) (hnext : c.phase.next setup label = some phase) :
    (c.enter phase).Ok := by
  have hpermit := h.permit
  unfold Connection.pending at hpermit
  unfold Phase.next at hnext
  split at hnext
  · next hphase =>
    obtain rfl := Option.some.inj hnext
    rw [hphase] at hpermit
    exact ok_kept (by simpa [Phase.permit, Phase.isEnded] using hpermit) rfl rfl (by simp)
  · obtain rfl := Option.some.inj hnext
    exact ok_ended c
  · split_ifs at hnext
    obtain rfl := Option.some.inj hnext
    exact ok_ended c
  · next hphase =>
    obtain rfl := Option.some.inj hnext
    rw [hphase] at hpermit
    refine ok_kept (by simpa [Phase.permit, Phase.isEnded, Conn.accept] using hpermit) rfl rfl fun conn hconn => ?_
    obtain rfl := Phase.serving.inj hconn
    exact ⟨_, ReadLoop.inv_accept ..⟩
  · next hphase =>
    obtain rfl := Option.some.inj hnext
    rw [hphase] at hpermit
    refine ok_kept (by simpa [Phase.permit, Phase.isEnded, Conn.accept] using hpermit) rfl rfl fun conn hconn => ?_
    obtain rfl := Phase.serving.inj hconn
    exact ⟨_, ReadLoop.inv_accept ..⟩
  · next conn _ event hphase =>
    obtain ⟨conn', hstep, rfl⟩ := Option.map_eq_some_iff.mp hnext
    exact ok_task h hphase hstep
  · next conn _ hphase =>
    split_ifs at hnext
    obtain rfl := Option.some.inj hnext
    rw [hphase] at hpermit
    exact ok_kept (by simpa [Phase.permit, Phase.isEnded] using hpermit) rfl rfl (by simp)
  · obtain rfl := Option.some.inj hnext
    exact ok_ended c
  · cases hnext
  · obtain rfl := Option.some.inj hnext
    exact ok_ended c
  · cases hnext

theorem next_permit {c : Connection β} {phase : Phase β} (h : c.Ok) (hnext : c.phase.next setup label = some phase)
    (hheld : phase.permit = true) : c.phase.permit = true := by
  have hafter := (next_ok h hnext).permit
  rw [show (c.enter phase).phase.permit = true from hheld] at hafter
  have hended : c.phase.isEnded = false := by
    cases hphase : c.phase with
    | ended =>
        rw [hphase] at hnext
        cases label with
        | _ => cases hnext
    | _ => rfl
  rw [h.permit, Connection.pending, hended]
  simp only [Connection.pending, Connection.enter, Bool.not_or, Bool.true_eq, Bool.and_eq_true] at hafter
  rw [hafter.1.1]
  rfl

/-- The connections of an address that hold a permit. -/
def holds (ip : IpAddr) (c : Connection β) : Bool := decide (c.ip = ip) && c.phase.permit

/-- **The accounting**: the gate counts the permits that are held, and every permit that is not held any more was released
once, when the count was not zero. -/
structure Inv (maxPerIp : Nat) (s : State β) : Prop where
  max : s.gate.maxPerIp = maxPerIp
  count : ∀ ip, s.gate.unauthCount ip = s.connections.countP (holds ip)
  le : ∀ ip, s.gate.unauthCount ip ≤ maxPerIp
  ok : ∀ c ∈ s.connections, c.Ok
  once : ∀ k c, s.connections[k]? = some c →
    s.released.countP (fun entry => decide (entry.1 = k)) = if c.phase.permit then 0 else 1
  known : ∀ entry ∈ s.released, entry.1 < s.connections.length
  positive : ∀ entry ∈ s.released, 0 < entry.2

theorem inv_init : Inv maxPerIp (system setup maxPerIp).init where
  max := rfl
  count ip := rfl
  le ip := Nat.zero_le _
  ok c h := nomatch h
  once k c h := by simp [system] at h
  known entry h := nomatch h
  positive entry h := nomatch h

theorem inv_admit {ip : IpAddr} (h : Inv maxPerIp s) (hadmitted : (s.gate.acquire ip).1 = true) :
    Inv maxPerIp { s with gate := (s.gate.acquire ip).2, connections := s.connections ++ [⟨ip, .admitted, false⟩] } where
  max := AuthGate.acquire_maxPerIp.trans h.max
  count other := by
    rw [AuthGate.unauthCount_acquire, List.countP_append, List.countP_singleton, ← h.count]
    by_cases hip : other = ip
    · subst hip
      simp [hadmitted, holds, Phase.permit]
    · simp [hip, Ne.symm hip, holds]
  le other := by
    rw [AuthGate.unauthCount_acquire]
    split_ifs with hboth
    · have hfree : ¬ s.gate.maxPerIp ≤ s.gate.unauthCount ip := fun hfull => by
        rw [AuthGate.acquire_refused.mpr hfull] at hadmitted
        cases hadmitted
      rw [h.max] at hfree
      rw [hboth.1]
      omega
    · exact h.le other
  ok c hc := by
    rcases List.mem_append.mp hc with hold | hnew
    · exact h.ok c hold
    · obtain rfl := List.mem_singleton.mp hnew
      exact ⟨rfl, by simp [Phase.bindDone], by simp⟩
  once k c hget := by
    obtain hold | ⟨hlast, rfl⟩ := Indexed.append_cases hget
    · exact h.once k c hold
    · refine (List.countP_eq_zero.mpr fun entry hentry hk => ?_).trans (if_pos rfl).symm
      have := h.known entry hentry
      rw [of_decide_eq_true hk] at this
      omega
  known entry hentry := by
    have := h.known entry hentry
    simp only [List.length_append, List.length_singleton]
    omega
  positive := h.positive

theorem inv_refuse {ip : IpAddr} (h : Inv maxPerIp s) (hrefused : (s.gate.acquire ip).1 = false) :
    Inv maxPerIp { s with gate := (s.gate.acquire ip).2 } := by
  have hsame : ∀ other, (s.gate.acquire ip).2.unauthCount other = s.gate.unauthCount other := by
    intro other
    rw [AuthGate.unauthCount_acquire, if_neg (by simp [hrefused])]
  refine { h with max := AuthGate.acquire_maxPerIp.trans h.max, count := fun other => ?_, le := fun other => ?_ }
  · exact (hsame other).trans (h.count other)
  · exact (hsame other).trans_le (h.le other)

theorem countP_move {k : Nat} {c : Connection β} (hget : s.connections[k]? = some c) (phase : Phase β) (ip : IpAddr) :
    (s.connections.set k (c.enter phase)).countP (holds ip) + (if holds ip c then 1 else 0) =
      s.connections.countP (holds ip) + (if holds ip (c.enter phase) then 1 else 0) :=
  Indexed.countP_set_of_some hget (holds ip)

theorem move_kept {k : Nat} {c : Connection β} {phase : Phase β} (h : phase.permit = c.phase.permit) :
    s.move k c phase = { s with connections := s.connections.set k (c.enter phase) } := by
  have hkept : (c.phase.permit && !phase.permit) = false := by rw [h, Bool.and_not_self]
  simp only [State.move, hkept, Bool.false_eq_true, if_false]

theorem move_lost {k : Nat} {c : Connection β} {phase : Phase β} (hheld : c.phase.permit = true)
    (hgone : phase.permit = false) : s.move k c phase = ⟨s.gate.release c.ip, s.connections.set k (c.enter phase),
      s.released ++ [(k, s.gate.unauthCount c.ip)]⟩ := by
  simp only [State.move, hheld, hgone, Bool.not_false, Bool.and_self, if_true]

section
variable {k : Nat} {c : Connection β} {phase : Phase β}

theorem ok_set (h : Inv maxPerIp s) (hget : s.connections[k]? = some c) (hnext : c.phase.next setup label = some phase) :
    ∀ d ∈ s.connections.set k (c.enter phase), d.Ok := by
  intro d hd
  rcases List.mem_or_eq_of_mem_set hd with hold | rfl
  · exact h.ok d hold
  · exact next_ok (h.ok c (List.mem_of_getElem? hget)) hnext

theorem inv_kept (h : Inv maxPerIp s) (hget : s.connections[k]? = some c) (hnext : c.phase.next setup label = some phase)
    (hkept : phase.permit = c.phase.permit) : Inv maxPerIp (s.move k c phase) := by
  rw [move_kept hkept]
  refine { h with count := fun ip => ?_, ok := ok_set h hget hnext, once := fun j d hd => ?_, known := fun entry hentry => ?_ }
  · have hsame : holds ip (c.enter phase) = holds ip c := congrArg (decide (c.ip = ip) && ·) hkept
    exact (h.count ip).trans (Indexed.countP_set_same hget hsame).symm
  · obtain ⟨rfl, rfl⟩ | ⟨-, hold⟩ := Indexed.set_cases hd
    · rw [h.once j c hget, show (c.enter phase).phase.permit = c.phase.permit from hkept]
    · exact h.once j d hold
  · rw [List.length_set]
    exact h.known entry hentry

theorem inv_lost (h : Inv maxPerIp s) (hget : s.connections[k]? = some c) (hnext : c.phase.next setup label = some phase)
    (hheld : c.phase.permit = true) (hgone : phase.permit = false) : Inv maxPerIp (s.move k c phase) := by
  have hlt : k < s.connections.length := (List.getElem?_eq_some_iff.mp hget).1
  have hpositive : 0 < s.gate.unauthCount c.ip := by
    rw [h.count]
    exact List.countP_pos_iff.mpr ⟨c, List.mem_of_getElem? hget, by simp [holds, hheld]⟩
  have hcount : ∀ ip, (s.gate.release c.ip).unauthCount ip = (s.connections.set k (c.enter phase)).countP (holds ip) := by
    intro ip
    have hmoved := countP_move hget phase ip
    rw [AuthGate.unauthCount_release]
    have hafter : holds ip (c.enter phase) = false := by simp [holds, Connection.enter, hgone]
    rw [hafter, ← h.count] at hmoved
    split_ifs with hip
    · subst hip
      rw [if_pos (by simp [holds, hheld])] at hmoved
      simp at hmoved
      omega
    · rw [if_neg (by simp [holds, Ne.symm hip])] at hmoved
      simpa using hmoved.symm
  rw [move_lost hheld hgone]
  refine ⟨AuthGate.release_maxPerIp.trans h.max, hcount, fun ip => ?_, ok_set h hget hnext, fun j d hd => ?_,
    fun entry hentry => ?_, fun entry hentry => ?_⟩
  · dsimp only
    have := h.le ip
    rw [AuthGate.unauthCount_release]
    split_ifs
    · omega
    · exact this
  · rw [List.countP_append, List.countP_singleton]
    obtain ⟨rfl, rfl⟩ | ⟨hjk, hold⟩ := Indexed.set_cases hd
    · rw [h.once j c hget, if_pos hheld, if_pos (by simp), show (c.enter phase).phase.permit = false from hgone]
      rfl
    · rw [h.once j d hold]
      simp [Ne.symm hjk]
  · rw [List.length_set]
    rcases List.mem_append.mp hentry with hold | hnew
    · exact h.known entry hold
    · rw [List.mem_singleton.mp hnew]
      exact hlt
  · rcases List.mem_append.mp hentry with hold | hnew
    · exact h.positive entry hold
    · rw [List.mem_singleton.mp hnew]
      exact hpositive

end

/-- **One step keeps the accounting.** -/
theorem step_inv (h : Inv maxPerIp s) (hstep : s.step setup label = some s') : Inv maxPerIp s' := by
  obtain ⟨ip, -, hadmitted, rfl⟩ | ⟨ip, -, hrefused, rfl⟩ | ⟨k, c, phase, -, hget, hnext, rfl⟩ := step_cases hstep
  · exact inv_admit h hadmitted
  · exact inv_refuse h hrefused
  · cases hgone : phase.permit with
    | true =>
        have hheld := next_permit (h.ok c (List.mem_of_getElem? hget)) hnext hgone
        exact inv_kept h hget hnext (hgone.trans hheld.symm)
    | false =>
        cases hheld : c.phase.permit with
        | true => exact inv_lost h hget hnext hheld hgone
        | false => exact inv_kept h hget hnext (hgone.trans hheld.symm)

/-- The address that a label is about. -/
def Label.ip (s : State β) : Label β → Option IpAddr
  | .acquire ip => some ip
  | label => label.subject.bind fun k => (s.connections[k]?).map Connection.ip

theorem step_other {ip : IpAddr} (hstep : s.step setup label = some s') (hother : label.ip s ≠ some ip) :
    s'.gate.unauthCount ip = s.gate.unauthCount ip := by
  obtain ⟨own, rfl, -, rfl⟩ | ⟨own, rfl, -, rfl⟩ | ⟨k, c, phase, hsubject, hget, -, rfl⟩ := step_cases hstep
  · exact (AuthGate.unauthCount_acquire ..).trans (if_neg fun h => hother (congrArg some h.1.symm))
  · exact (AuthGate.unauthCount_acquire ..).trans (if_neg fun h => hother (congrArg some h.1.symm))
  · have hne : ip ≠ c.ip := by
      rintro rfl
      cases label with
      | acquire => cases hsubject
      | _ =>
          obtain rfl := Option.some.inj hsubject
          exact hother (by simp [Label.ip, Label.subject, hget])
    unfold State.move
    dsimp only
    split_ifs
    · exact (AuthGate.unauthCount_release ..).trans (if_neg hne)
    · rfl

/-- **The quota of unauthenticated connections.** After every run, whatever the clients, the handshakes and the stores do:

* the count of an address is the number of its connections that were admitted and have neither completed the dispatch of a
  successful `BIND` nor ended, and is at most `maxPerIp`;
* a connection is refused exactly when the count of its address is `maxPerIp`;
* a connection has given its place back once if it is not pending any more and not at all before, and no release found a
  count of zero;
* a step changes the count of no other address. -/
theorem unauth_quota {labels : List (Label β)}
    (hrun : (system setup maxPerIp).run (system setup maxPerIp).init labels = some s) :
    (∀ ip, s.gate.unauthCount ip = s.connections.countP fun c => decide (c.ip = ip) && c.pending) ∧
    (∀ ip, s.gate.unauthCount ip ≤ maxPerIp) ∧
    (∀ ip s', s.step setup (.acquire ip) = some s' →
      (s'.connections = s.connections ↔ s.gate.unauthCount ip = maxPerIp)) ∧
    (∀ k c, s.connections[k]? = some c →
      s.released.countP (fun entry => decide (entry.1 = k)) = if c.pending then 0 else 1) ∧
    (∀ entry ∈ s.released, 0 < entry.2) ∧
    (∀ label s' ip, s.step setup label = some s' → label.ip s ≠ some ip →
      s'.gate.unauthCount ip = s.gate.unauthCount ip) := by
  have h : Inv maxPerIp s :=
    TransitionSystem.run_invariant (I := Inv maxPerIp) (fun _ _ _ h hstep => step_inv h hstep) inv_init hrun
  refine ⟨fun ip => ?_, h.le, fun ip s' hstep => ?_, fun k c hget => ?_, h.positive, fun label s' ip => step_other⟩
  · rw [h.count]
    refine List.countP_congr fun c hc => ?_
    rw [holds, (h.ok c hc).permit]
  · have hle := h.le ip
    obtain ⟨own, hlabel, hadmitted, rfl⟩ | ⟨own, hlabel, hrefused, rfl⟩ | ⟨k, c, phase, hsubject, -⟩ := step_cases hstep
    · obtain rfl := Label.acquire.inj hlabel
      refine iff_of_false (by simp) fun hfull => ?_
      rw [AuthGate.acquire_refused.mpr (h.max.trans hfull.symm).le] at hadmitted
      cases hadmitted
    · obtain rfl := Label.acquire.inj hlabel
      have hfull := AuthGate.acquire_refused.mp hrefused
      rw [h.max] at hfull
      exact iff_of_true rfl (Nat.le_antisymm hle hfull)
    · cases hsubject
  · rw [h.once k c hget, (h.ok c (List.mem_of_getElem? hget)).permit]

end

/-! ### One place, two connections -/

def localhost : IpAddr := .v4 0x7F000001

/-- The second connection is refused, the first binds; then a third is admitted and gets no slot. -/
def onePlace : List (Label Unit) :=
  [.acquire localhost, .acquire localhost, .handshake 0, .serve 0 0 10 0 none 4, .task 0 .loop,
    .task 0 (.frame ⟨Protocol.opC2sBind, ReadLoop.tokPayload⟩), .task 0 (.resolved (.ok (some ⟨1⟩))),
    .task 0 (.found (.ok (some "a"))), .acquire localhost, .early 1 .noSlot]

theorem onePlace_reached : ((system ReadLoop.tokSetup 1).run (system ReadLoop.tokSetup 1).init onePlace).map
    (fun s => s.connections.map fun c => (c.bound, c.phase.isEnded)) = some [(true, false), (false, true)] := by
  decide +kernel

theorem unauth_quota_one_place : ∃ s, (system ReadLoop.tokSetup 1).run (system ReadLoop.tokSetup 1).init onePlace = some s ∧
    s.gate.unauthCount localhost ≤ 1 ∧ s.released.countP (fun entry => decide (entry.1 = 0)) = 1 ∧
    s.released.countP (fun entry => decide (entry.1 = 1)) = 1 := by
  obtain ⟨s, hrun, hreached⟩ := Option.map_eq_some_iff.mp onePlace_reached
  obtain ⟨-, hle, -, honce, -⟩ := unauth_quota hrun
  obtain ⟨first, rest, hfirst, hbound, hrest⟩ := List.map_eq_cons_iff.mp hreached
  obtain ⟨second, hsecond, hended⟩ := List.map_eq_singleton_iff.mp hrest
  rw [hsecond] at hfirst
  refine ⟨s, hrun, hle localhost, ?_, ?_⟩
  · rw [honce 0 first (by rw [hfirst]; rfl), Connection.pending, (Prod.mk.inj hbound).1]
    rfl
  · rw [honce 1 second (by rw [hfirst]; rfl), Connection.pending, (Prod.mk.inj hended).1, (Prod.mk.inj hended).2]
    rfl

end LongshipX.Quota
