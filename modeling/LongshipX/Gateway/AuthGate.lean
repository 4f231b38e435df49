import LongshipX.Gateway.Gate
import LongshipX.Lib.AssocMap

/-!
# Places for unauthenticated connections

`AuthGate` of `auth_gate.rs`, and the permit that one connection holds while its tasks run.

* `AuthGate`, `acquire`, `release`, `unauthCount`, and what they do to the count of every address;
* `Keeps`, `step_keeps` : when the tasks of a connection lose its permit.
-/

namespace LongshipX.Quota
open ReadLoop (Conn Instant)

/-! ## `AuthGate` -/

/-- `std::net::IpAddr`. -/
inductive IpAddr where
  | v4 (bits : BitVec 32)
  | v6 (bits : BitVec 128)
  deriving DecidableEq, Repr

structure AuthGate where
  maxPerIp : Nat
  counts : AList fun _ : IpAddr => Nat

namespace AuthGate

def new (maxPerIp : Nat) : AuthGate := ⟨maxPerIp, ∅⟩

def unauthCount (gate : AuthGate) (ip : IpAddr) : Nat := (gate.counts.lookup ip).getD 0

/-- `acquire`; `entry(ip).or_insert(0)` leaves an entry even if the place is refused. -/
def acquire (gate : AuthGate) (ip : IpAddr) : Bool × AuthGate :=
  let count := (gate.counts.lookup ip).getD 0
  if count ≥ gate.maxPerIp then (false, { gate with counts := gate.counts.insert ip count })
  else (true, { gate with counts := gate.counts.insert ip (count + 1) })

/-- `release`, with its saturating subtraction. -/
def release (gate : AuthGate) (ip : IpAddr) : AuthGate :=
  match gate.counts.lookup ip with
  | none => gate
  | some count =>
    if count - 1 = 0 then { gate with counts := gate.counts.erase ip }
    else { gate with counts := gate.counts.insert ip (count - 1) }

variable {gate : AuthGate} {ip other : IpAddr}

theorem acquire_refused : (gate.acquire ip).1 = false ↔ gate.maxPerIp ≤ gate.unauthCount ip := by
  unfold acquire unauthCount
  dsimp only
  split_ifs with hfull
  · exact iff_of_true rfl hfull
  · exact iff_of_false (by simp) hfull

theorem acquire_maxPerIp : (gate.acquire ip).2.maxPerIp = gate.maxPerIp := by
  unfold acquire
  dsimp only
  split_ifs
  · rfl
  · rfl

theorem unauthCount_acquire (gate : AuthGate) (ip other : IpAddr) : (gate.acquire ip).2.unauthCount other =
    if other = ip ∧ (gate.acquire ip).1 = true then gate.unauthCount other + 1 else gate.unauthCount other := by
  have hinsert : ∀ count, unauthCount { gate with counts := gate.counts.insert ip count } other =
      if other = ip then count else gate.unauthCount other := by
    intro count
    unfold unauthCount
    split_ifs with hip
    · subst hip
      simp
    · simp [hip]
  by_cases hfull : gate.unauthCount ip ≥ gate.maxPerIp
  · have hacquire : gate.acquire ip = (false, { gate with counts := gate.counts.insert ip (gate.unauthCount ip) }) :=
      if_pos hfull
    rw [hacquire, hinsert]
    by_cases hip : other = ip
    · simp [hip]
    · simp [hip]
  · have hacquire : gate.acquire ip = (true, { gate with counts := gate.counts.insert ip (gate.unauthCount ip + 1) }) :=
      if_neg hfull
    rw [hacquire, hinsert]
    by_cases hip : other = ip
    · simp [hip]
    · simp [hip]

theorem release_maxPerIp : (gate.release ip).maxPerIp = gate.maxPerIp := by
  unfold release
  split
  · rfl
  · split_ifs
    · rfl
    · rfl

theorem unauthCount_release (gate : AuthGate) (ip other : IpAddr) :
    (gate.release ip).unauthCount other = if other = ip then gate.unauthCount other - 1 else gate.unauthCount other := by
  unfold release unauthCount
  by_cases hip : other = ip
  · subst hip
    rw [if_pos rfl]
    cases hcount : gate.counts.lookup other with
    | none => simp [hcount]
    | some count =>
        dsimp only
        split_ifs with hzero
        · simp [hzero]
        · simp
  · rw [if_neg hip]
    cases hcount : gate.counts.lookup ip with
    | none => rfl
    | some count =>
        dsimp only
        split_ifs with hzero
        · simp [AList.lookup_erase_ne hip]
        · simp [AList.lookup_insert_ne hip]

end AuthGate

/-! ## The permit of one connection -/

section
variable {β : Type} {setup : ReadLoop.Setup β} {c c' : Conn β}
open Protocol Gateway ReadLoop

/-- The read loop is at its top and the connection is authenticated. -/
def Settled (c : Conn β) : Prop := c.reader = .top ∧ c.auth.isAuthenticated = true

theorem permit_answer (c : Conn β) (reply : Answer) : (c.answer reply).1.permit = c.permit := by
  unfold Conn.answer
  split
  all_goals rfl

theorem permit_begun (c : Conn β) (begun : Begun) : (c.begun begun).1.permit = c.permit := by
  cases begun with
  | inl reply => exact permit_answer c reply
  | inr op => rfl

theorem permit_handleBind (c : Conn β) (message : InboundMessage) : (c.handleBind message).1.permit = c.permit := by
  unfold Conn.handleBind
  split
  · dsimp only
    split_ifs
    · exact permit_answer _ _
    · exact permit_answer _ _
    · rfl
  · exact permit_answer _ _

theorem permit_handleGetProfile (c : Conn β) (message : InboundMessage) :
    (c.handleGetProfile message).1.permit = c.permit := by
  unfold Conn.handleGetProfile
  split
  · split
    · exact permit_answer _ _
    · rfl
  · exact permit_answer _ _

theorem permit_dispatch (c : Conn β) (message : InboundMessage) : (c.dispatch setup message).1.permit = c.permit := by
  unfold Conn.dispatch
  split
  · exact permit_answer _ _
  · next handler _ =>
      cases handler with
      | bind => exact permit_handleBind _ message
      | heartbeat => exact permit_answer _ _
      | joinRoom => exact permit_begun _ _
      | leaveRoom => exact permit_begun _ _
      | roomChat => exact permit_begun _ _
      | getProfile => exact permit_handleGetProfile _ message

theorem permit_validated (c : Conn β) (message : InboundMessage) : (c.validated setup message).1.permit = c.permit := by
  unfold Conn.validated
  split_ifs
  · rfl
  · exact permit_dispatch c message

theorem permit_admitFrame (c : Conn β) (frame : Net.Frame) : (c.admitFrame setup frame).1.permit = c.permit := by
  have hacquire : (c.acquire setup).2.permit = c.permit := by
    unfold Conn.acquire
    split
    · rfl
    · rfl
  unfold Conn.admitFrame
  split_ifs
  · exact hacquire
  · split
    · exact hacquire
    · unfold Conn.admitMessage
      split_ifs
      · exact hacquire
      · split
        · exact hacquire
        · exact hacquire
      · exact (permit_validated _ _).trans hacquire

theorem permit_resume {await : Await} {label : ReadLoop.Label} {r : Conn β × Progress}
    (h : c.resume setup await label = some r) : r.1.permit = c.permit := by
  unfold Conn.resume at h
  split at h
  · obtain rfl := Option.some.inj h
    split_ifs
    · exact permit_validated _ _
    · rfl
  · split_ifs at h
    obtain rfl := Option.some.inj h
    rfl
  · obtain rfl := Option.some.inj h
    unfold Conn.resumeBindToken
    split
    · rfl
    · exact permit_answer _ _
    · exact permit_answer _ _
  · obtain rfl := Option.some.inj h
    unfold Conn.resumeBindPlayer
    split
    · exact permit_answer _ _
    · exact permit_answer _ _
    · exact permit_answer _ _
  · obtain ⟨x, -, rfl⟩ := Option.map_eq_some_iff.mp h
    exact permit_answer _ _
  · obtain rfl := Option.some.inj h
    exact permit_answer _ _
  · cases h

/-- What a step of a connection does to its permit: the step that ends the dispatch of a successful `BIND` takes it, every
other step keeps it. -/
structure Keeps (c c' : Conn β) : Prop where
  taken : Settled c' → c'.permit = false ∨ Settled c ∧ c'.permit = c.permit
  kept : ¬ Settled c' → c'.permit = c.permit

theorem keeps_away (hreader : c'.reader ≠ .top) (hpermit : c'.permit = c.permit) : Keeps c c' :=
  ⟨fun hdone => absurd hdone.1 hreader, fun _ => hpermit⟩

theorem keeps_proceed {r : Conn β × Progress} (hpermit : r.1.permit = c.permit) (limit : Option Instant) :
    Keeps c (Conn.proceed limit r) := by
  obtain ⟨d, progress⟩ := r
  cases progress with
  | done proceed =>
      cases proceed with
      | true =>
          refine ⟨fun hdone => Or.inl (if_pos hdone.2), fun hopen => ?_⟩
          exact (if_neg fun hauth => hopen ⟨rfl, hauth⟩).trans hpermit
      | false => exact keeps_away (by simp [Conn.proceed]) hpermit
  | awaits await => exact keeps_away (by simp [Conn.proceed]) hpermit

theorem keeps_same (hreader : c'.reader = c.reader) (hauth : c'.auth = c.auth) (hpermit : c'.permit = c.permit) :
    Keeps c c' := by
  refine ⟨fun hdone => Or.inr ⟨?_, hpermit⟩, fun _ => hpermit⟩
  rw [Settled, hreader, hauth] at hdone
  exact hdone

theorem keeps_farewell (c : Conn β) (message : OutboundMessage) : Keeps c (c.farewell message) :=
  keeps_away (by simp [Conn.farewell]) rfl

theorem select_keeps {deadline : Instant} {label : ReadLoop.Label} (h : c.stepSelect setup deadline label = some c') :
    Keeps c c' := by
  unfold Conn.stepSelect at h
  split at h
  · split_ifs at h
    obtain rfl := Option.some.inj h
    exact keeps_away (by simp) rfl
  · obtain rfl := Option.some.inj h
    exact keeps_away (by simp) rfl
  · obtain rfl := Option.some.inj h
    exact keeps_farewell _ _
  · split_ifs at h
    · obtain rfl := Option.some.inj h
      exact keeps_farewell _ _
    · obtain rfl := Option.some.inj h
      exact keeps_proceed (c := c) (permit_admitFrame (c.note _) _) _
  · obtain rfl := Option.some.inj h
    exact keeps_away (by simp) rfl
  · split_ifs at h
    · obtain rfl := Option.some.inj h
      exact keeps_away (by simp) rfl
    · split at h
      · obtain rfl := Option.some.inj h
        exact keeps_farewell _ _
      · obtain rfl := Option.some.inj h
        exact keeps_farewell _ _
  · split_ifs at h
    obtain rfl := Option.some.inj h
    exact keeps_farewell _ _
  · cases h

theorem reader_keeps {label : ReadLoop.Label} (h : c.stepReader setup label = some c') : Keeps c c' := by
  unfold Conn.stepReader at h
  split at h
  · obtain rfl := Option.some.inj h
    exact keeps_away (by simp) rfl
  · exact select_keeps h
  · split_ifs at h
    obtain rfl := Option.some.inj h
    exact keeps_farewell _ _
  · obtain ⟨r, hresume, rfl⟩ := Option.map_eq_some_iff.mp h
    exact keeps_proceed (permit_resume hresume) _
  · cases h

theorem translator_keeps {label : ReadLoop.Label} (h : c.stepTranslator setup label = some c') : Keeps c c' := by
  unfold Conn.stepTranslator at h
  split at h
  · dsimp only at h
    split at h
    · obtain rfl := Option.some.inj h
      exact keeps_same rfl rfl rfl
    · obtain rfl := Option.some.inj h
      exact keeps_same rfl rfl rfl
  · obtain rfl := Option.some.inj h
    exact keeps_same rfl rfl rfl
  · obtain rfl := Option.some.inj h
    unfold Conn.forward
    dsimp only
    split_ifs
    · exact keeps_same rfl rfl rfl
    · exact keeps_same rfl rfl rfl
    · exact keeps_same rfl rfl rfl
  · split_ifs at h
    obtain rfl := Option.some.inj h
    exact keeps_same rfl rfl rfl
  · cases h

/-- **When the tasks of a connection lose its permit.** -/
theorem step_keeps {label : ReadLoop.Label} (h : c.step setup label = some c') : Keeps c c' := by
  unfold ReadLoop.Conn.step at h
  split at h
  · obtain rfl := Option.some.inj h
    exact keeps_same rfl rfl rfl
  · obtain rfl := Option.some.inj h
    exact keeps_away (by simp) rfl
  · obtain rfl := Option.some.inj h
    exact keeps_same rfl rfl rfl
  · obtain ⟨x, -, rfl⟩ := Option.map_eq_some_iff.mp h
    exact keeps_same rfl rfl rfl
  · obtain rfl := Option.some.inj h
    exact keeps_same rfl rfl rfl
  · obtain rfl := Option.some.inj h
    exact keeps_same rfl rfl rfl
  · obtain rfl := Option.some.inj h
    exact keeps_same rfl rfl rfl
  · exact translator_keeps h
  · exact translator_keeps h
  · exact translator_keeps h
  · exact translator_keeps h
  · exact reader_keeps h

end

end LongshipX.Quota
