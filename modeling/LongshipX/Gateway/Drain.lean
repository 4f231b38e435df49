import LongshipX.Gateway.Connections
import LongshipX.Room.Rest

/-!
# The gateway drains

After the shutdown signal nobody is accepted and no frame is dispatched any more; the read loops return, and the rest
is up to the connections' own tasks and the room service. `wait_until_drained` waits for the registry to be empty.

* `Label.winds` : what may still happen; `Stalls` : which peers and ports do not answer any more; `Label.prompt` : what
happens by itself then;
* `Left` : a bound on what is left to do, which every such step lowers;
* `Drained` : every connection has ended, and nothing is left to do in the rooms;
* `gateway_drains` : how long it takes at most, and that it does not stop before.
-/

namespace LongshipX.Gateway
open Protocol
open Service (CallId Op Within Settled callBudget)

/-! ## What may still happen -/

/-- Every step of a connection but those of its client: nothing is read any more. -/
def ConnLabel.winds : ConnLabel → Bool
  | .bind _ _ => false
  | .dispatch _ => false
  | _ => true

/-- What does not answer any more: a peer that takes no bytes, so that its writer ends only by `write_drain_timeout`, and a
port under a handler, so that its read loop does not return and the task has to be aborted. -/
structure Stalls where
  peer : ConnId → Bool
  port : ConnId → Bool

/-- The steps that happen by themselves, for a connection whose `peer` or whose `port` stalls. -/
def ConnLabel.prompt (peer port : Bool) : ConnLabel → Bool
  | .bind _ _ => false
  | .dispatch _ => false
  | .readLoopReturns => !port
  | .translatorFinishes => false
  | .cleanupTimeout => false
  | .writerEnds => !peer
  | .drainTimeout => peer
  | .abort => port
  | _ => true

/-- What may happen after the signal; `graceful_teardown` closes the rooms meanwhile. -/
def Label.winds : Label → Bool
  | .accept _ => false
  | .conn _ label => label.winds
  | .service label => label.own
  | .closeAll _ => true

/-- What happens by itself: no timeout, no abort and no failure, but where something stalls. -/
def Label.prompt (stalls : Stalls) : Label → Bool
  | .accept _ => false
  | .conn id label => label.prompt (stalls.peer id) (stalls.port id)
  | .service label => label.own
  | .closeAll _ => false

def Label.closes : Label → Nat
  | .closeAll _ => 1
  | _ => 0

/-! ## What is left to do -/

/-- The calls of `leave_all` that a connection may still make: its own, and that of the guard. -/
def Phase.starts : Phase → Nat
  | .reading => 2
  | .dispatching _ => 2
  | .leaving => 2
  | .cleaning _ => 1
  | .tidy => 1
  | .draining => 1
  | .dropping => 1
  | .spawned => 1
  | .sweeping _ => 0
  | .swept => 0
  | .ended => 0

def Phase.ahead : Phase → Nat
  | .dispatching _ => 10
  | .reading => 9
  | .leaving => 8
  | .cleaning _ => 7
  | .tidy => 6
  | .draining => 5
  | .dropping => 4
  | .spawned => 3
  | .sweeping _ => 2
  | .swept => 1
  | .ended => 0

def Deed.starts : Deed → Nat
  | .start _ => 1
  | _ => 0

def World.starts (w : World) : Nat := (w.conns.map fun conn => conn.phase.starts).sum

def World.ahead (w : World) : Nat := (w.conns.map fun conn => conn.phase.ahead).sum

/-- **What is left to do**, if the room service is called no more than `total` times, `closes` times by `close_all`. -/
def Left (closes total : Nat) (w : World) (n : Nat) : Prop :=
  ∃ m, Within w.rooms m ∧ w.rooms.calls.length + w.starts + closes ≤ total ∧
    n + callBudget w.rooms.calls.length = m + callBudget total + w.ahead + closes

/-- **Nothing is left to do**: `active_count` is zero, and every room call is over. -/
structure Drained (w : World) : Prop where
  ended : ∀ conn ∈ w.conns, conn.phase = .ended
  connections : w.connections = ∅
  rooms : Settled w.rooms

section
variable {uuids : Uuids} {config : Service.RoomServiceConfig} {w w' : World} {conn conn' : Conn} {deed : Deed}
  {n closes total : Nat} {stalls : Stalls}

/-! ## A step of a connection -/

/-- A connection has come further, and has spent the call it made. -/
structure Winds (conn : Conn) (deed : Deed) (conn' : Conn) : Prop where
  ahead : conn'.phase.ahead < conn.phase.ahead
  starts : conn'.phase.starts + deed.starts ≤ conn.phase.starts

theorem reading_winds {s : Service.State} {label : ConnLabel} (hlabel : label.winds = true) (hphase : conn.phase = .reading)
    (h : conn.step uuids s label = some (deed, conn')) :
    deed = .idle ∧ (conn'.phase = .leaving ∨ conn'.phase = .dropping) := by
  cases label with
  | bind | dispatch => cases hlabel
  | readLoopReturns | translatorFinishes =>
      simp only [Conn.step, hphase, if_true] at h
      obtain ⟨rfl, rfl⟩ := Prod.mk.inj (Option.some.inj h)
      exact ⟨rfl, Or.inl rfl⟩
  | abort =>
      simp only [Conn.step, hphase] at h
      obtain ⟨rfl, rfl⟩ := Prod.mk.inj (Option.some.inj h)
      exact ⟨rfl, Or.inr rfl⟩
  | resume | cleanupRoom | cleanupReturns | cleanupTimeout | beginDrain | writerEnds | drainTimeout | dropGuard | remove =>
      simp [Conn.step, hphase] at h

/-- **A step of a connection** on its way out. -/
theorem step_winds {s : Service.State} {label : ConnLabel} (hlabel : label.winds = true)
    (h : conn.step uuids s label = some (deed, conn')) : Winds conn deed conn' := by
  by_cases hreading : conn.phase = .reading
  · obtain ⟨rfl, hleft⟩ := reading_winds hlabel hreading h
    refine ⟨?_, ?_⟩
    · rw [hreading]
      rcases hleft with hleft | hleft <;> rw [hleft] <;> decide
    · rw [hreading]
      rcases hleft with hleft | hleft <;> rw [hleft] <;> decide
  · cases step_stepped h with
    | bind _ _ hphase | answer hphase | dispatch _ _ hphase | leave hphase => exact absurd hphase hreading
    | abort hphase =>
        obtain hphase | hphase | hphase | hphase := hphase
        · exact absurd hphase hreading
        all_goals exact ⟨by simp [hphase, Phase.ahead], by simp [hphase, Phase.starts, Deed.starts]⟩
    | abortCall k hphase =>
        obtain hphase | hphase := hphase
        all_goals exact ⟨by simp [hphase, Phase.ahead], by simp [hphase, Phase.starts, Deed.starts]⟩
    | resume _ _ hphase | leaveCall _ hphase | clean _ hphase | sweep _ hphase | cleanNobody hphase | sweepNobody hphase
    | cleaned _ _ hphase | swept _ _ hphase | cleanTimeout _ hphase | sweepTimeout _ hphase | beginDrain hphase
    | drained hphase | spawn hphase | dropped hphase | removed hphase =>
        exact ⟨by simp [hphase, Phase.ahead], by simp [hphase, Phase.starts, Deed.starts]⟩

/-! ## A step of the gateway -/

theorem callBudget_mono {calls calls' : Nat} (h : calls ≤ calls') : callBudget calls ≤ callBudget calls' := by
  unfold callBudget
  exact Nat.add_le_add (Nat.mul_le_mul (Nat.mul_le_mul_left 5 h) h) (Nat.mul_le_mul_left 9 h)

theorem left_of_within {m : Nat} (h : Within w.rooms m) (htotal : w.rooms.calls.length + w.starts + closes ≤ total) :
    Left closes total w (m + (callBudget total - callBudget w.rooms.calls.length) + w.ahead + closes) := by
  have hmono := callBudget_mono (show w.rooms.calls.length ≤ total by omega)
  exact ⟨m, h, htotal, by omega⟩

theorem Left.lower {closes' m m' : Nat} (hleft : n + callBudget w.rooms.calls.length = m + callBudget total + w.ahead + closes)
    (hwithin' : Within w'.rooms m') (htotal' : w'.rooms.calls.length + w'.starts + closes' ≤ total)
    (hpaid : m' + callBudget w.rooms.calls.length + w'.ahead + closes' <
      m + callBudget w'.rooms.calls.length + w.ahead + closes) : ∃ n', n' < n ∧ Left closes' total w' n' := by
  have hmono := callBudget_mono (show w'.rooms.calls.length ≤ total by omega)
  exact ⟨_, by omega, left_of_within hwithin' htotal'⟩

theorem perform_within (config : Service.RoomServiceConfig) {m : Nat} (h : Within w.rooms m) (id : ConnId) (deed : Deed) :
    ∃ m', Within (w.perform config id deed).rooms m' ∧
      (w.perform config id deed).rooms.calls.length = w.rooms.calls.length + deed.starts ∧
      m' + callBudget w.rooms.calls.length ≤ m + callBudget (w.rooms.calls.length + deed.starts) := by
  cases deed with
  | idle | beginDrain | remove => exact ⟨m, h, rfl, Nat.le_refl _⟩
  | start op =>
      have hstep : w.rooms.step config (.start op) = some (w.perform config id (.start op)).rooms := rfl
      have hlength : (w.perform config id (.start op)).rooms.calls.length = w.rooms.calls.length + 1 := List.length_append
      obtain ⟨m', hwithin, hpaid⟩ := h.step hstep
      rw [hlength] at hpaid
      refine ⟨m', hwithin, hlength, ?_⟩
      show m' + _ ≤ m + callBudget (w.rooms.calls.length + 1)
      omega
  | drop k =>
      cases hstep : w.rooms.step config (.cancel k) with
      | none =>
          have hrooms : (w.perform config id (.drop k)).rooms = w.rooms := congrArg (·.getD w.rooms) hstep
          rw [hrooms]
          exact ⟨m, h, rfl, Nat.le_refl _⟩
      | some s' =>
          have hrooms : (w.perform config id (.drop k)).rooms = s' := congrArg (·.getD w.rooms) hstep
          obtain ⟨m', hm, hwithin, hlength⟩ := h.eases (fun op he => by cases he) hstep
          rw [hrooms]
          exact ⟨m', hwithin, hlength, Nat.add_le_add_right hm.le _⟩

/-- **Every step on the way out leaves less to do.** -/
theorem Left.step (h : Left closes total w n) {label : Label} (hlabel : label.winds = true) (hcloses : label.closes ≤ closes)
    (hstep : w.step uuids config label = some w') : ∃ n', n' < n ∧ Left (closes - label.closes) total w' n' := by
  obtain ⟨m, hwithin, htotal, hleft⟩ := h
  cases label with
  | accept => cases hlabel
  | conn id label =>
      simp only [World.step] at hstep
      split at hstep
      · next conn hconn =>
        obtain ⟨⟨deed, conn'⟩, hmoved, rfl⟩ := Option.map_eq_some_iff.mp hstep
        obtain ⟨hahead, hstarts⟩ := step_winds hlabel hmoved
        obtain ⟨m', hwithin', hlength, hpaid⟩ := perform_within config hwithin id deed
        have hsumAhead := Sums.set hconn conn' fun conn => conn.phase.ahead
        have hsumStarts := Sums.set hconn conn' fun conn => conn.phase.starts
        refine Left.lower hleft hwithin' ?_ ?_
        · show (w.perform config id deed).rooms.calls.length + ((w.conns.set id conn').map fun conn => conn.phase.starts).sum +
            closes ≤ total
          unfold World.starts at htotal
          omega
        · show m' + _ + ((w.conns.set id conn').map fun conn => conn.phase.ahead).sum + closes <
            m + callBudget (w.perform config id deed).rooms.calls.length + w.ahead + closes
          rw [hlength]
          unfold World.ahead
          omega
      · cases hstep
  | service label =>
      simp only [World.step] at hstep
      split_ifs at hstep
      obtain ⟨s', hrooms, rfl⟩ := Option.map_eq_some_iff.mp hstep
      obtain ⟨m', hm, hwithin', hlength⟩ := hwithin.eases (Service.own_not_start hlabel) hrooms
      refine Left.lower hleft hwithin' ?_ ?_
      · show s'.calls.length + w.starts + closes ≤ total
        omega
      · show m' + _ + w.ahead + closes < m + callBudget s'.calls.length + w.ahead + closes
        rw [hlength]
        omega
  | closeAll reason =>
      obtain rfl := Option.some.inj hstep
      obtain ⟨m', hwithin', hlength, hpaid⟩ := perform_within config hwithin 0 (.start (.closeAll reason))
      change (w.act config (.start (.closeAll reason))).rooms.calls.length = w.rooms.calls.length + 1 at hlength
      change 1 ≤ closes at hcloses
      refine Left.lower hleft hwithin' ?_ ?_
      · show (w.act config (.start (.closeAll reason))).rooms.calls.length + w.starts + (closes - 1) ≤ total
        omega
      · show m' + _ + w.ahead + (closes - 1) <
          m + callBudget (w.act config (.start (.closeAll reason))).rooms.calls.length + w.ahead + closes
        rw [hlength]
        change m' + _ ≤ m + callBudget (w.rooms.calls.length + 1) at hpaid
        omega

theorem Left.run {labels : List Label} (h : Left closes total w n) (hwinds : ∀ label ∈ labels, label.winds = true)
    (hcloses : (labels.map Label.closes).sum ≤ closes) (hrun : (system uuids config).run w labels = some w') :
    ∃ n', labels.length + n' ≤ n ∧ Left (closes - (labels.map Label.closes).sum) total w' n' := by
  induction labels generalizing w closes n with
  | nil =>
      obtain rfl := Option.some.inj hrun
      exact ⟨n, by simp, h⟩
  | cons label labels ih =>
      obtain ⟨w₁, hstep, hrest⟩ := Option.bind_eq_some_iff.mp hrun
      rw [List.map_cons, List.sum_cons] at hcloses ⊢
      obtain ⟨n₁, hn, h₁⟩ := h.step (hwinds label List.mem_cons_self) (by omega) hstep
      obtain ⟨n', hn', h'⟩ := ih h₁ (fun l hl => hwinds l (List.mem_cons_of_mem _ hl)) (by omega) hrest
      refine ⟨n', by rw [List.length_cons]; omega, ?_⟩
      rwa [← Nat.sub_sub]

/-! ## Where it stops -/

/-- What holds in every reachable state. -/
structure Reached (w : World) : Prop where
  inv : Inv w
  answerable : Service.Answerable w.rooms
  within : ∃ m, Within w.rooms m ∧ m ≤ callBudget w.rooms.calls.length

theorem Reached.of_rooms (config : Service.RoomServiceConfig) (h : Reached w) (hinv : Inv w') (hrooms : w'.rooms = w.rooms ∨
    ∃ label, w.rooms.step config label = some w'.rooms) : Reached w' := by
  obtain hsame | ⟨label, hstep⟩ := hrooms
  · exact ⟨hinv, hsame ▸ h.answerable, hsame ▸ h.within⟩
  · obtain ⟨m, hwithin, hm⟩ := h.within
    obtain ⟨m', hwithin', hpaid⟩ := hwithin.step hstep
    exact ⟨hinv, h.answerable.step h.inv.rooms hstep, m', hwithin', by omega⟩

theorem Reached.step (h : Reached w) {label : Label} (hstep : w.step uuids config label = some w') : Reached w' := by
  refine h.of_rooms config (h.inv.step hstep) ?_
  cases step_taken hstep with
  | accept => exact Or.inl rfl
  | conn id label conn conn' deed =>
      obtain hsame | ⟨label, -, hrooms⟩ := perform_shift config w id deed
      · exact Or.inl hsame
      · exact Or.inr ⟨label, hrooms⟩
  | service label s' _ hrooms => exact Or.inr ⟨label, hrooms⟩
  | closeAll reason s' hrooms => exact Or.inr ⟨_, hrooms⟩

theorem run_reached {labels : List Label} (hrun : (system uuids config).run (system uuids config).init labels = some w) :
    Reached w :=
  TransitionSystem.run_invariant (fun _ _ _ h hstep => h.step hstep)
    ⟨init_inv uuids config, Service.init_answerable config, 0, Service.init_within config, Nat.zero_le _⟩ hrun

theorem own_internal {label : Service.Label} (h : label.own = true) : internal label = true := by
  cases label with
  | start | cancel => cases h
  | next | openRoom | liveHandles | drain | process | perform | hangup | terminate => rfl

theorem Conn.prompt_step (uuids : Uuids) (w : World) (peer port : Bool) (hlive : conn.phase ≠ .ended)
    (hover : ∀ k, conn.phase.call = some k → ∃ c, overAt w.rooms k = some c) :
    ∃ label, label.prompt peer port = true ∧ (conn.step uuids w.rooms label).isSome = true := by
  cases hphase : conn.phase with
  | reading =>
      cases port with
      | false => exact ⟨.readLoopReturns, rfl, by simp [Conn.step, hphase]⟩
      | true => exact ⟨.abort, rfl, by simp [Conn.step, hphase]⟩
  | dispatching k =>
      obtain ⟨c, hc⟩ := hover k (by rw [hphase]; rfl)
      exact ⟨.resume, rfl, by simp [Conn.step, hphase, hc]⟩
  | leaving =>
      refine ⟨.cleanupRoom, rfl, ?_⟩
      obtain ⟨-, hop⟩ | ⟨player, -, hop⟩ := cleanupOp_cases conn.auth <;> simp [Conn.step, hphase, hop]
  | cleaning k =>
      obtain ⟨c, hc⟩ := hover k (by rw [hphase]; rfl)
      exact ⟨.cleanupReturns, rfl, by simp [Conn.step, hphase, hc]⟩
  | tidy => exact ⟨.beginDrain, rfl, by simp [Conn.step, hphase]⟩
  | draining =>
      cases peer with
      | false => exact ⟨.writerEnds, rfl, by simp [Conn.step, hphase]⟩
      | true => exact ⟨.drainTimeout, rfl, by simp [Conn.step, hphase]⟩
  | dropping =>
      refine ⟨.dropGuard, rfl, ?_⟩
      simp only [Conn.step, hphase, if_true]
      split_ifs <;> rfl
  | spawned =>
      refine ⟨.cleanupRoom, rfl, ?_⟩
      obtain ⟨-, hop⟩ | ⟨player, -, hop⟩ := cleanupOp_cases conn.auth <;> simp [Conn.step, hphase, hop]
  | sweeping k =>
      obtain ⟨c, hc⟩ := hover k (by rw [hphase]; rfl)
      exact ⟨.cleanupReturns, rfl, by simp [Conn.step, hphase, hc]⟩
  | swept => exact ⟨.remove, rfl, by simp [Conn.step, hphase]⟩
  | ended => exact absurd hphase hlive

theorem drained_of_rests (h : Reached w) (hcapacity : 0 < config.commandCapacity) (hcalls : w.rooms.calls.length < 2 ^ 128)
    (hrest : (system uuids config).Rests (fun label => label.prompt stalls = true) w) : Drained w := by
  obtain ⟨m, ⟨-, -, ids, hopened, -⟩, -⟩ := h.within
  have hservice : (Service.system config).Rests (fun label => label.own = true) w.rooms := by
    intro label hown
    have hnone : w.step uuids config (.service label) = none := hrest (.service label) hown
    simp only [World.step, own_internal hown, if_true] at hnone
    exact Option.map_eq_none_iff.mp hnone
  have hsettled : Settled w.rooms :=
    Service.settled_of_rests h.inv.rooms h.answerable hcapacity (Service.exists_fresh hopened hcalls) hservice
  have hended : ∀ (id : ConnId) (conn : Conn), w.conns[id]? = some conn → conn.phase = .ended := by
    intro id conn hconn
    by_contra hlive
    obtain ⟨label, hprompt, hsome⟩ := Conn.prompt_step uuids w (stalls.peer id) (stalls.port id) hlive fun k hk => by
      obtain ⟨c, -, hc, -⟩ := (h.inv.owns id conn hconn).calls k ((h.inv.owns id conn hconn).awaited k hk)
      exact ⟨c, Option.filter_eq_some_iff.mpr ⟨hc, hsettled.calls k c hc⟩⟩
    have hnone : w.step uuids config (.conn id label) = none := hrest (.conn id label) hprompt
    simp only [World.step, hconn, Option.map_eq_none_iff] at hnone
    rw [hnone] at hsome
    cases hsome
  refine ⟨fun conn hmem => ?_, ?_, hsettled⟩
  · obtain ⟨id, hconn⟩ := List.mem_iff_getElem?.mp hmem
    exact hended id conn hconn
  · have hnone : ∀ id, id ∉ w.connections := by
      intro id hid
      obtain ⟨conn, hconn, hlive⟩ := (h.inv.listed id).mp hid
      exact hlive (hended id conn hconn)
    refine AList.ext (List.eq_nil_iff_forall_not_mem.mpr fun entry hentry => ?_)
    exact hnone entry.1 (List.mem_keys_of_mem hentry)

theorem rests_of_drained (h : Reached w) (hdrained : Drained w) :
    (system uuids config).Rests (fun label => label.prompt stalls = true) w := by
  intro label hprompt
  rw [Option.eq_none_iff_forall_ne_some]
  intro w' hstep
  replace hstep : w.step uuids config label = some w' := hstep
  cases step_taken hstep with
  | accept | closeAll => cases hprompt
  | conn id label conn conn' deed hconn hstepped => exact hstepped.live (hdrained.ended conn (List.mem_of_getElem? hconn))
  | service label s' _ hrooms =>
      have hnone : w.rooms.step config label = none := Service.rests_of_settled h.inv.rooms hdrained.rooms label hprompt
      rw [hnone] at hrooms
      cases hrooms

/-! ## The whole way -/

theorem Label.winds_of_prompt {label : Label} (h : label.prompt stalls = true) : label.winds = true ∧ label.closes = 0 := by
  cases label with
  | accept | closeAll => cases h
  | service => exact ⟨h, rfl⟩
  | conn id label =>
      refine ⟨?_, rfl⟩
      cases label with
      | bind | dispatch => cases h
      | _ => rfl

theorem closes_of_prompt {labels : List Label} (h : ∀ label ∈ labels, label.prompt stalls = true) :
    (labels.map Label.closes).sum = 0 := by
  refine List.sum_eq_zero fun closes hmem => ?_
  obtain ⟨label, hlabel, rfl⟩ := List.mem_map.mp hmem
  exact (Label.winds_of_prompt (h label hlabel)).2

theorem prompt_ranks (uuids : Uuids) (config : Service.RoomServiceConfig) (stalls : Stalls) (total : Nat) :
    (system uuids config).Ranks (fun label => label.prompt stalls = true) (Left 0 total) := by
  intro w n label w' h hprompt hstep
  obtain ⟨hwinds, hcloses⟩ := Label.winds_of_prompt hprompt
  obtain ⟨n', hn, h'⟩ := h.step hwinds hcloses.le hstep
  exact ⟨n', hn, by rwa [Nat.zero_sub] at h'⟩

theorem starts_le (w : World) : w.starts ≤ 2 * w.conns.length :=
  Sums.le_mul fun conn => by cases conn.phase <;> simp [Phase.starts]

theorem ahead_le (w : World) : w.ahead ≤ 10 * w.conns.length :=
  Sums.le_mul fun conn => by cases conn.phase <;> simp [Phase.ahead]

theorem Left.calls_le (h : Left closes total w n) : w.rooms.calls.length ≤ total := by
  obtain ⟨m, -, htotal, -⟩ := h
  omega

/-- **The gateway drains.** Let the server be told to stop in any reachable state, and from then on let nobody be accepted
and nothing be dispatched, with whatever timeouts, aborts and panics, while `graceful_teardown` may close the rooms.

1. However the tasks are scheduled, there is a bound on their steps.
2. Whatever stalls, they cannot stop before every connection has ended and is out of the registry, and every room call is
over: until then a step is left that needs a timeout only where a peer takes no bytes, and an abort only where a port does
not answer.
3. So they get there. -/
theorem gateway_drains {labels later : List Label} (hcapacity : 0 < config.commandCapacity)
    (hrun : (system uuids config).run (system uuids config).init labels = some w)
    (hwinds : ∀ label ∈ later, label.winds = true) (hlater : (system uuids config).run w later = some w')
    (hcalls : w.rooms.calls.length + 2 * w.conns.length + (later.map Label.closes).sum < 2 ^ 128) :
    later.length ≤ callBudget (w.rooms.calls.length + 2 * w.conns.length + (later.map Label.closes).sum) +
        10 * w.conns.length + (later.map Label.closes).sum ∧
      ∀ stalls, ((∀ label, Label.prompt stalls label = true → w'.step uuids config label = none) ↔ Drained w') ∧
        ∃ last w'', (∀ label ∈ last, label.prompt stalls = true) ∧ (system uuids config).run w' last = some w'' ∧
          Drained w'' := by
  have hreached : Reached w := run_reached hrun
  obtain ⟨m, hwithin, hm⟩ := hreached.within
  have hstarts := starts_le w
  have hahead := ahead_le w
  have hleft : Left (later.map Label.closes).sum
      (w.rooms.calls.length + 2 * w.conns.length + (later.map Label.closes).sum) w _ := left_of_within hwithin (by omega)
  obtain ⟨n, hlength, hleft'⟩ := hleft.run hwinds (Nat.le_refl _) hlater
  rw [Nat.sub_self] at hleft'
  have hreached' : Reached w' := TransitionSystem.run_invariant (fun _ _ _ h hstep => h.step hstep) hreached hlater
  refine ⟨?_, fun stalls => ⟨⟨fun hrest => ?_, rests_of_drained hreached'⟩, ?_⟩⟩
  · have hmono := callBudget_mono (show w.rooms.calls.length ≤
      w.rooms.calls.length + 2 * w.conns.length + (later.map Label.closes).sum by omega)
    omega
  · exact drained_of_rests hreached' hcapacity (hleft'.calls_le.trans_lt hcalls) hrest
  · obtain ⟨last, w'', hprompt, hlast, hrest⟩ := (prompt_ranks uuids config stalls _).exists_rest hleft'
    have hreached'' : Reached w'' := TransitionSystem.run_invariant (fun _ _ _ h hstep => h.step hstep) hreached' hlast
    obtain ⟨n', -, hleft''⟩ := hleft'.run (fun label hlabel => (Label.winds_of_prompt (hprompt label hlabel)).1)
      (closes_of_prompt hprompt).le hlast
    exact ⟨last, w'', hprompt, hlast, drained_of_rests hreached'' hcapacity (hleft''.calls_le.trans_lt hcalls) hrest⟩

end

/-- A bound connection has its `JOIN_ROOM` under way. -/
def joiningLabels : List Label :=
  [.accept 0, .conn 0 (.bind ⟨⟨1⟩, "a"⟩ "t"), .conn 0 (.dispatch (.joinRoom ⟨none⟩)), .service (.openRoom 0 ⟨7⟩)]

/-- A peer that reads no more. -/
def silentPeer : Stalls := ⟨fun id => decide (id = 0), fun _ => false⟩

/-- The rooms are closed while the join is on its way, the translator fails, and the peer reads no more. -/
theorem gateway_drains_joining :
    ∃ w, (system noUuids ⟨16, 4⟩).run (system noUuids ⟨16, 4⟩).init joiningLabels = some w ∧
      ∃ w', (system noUuids ⟨16, 4⟩).run w [.closeAll "bye", .conn 0 .translatorFinishes] = some w' ∧
        ∃ last w'', (∀ label ∈ last, label.prompt silentPeer = true) ∧
          (system noUuids ⟨16, 4⟩).run w' last = some w'' ∧ Drained w'' := by
  refine ⟨_, rfl, _, rfl, ?_⟩
  exact ((@gateway_drains noUuids ⟨16, 4⟩ _ _ joiningLabels [.closeAll "bye", .conn 0 .translatorFinishes]
    (by decide) rfl (by decide) rfl (by decide)).2 silentPeer).2

end LongshipX.Gateway
