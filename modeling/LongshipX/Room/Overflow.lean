import LongshipX.Room.Broadcast

/-!
# A room event sink that overflows

`RoomEventSink` of `sink.rs`, its clones and the receiver of its queue, in any order. `try_send` raises the failure flag
when the queue does not take an event, but does not look at it: a queue that has room again takes the next event.

* `step`, `system` : the clones and the receiver;
* `Heeds` : a `try_send` that does not get an event past a failure; `Faithful` : what the receiver should see;
* `no_event_after_lost_iff` : it sees that, however it goes on taking events, exactly if every `try_send` does.
-/

namespace LongshipX.Broadcast.Overflow
open RoomActor

/-- A sink with its clones and its receiver. `calls` is a history: the event of every `try_send`, and whether the queue
took it; `obtained` what the receiver got. No step reads them. -/
structure State where
  sink : RoomEventSink
  clones : List Bool
  calls : List (RoomEvent × Bool)
  obtained : List RoomEvent
  deriving DecidableEq

inductive Label where
  | clone (k : Nat)
  | dropClone (k : Nat)
  | trySend (k : Nat) (event : RoomEvent)
  | recv
  | dropReceiver
  deriving DecidableEq

def State.alive (s : State) (k : Nat) : Bool := s.clones[k]? == some true

/-- `mpsc::Sender::try_send` returns `Ok`. -/
def State.takes (s : State) (event : RoomEvent) : Bool := (s.sink.tx.trySend event).1.isOk

def State.step (s : State) : Label → Option State
  | .clone k => if s.alive k then some { s with clones := s.clones ++ [true] } else none
  | .dropClone k => if s.alive k then some { s with clones := s.clones.set k false } else none
  | .trySend k event =>
    if s.alive k then some { s with sink := s.sink.trySend event, calls := s.calls ++ [(event, s.takes event)] } else none
  | .recv => s.sink.tx.recv.map fun x =>
    { s with sink := { s.sink with tx := x.2 }, obtained := s.obtained ++ [x.1] }
  | .dropReceiver => some { s with sink := { s.sink with tx := s.sink.tx.dropReceiver } }

/-- `RoomEventSink::from` the sender of a new `mpsc::channel`. -/
def system (capacity : Nat) : TransitionSystem State Label where
  init := ⟨⟨.new capacity, false⟩, [true], [], []⟩
  step := State.step

/-- The events that went into the queue. -/
def accepted (calls : List (RoomEvent × Bool)) : List RoomEvent := (calls.filter fun call => call.2).map Prod.fst

/-- The events obtained are the first ones passed to `try_send`, and all passed before any that was lost. -/
structure State.Faithful (s : State) : Prop where
  front : s.obtained <+: s.calls.map Prod.fst
  before_lost : ∀ before event after, s.calls = before ++ (event, false) :: after → s.obtained.length ≤ before.length

/-- If the sink has failed before, its queue is full or its receiver gone. -/
def Heeds (s : State) : Label → Prop
  | .trySend _ _ =>
    s.sink.failed = true → s.sink.tx.receiver = false ∨ s.sink.tx.capacity ≤ s.sink.tx.queue.length
  | _ => True

instance (s : State) : ∀ label, Decidable (Heeds s label)
  | .trySend _ _ => inferInstanceAs (Decidable (_ → _))
  | .clone _ | .dropClone _ | .recv | .dropReceiver => inferInstanceAs (Decidable True)

/-! ## One step -/

section
variable {capacity : Nat} {s s' : State} {label : Label}

theorem trySend_cases (s : State) (event : RoomEvent) :
    (s.sink.tx.receiver = true ∧ s.sink.tx.queue.length < s.sink.tx.capacity ∧ s.takes event = true ∧
      s.sink.trySend event = { s.sink with tx := { s.sink.tx with
        queue := s.sink.tx.queue ++ [event], enqueued := s.sink.tx.enqueued ++ [event] } }) ∨
    ((s.sink.tx.receiver = false ∨ s.sink.tx.capacity ≤ s.sink.tx.queue.length) ∧ s.takes event = false ∧
      s.sink.trySend event = { s.sink with failed := true }) := by
  unfold State.takes RoomEventSink.trySend Channel.trySend
  by_cases hreceiver : s.sink.tx.receiver = false
  · rw [if_pos hreceiver]
    exact Or.inr ⟨Or.inl hreceiver, rfl, rfl⟩
  · rw [if_neg hreceiver]
    by_cases hfull : s.sink.tx.capacity ≤ s.sink.tx.queue.length
    · rw [if_pos hfull]
      exact Or.inr ⟨Or.inr hfull, rfl, rfl⟩
    · rw [if_neg hfull]
      exact Or.inl ⟨Bool.eq_true_of_not_eq_false hreceiver, Nat.lt_of_not_le hfull, rfl, rfl⟩

theorem accepted_append (calls calls' : List (RoomEvent × Bool)) :
    accepted (calls ++ calls') = accepted calls ++ accepted calls' := by
  simp [accepted]

/-- What every run keeps: the queue holds what was accepted and not obtained, and the flag is up once an event was
lost. -/
structure Inv (s : State) : Prop where
  front : s.obtained <+: accepted s.calls
  queue : s.sink.tx.receiver = true → s.obtained ++ s.sink.tx.queue = accepted s.calls
  failed : s.sink.failed = true ↔ ∃ call ∈ s.calls, call.2 = false

theorem Inv.trySend (h : Inv s) (event : RoomEvent) :
    Inv { s with sink := s.sink.trySend event, calls := s.calls ++ [(event, s.takes event)] } := by
  obtain ⟨hreceiver, -, htakes, hsink⟩ | ⟨-, htakes, hsink⟩ := trySend_cases s event
  · rw [htakes, hsink]
    refine ⟨?_, fun _ => ?_, ?_⟩
    · dsimp only
      rw [accepted_append]
      exact h.front.trans (List.prefix_append _ _)
    · dsimp only
      rw [accepted_append, ← h.queue hreceiver, List.append_assoc]
      rfl
    · simpa using h.failed
  · rw [htakes, hsink]
    have hsame : accepted (s.calls ++ [(event, false)]) = accepted s.calls := by simp [accepted]
    exact ⟨hsame.symm ▸ h.front, fun hreceiver => hsame.symm ▸ h.queue hreceiver, by simp⟩

theorem Inv.step (h : Inv s) (hstep : s.step label = some s') : Inv s' := by
  cases label with
  | clone k | dropClone k =>
      simp only [State.step] at hstep
      split_ifs at hstep
      obtain rfl := Option.some.inj hstep
      exact ⟨h.front, h.queue, h.failed⟩
  | trySend k event =>
      simp only [State.step] at hstep
      split_ifs at hstep
      obtain rfl := Option.some.inj hstep
      exact h.trySend event
  | recv =>
      obtain ⟨⟨event, tx⟩, hrecv, rfl⟩ := Option.map_eq_some_iff.mp hstep
      obtain ⟨hqueue, hreceiver, -⟩ := Channel.recv_some hrecv
      have hopen : s.sink.tx.receiver = true := by
        by_contra hclosed
        simp [Channel.recv, hclosed] at hrecv
      have heq := h.queue hopen
      rw [hqueue] at heq
      refine ⟨?_, fun _ => ?_, h.failed⟩
      · rw [← heq]
        exact ⟨tx.queue, by simp⟩
      · rw [← heq, List.append_assoc]
        rfl
  | dropReceiver =>
      obtain rfl := Option.some.inj hstep
      exact ⟨h.front, fun hreceiver => absurd hreceiver Bool.false_ne_true, h.failed⟩

theorem init_inv (capacity : Nat) : Inv (system capacity).init where
  front := List.prefix_refl _
  queue _ := rfl
  failed := by simp [system]

/-! ## Runs that heed the flag -/

def Sticky (calls : List (RoomEvent × Bool)) : Prop := calls.Pairwise fun earlier later => earlier.2 = false → later.2 = false

theorem Sticky.accepted_prefix {calls : List (RoomEvent × Bool)} (h : Sticky calls) : accepted calls <+: calls.map Prod.fst := by
  induction calls with
  | nil => exact List.prefix_refl _
  | cons call calls ih =>
      obtain ⟨hlater, hrest⟩ := List.pairwise_cons.mp h
      obtain ⟨event, took⟩ := call
      cases took with
      | true => exact (List.prefix_cons_inj event).mpr (ih hrest)
      | false =>
          have hnone : calls.filter (fun call => call.2) = [] := by
            rw [List.filter_eq_nil_iff]
            intro call hcall
            rw [hlater call hcall rfl]
            exact Bool.false_ne_true
          simp [accepted, hnone]

theorem Sticky.length_le {calls before after : List (RoomEvent × Bool)} {event : RoomEvent} (h : Sticky calls)
    (hsplit : calls = before ++ (event, false) :: after) : (accepted calls).length ≤ before.length := by
  subst hsplit
  have hafter := (List.pairwise_cons.mp (List.pairwise_append.mp h).2.1).1
  have hnone : ((event, false) :: after).filter (fun call => call.2) = [] := by
    rw [List.filter_eq_nil_iff]
    intro call hcall
    rcases List.mem_cons.mp hcall with rfl | hcall
    · exact Bool.false_ne_true
    · rw [hafter call hcall rfl]
      exact Bool.false_ne_true
  rw [accepted, List.filter_append, hnone, List.append_nil, List.length_map]
  exact List.length_filter_le _ _

theorem Sticky.step (h : Sticky s.calls) (hinv : Inv s) (hheeds : Heeds s label) (hstep : s.step label = some s') :
    Sticky s'.calls := by
  cases label with
  | trySend k event =>
      simp only [State.step] at hstep
      split_ifs at hstep
      obtain rfl := Option.some.inj hstep
      refine List.pairwise_append.mpr ⟨h, List.pairwise_singleton _ _, fun call hcall later hlater hlost => ?_⟩
      obtain rfl := List.mem_singleton.mp hlater
      have hfailed := hinv.failed.mpr ⟨call, hcall, hlost⟩
      obtain ⟨hreceiver, hroom, -, -⟩ | ⟨-, htakes, -⟩ := trySend_cases s event
      · obtain hgone | hfull := hheeds hfailed
        · cases hreceiver.symm.trans hgone
        · omega
      · exact htakes
  | clone k | dropClone k =>
      simp only [State.step] at hstep
      split_ifs at hstep
      obtain rfl := Option.some.inj hstep
      exact h
  | recv =>
      obtain ⟨x, -, rfl⟩ := Option.map_eq_some_iff.mp hstep
      exact h
  | dropReceiver =>
      obtain rfl := Option.some.inj hstep
      exact h

theorem Inv.faithful (h : Inv s) (hsticky : Sticky s.calls) : s.Faithful where
  front := h.front.trans hsticky.accepted_prefix
  before_lost _ _ _ hsplit := h.front.length_le.trans (hsticky.length_le hsplit)

/-- **Runs that heed the flag** keep both. -/
theorem run_sticky {labels : List Label} (h : Inv s ∧ Sticky s.calls) (hheeds : (system capacity).Along Heeds s labels)
    (hrun : (system capacity).run s labels = some s') : Inv s' ∧ Sticky s'.calls :=
  TransitionSystem.run_induction (I := fun s => Inv s ∧ Sticky s.calls) Heeds
    (fun _ _ _ hs hok hstep => ⟨hs.1.step hstep, hs.2.step hs.1 hok hstep⟩) h hheeds hrun

/-! ## Runs that do not -/

theorem drain (capacity : Nat) {queue : List RoomEvent} (hqueue : s.sink.tx.queue = queue)
    (hreceiver : s.sink.tx.receiver = true) :
    ∃ s', (system capacity).run s (List.replicate queue.length .recv) = some s' ∧
      s'.obtained = s.obtained ++ queue ∧ s'.calls = s.calls := by
  induction queue generalizing s with
  | nil => exact ⟨s, rfl, (List.append_nil _).symm, rfl⟩
  | cons event rest ih =>
      have hrecv : s.sink.tx.recv = some (event, { s.sink.tx with queue := rest }) := by
        simp [Channel.recv, hreceiver, hqueue]
      have hstep : s.step .recv = some { s with
          sink := { s.sink with tx := { s.sink.tx with queue := rest } }, obtained := s.obtained ++ [event] } := by
        simp only [State.step, hrecv, Option.map_some]
      obtain ⟨s', hrun, hobtained, hcalls⟩ := ih (s := { s with
          sink := { s.sink with tx := { s.sink.tx with queue := rest } }, obtained := s.obtained ++ [event] }) rfl hreceiver
      refine ⟨s', ?_, by rw [hobtained, List.append_assoc]; rfl, hcalls⟩
      rw [List.length_cons, List.replicate_succ, TransitionSystem.run]
      exact Option.bind_eq_some_iff.mpr ⟨_, hstep, hrun⟩

theorem first_lost {calls : List (RoomEvent × Bool)} (h : ∃ call ∈ calls, call.2 = false) :
    ∃ before event after, calls = before ++ (event, false) :: after ∧ before.length ≤ (accepted calls).length := by
  induction calls with
  | nil =>
      obtain ⟨call, hcall, -⟩ := h
      cases hcall
  | cons call calls ih =>
      obtain ⟨event, took⟩ := call
      cases took with
      | false => exact ⟨[], event, calls, rfl, Nat.zero_le _⟩
      | true =>
          obtain ⟨lost, hlost, hfalse⟩ := h
          rcases List.mem_cons.mp hlost with rfl | hlost
          · cases hfalse
          · obtain ⟨before, event', after, rfl, hle⟩ := ih ⟨lost, hlost, hfalse⟩
            exact ⟨(event, true) :: before, event', after, rfl, Nat.succ_le_succ hle⟩

/-- **An event gets past a failure**: the receiver can obtain it, although one before it was lost. -/
theorem unheeded (capacity : Nat) (hinv : Inv s) (hstep : s.step label = some s') (hunheeded : ¬ Heeds s label) :
    ∃ rest t, (∀ l ∈ rest, l = .recv) ∧ (system capacity).run s' rest = some t ∧ ¬ t.Faithful := by
  cases label with
  | clone | dropClone | recv | dropReceiver => exact absurd trivial hunheeded
  | trySend k event =>
      simp only [Heeds, not_forall, not_or] at hunheeded
      obtain ⟨hfailed, hreceiver, hroom⟩ := hunheeded
      simp only [State.step] at hstep
      split_ifs at hstep
      obtain rfl := Option.some.inj hstep
      obtain ⟨hopen, -, htakes, hsink⟩ | ⟨hgone | hfull, -, -⟩ := trySend_cases s event
      · have hqueue : (s.sink.trySend event).tx.queue = s.sink.tx.queue ++ [event] := by rw [hsink]
        have hreceiver' : (s.sink.trySend event).tx.receiver = true := by
          rw [hsink]
          exact hopen
        obtain ⟨t, hrun, hobtained, hcalls⟩ := drain capacity (s := { s with
          sink := s.sink.trySend event, calls := s.calls ++ [(event, s.takes event)] }) hqueue hreceiver'
        refine ⟨_, t, fun l hl => (List.mem_replicate.mp hl).2, hrun, fun hfaithful => ?_⟩
        obtain ⟨before, lost, after, hsplit, hle⟩ := first_lost (hinv.failed.mp hfailed)
        have hbound := hfaithful.before_lost before lost (after ++ [(event, s.takes event)])
          (by rw [hcalls, hsplit, List.append_assoc, List.cons_append])
        dsimp only at hobtained
        have hall := congrArg List.length (hinv.queue hopen)
        rw [List.length_append] at hall
        rw [hobtained, ← List.append_assoc, List.length_append, List.length_append, List.length_singleton] at hbound
        omega
      · exact absurd hgone hreceiver
      · exact absurd hfull hroom

/-- **No room event is obtained after a lost one**, at any moment of a run and however the receiver goes on taking events,
exactly if every `try_send` of the run on a sink that has failed finds its queue full or its receiver gone. -/
theorem no_event_after_lost_iff (capacity : Nat) {labels : List Label} {t : State}
    (hrun : (system capacity).run (system capacity).init labels = some t) :
    (∀ before rest s, before <+: labels → (∀ label ∈ rest, label = .recv) →
      (system capacity).run (system capacity).init (before ++ rest) = some s → s.Faithful) ↔
    (system capacity).Along Heeds (system capacity).init labels := by
  constructor
  · intro hfaithful
    refine TransitionSystem.along_of_prefixes fun before label after s hlabels hbefore => ?_
    subst hlabels
    by_contra hunheeded
    have hinv := TransitionSystem.run_invariant (fun _ _ _ h hstep => h.step hstep) (init_inv capacity) hbefore
    rw [TransitionSystem.run_append, hbefore, Option.bind_some] at hrun
    obtain ⟨s', hstep, -⟩ := Option.bind_eq_some_iff.mp hrun
    obtain ⟨rest, u, hrest, hdrained, hnot⟩ := unheeded capacity hinv hstep hunheeded
    refine hnot (hfaithful (before ++ [label]) rest u (by simp) hrest ?_)
    rw [TransitionSystem.run_append, TransitionSystem.run_concat.mpr ⟨s, hbefore, hstep⟩, Option.bind_some]
    exact hdrained
  · rintro hheeds before rest s ⟨after, rfl⟩ hrest hs
    rw [TransitionSystem.run_append, Option.bind_eq_some_iff] at hs
    obtain ⟨u, hbefore, hrest'⟩ := hs
    obtain ⟨hfront, -⟩ := TransitionSystem.along_append hheeds hbefore
    have hu := run_sticky ⟨init_inv capacity, List.Pairwise.nil⟩ hfront hbefore
    have hdraining : (system capacity).Along Heeds u rest := by
      refine TransitionSystem.along_of_forall (fun label hlabel s => ?_) u
      obtain rfl := hrest label hlabel
      exact trivial
    have hs := run_sticky hu hdraining hrest'
    exact hs.1.faithful hs.2

def closing (reason : String) : RoomEvent := .closed ⟨7⟩ reason

/-- A queue of one: the second event is lost, and so is the third while the first is still queued. -/
theorem no_event_after_lost_full : ∃ s,
    (system 1).run (system 1).init
      [.trySend 0 (closing "a"), .trySend 0 (closing "b"), .trySend 0 (closing "c"), .recv] = some s ∧ s.Faithful := by
  refine ⟨_, rfl, (@no_event_after_lost_iff 1 [.trySend 0 (closing "a"), .trySend 0 (closing "b"),
    .trySend 0 (closing "c"), .recv] _ rfl).mpr (by decide) _ [] _ (List.prefix_refl _) (by simp) rfl⟩

/-- The second event is lost, the receiver takes the first, and the third gets through: the receiver obtains the first
and the third. -/
theorem event_after_lost : ∃ s,
    (system 1).run (system 1).init
      [.trySend 0 (closing "a"), .trySend 0 (closing "b"), .recv, .trySend 0 (closing "c"), .recv] = some s ∧
    s.obtained = [closing "a", closing "c"] ∧ ¬ s.obtained <+: s.calls.map Prod.fst := by
  refine ⟨_, rfl, rfl, ?_⟩
  decide

end

end LongshipX.Broadcast.Overflow
