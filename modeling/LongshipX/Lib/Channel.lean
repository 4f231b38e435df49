import Mathlib.Data.List.Basic

/-!
# Bounded channels

A bounded multi-producer channel with one receiver, as `tokio::sync::mpsc` documents it: `trySend` never
waits, the receiver takes messages in the order in which they went in, and dropping it closes the channel
and discards what was queued. `enqueued` is a history of what ever went in; no operation reads it.

* `trySend_cases`, `recv_some` : what the operations do;
* `map` : the same channel with its messages in another form; `trySend_map`.
-/

structure Channel (α : Type) where
  capacity : Nat
  queue : List α
  receiver : Bool
  enqueued : List α
  deriving DecidableEq, Repr

namespace Channel

variable {α : Type}

inductive TrySendError where
  | full
  | closed
  deriving DecidableEq, Repr

def new (capacity : Nat) : Channel α := ⟨capacity, [], true, []⟩

def trySend (c : Channel α) (x : α) : Except TrySendError Unit × Channel α :=
  if c.receiver = false then (.error .closed, c)
  else if c.capacity ≤ c.queue.length then (.error .full, c)
  else (.ok (), { c with queue := c.queue ++ [x], enqueued := c.enqueued ++ [x] })

/-- The receiver takes the oldest message; `none` while there is none, or no receiver. -/
def recv (c : Channel α) : Option (α × Channel α) :=
  match c.receiver, c.queue with
  | true, x :: rest => some (x, { c with queue := rest })
  | _, _ => none

def dropReceiver (c : Channel α) : Channel α := { c with queue := [], receiver := false }

/-- What a `trySend` leaves in the history. -/
theorem trySend_cases (c : Channel α) (x : α) :
    ((c.trySend x).1 = .ok () ∧ (c.trySend x).2.enqueued = c.enqueued ++ [x]) ∨
      ((c.trySend x).1 ≠ .ok () ∧ (c.trySend x).2 = c) := by
  unfold trySend
  split_ifs
  · exact Or.inr ⟨by simp, rfl⟩
  · exact Or.inr ⟨by simp, rfl⟩
  · exact Or.inl ⟨rfl, rfl⟩

theorem recv_enqueued {c c' : Channel α} {x : α} (h : c.recv = some (x, c')) : c'.enqueued = c.enqueued := by
  unfold recv at h
  split at h
  · obtain ⟨-, rfl⟩ := Prod.mk.inj (Option.some.inj h)
    rfl
  · cases h

/-- What a `recv` took and left. -/
theorem recv_some {c c' : Channel α} {x : α} (h : c.recv = some (x, c')) :
    c.queue = x :: c'.queue ∧ c'.receiver = c.receiver ∧ c'.enqueued = c.enqueued := by
  unfold recv at h
  split at h
  · next hreceiver hqueue =>
    obtain ⟨rfl, rfl⟩ := Prod.mk.inj (Option.some.inj h)
    exact ⟨hqueue, rfl, rfl⟩
  · cases h

theorem recv_eq {c c' : Channel α} {x : α} (h : c.recv = some (x, c')) :
    ∃ rest, c.queue = x :: rest ∧ c.receiver = true ∧ c' = { c with queue := rest } := by
  unfold recv at h
  split at h
  · next rest hreceiver hqueue =>
    obtain ⟨rfl, rfl⟩ := Prod.mk.inj (Option.some.inj h)
    exact ⟨rest, hqueue, hreceiver, rfl⟩
  · cases h

/-! ## Another form of the messages -/

variable {β : Type} {f : α → β}

def map (f : α → β) (c : Channel α) : Channel β := ⟨c.capacity, c.queue.map f, c.receiver, c.enqueued.map f⟩

theorem trySend_map (c : Channel α) (x : α) : (c.map f).trySend (f x) = ((c.trySend x).1, (c.trySend x).2.map f) := by
  unfold trySend
  rw [show (c.map f).receiver = c.receiver from rfl, show (c.map f).capacity = c.capacity from rfl,
    show (c.map f).queue.length = c.queue.length from List.length_map f]
  split_ifs
  · rfl
  · rfl
  · simp only [map, List.map_append, List.map_cons, List.map_nil]

end Channel
