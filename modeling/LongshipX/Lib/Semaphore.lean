import LongshipX.Lib.Channel

/-!
# Counting semaphores

A semaphore with a number of free permits, as `tokio::sync::Semaphore` documents it on a 64-bit target. A bounded channel
holds one with as many permits as it has places, so that the two have the same bound.

* `Semaphore.new`, `Channel.bounded` : `none` where the constructor panics;
* `tryAcquire`, `release`;
* `new_isSome_iff`, `bounded_isSome_iff` : which capacities the constructors take.
-/

/-- The free permits. -/
structure Semaphore where
  permits : Nat
  deriving DecidableEq, Repr

namespace Semaphore

/-- `Semaphore::MAX_PERMITS`, which is `usize::MAX >> 3`. -/
def maxPermits : Nat := 18446744073709551615 >>> 3

/-- `Semaphore::new`. -/
def new (permits : Nat) : Option Semaphore := if permits ≤ maxPermits then some ⟨permits⟩ else none

/-- `try_acquire_owned`; `none` when there is no free permit. -/
def tryAcquire (s : Semaphore) : Option Semaphore := if s.permits = 0 then none else some ⟨s.permits - 1⟩

/-- An owned permit is dropped. -/
def release (s : Semaphore) : Semaphore := ⟨s.permits + 1⟩

theorem new_eq_some_iff {permits : Nat} {s : Semaphore} : new permits = some s ↔ permits ≤ maxPermits ∧ s = ⟨permits⟩ := by
  unfold new
  split_ifs with hle
  · rw [Option.some.injEq, eq_comm]
    exact (and_iff_right hle).symm
  · exact iff_of_false (by simp) fun h => hle h.1

theorem new_isSome_iff {permits : Nat} : (new permits).isSome = true ↔ permits ≤ maxPermits := by
  unfold new
  split_ifs with hle
  · exact iff_of_true rfl hle
  · exact iff_of_false (by simp) hle

theorem tryAcquire_eq_some_iff {s s' : Semaphore} : s.tryAcquire = some s' ↔ s.permits = s'.permits + 1 := by
  unfold tryAcquire
  split_ifs with hzero
  · exact iff_of_false (by simp) (by omega)
  · rw [Option.some.injEq]
    constructor
    · rintro rfl
      show s.permits = s.permits - 1 + 1
      omega
    · intro h
      cases s'
      simp only [mk.injEq] at h ⊢
      omega

theorem tryAcquire_eq_none_iff {s : Semaphore} : s.tryAcquire = none ↔ s.permits = 0 := by
  unfold tryAcquire
  split_ifs with hzero
  · exact iff_of_true rfl hzero
  · exact iff_of_false (by simp) hzero

end Semaphore

namespace Channel

/-- `mpsc::channel`. -/
def bounded {α : Type} (capacity : Nat) : Option (Channel α) :=
  if capacity = 0 then none else (Semaphore.new capacity).map fun _ => .new capacity

theorem bounded_isSome_iff {α : Type} {capacity : Nat} :
    (bounded capacity : Option (Channel α)).isSome = true ↔ 1 ≤ capacity ∧ capacity ≤ Semaphore.maxPermits := by
  unfold bounded
  split_ifs with hzero
  · exact iff_of_false (by simp) (by omega)
  · rw [Option.isSome_map, Semaphore.new_isSome_iff]
    exact (and_iff_right (Nat.one_le_iff_ne_zero.mpr hzero)).symm

end Channel
