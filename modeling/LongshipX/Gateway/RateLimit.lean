import LongshipX.Gateway.ReadLoop
import LongshipX.Lib.Conformance
import Mathlib.Algebra.Order.Group.MinMax
import Mathlib.Algebra.Order.Ring.Rat
import Mathlib.Tactic.GCongr
import Mathlib.Tactic.Positivity

/-!
# The token bucket of a connection

`TokenBucket` of `rate_limit.rs`, with rational numbers for `f64`. Instants are nanoseconds.

* `TokenBucket.new`, `TokenBucket.tryAcquire` : the bucket; `serve` : one request after the other;
* `serve_all_iff` : when all requests are accepted; `serve_count` : how many are at most;
* `token_bucket_conforms` : a new bucket.
-/

namespace LongshipX.Gateway
open Conformance
open ReadLoop (Instant)

/-- `RateLimitSettings`. -/
structure RateLimitSettings where
  enabled : Bool
  perSecond : UInt64
  burst : UInt64
  deriving DecidableEq, Repr

/-- `TokenBucket`; its `f64`s are taken as exact. -/
structure TokenBucket where
  capacity : ℚ
  refillPerSec : ℚ
  tokens : ℚ
  lastRefill : Instant
  deriving DecidableEq, Repr

/-- `Duration::as_secs_f64`, of nanoseconds. -/
def asSecs (nanos : Nat) : ℚ := nanos / 10 ^ 9

namespace TokenBucket

/-- `TokenBucket::new`; `now` is what `Instant::now` said. -/
def new (settings : RateLimitSettings) (now : Instant) : Option TokenBucket :=
  if !settings.enabled || settings.perSecond == 0 || settings.burst == 0 then none
  else some ⟨settings.burst.toNat, settings.perSecond.toNat, settings.burst.toNat, now⟩

/-- `try_acquire`; `Instant::saturating_duration_since` is the subtraction of `Nat`. -/
def tryAcquire (bucket : TokenBucket) (now : Instant) : Bool × TokenBucket :=
  let elapsed := asSecs (now - bucket.lastRefill)
  let tokens := min (bucket.tokens + elapsed * bucket.refillPerSec) bucket.capacity
  if tokens ≥ 1 then (true, { bucket with tokens := tokens - 1, lastRefill := now })
  else (false, { bucket with tokens := tokens, lastRefill := now })

/-- The answers to requests at these times, and the bucket after them. -/
def serve (bucket : TokenBucket) : List Instant → List Bool × TokenBucket
  | [] => ([], bucket)
  | now :: later =>
    let rest := (bucket.tryAcquire now).2.serve later
    ((bucket.tryAcquire now).1 :: rest.1, rest.2)

/-! ## One request -/

section
variable {bucket : TokenBucket} {now : Instant} {times : List Instant}

theorem asSecs_sub {s t : Nat} (h : s ≤ t) : asSecs (t - s) = asSecs t - asSecs s := by
  unfold asSecs
  rw [Nat.cast_sub h, sub_div]

theorem asSecs_mono {s t : Nat} (h : s ≤ t) : asSecs s ≤ asSecs t := by
  unfold asSecs
  gcongr

def refilled (bucket : TokenBucket) (now : Instant) : ℚ :=
  min (bucket.tokens + asSecs (now - bucket.lastRefill) * bucket.refillPerSec) bucket.capacity

theorem refilled_eq (h : bucket.lastRefill ≤ now) : bucket.refilled now =
    min (bucket.tokens + bucket.refillPerSec * (asSecs now - asSecs bucket.lastRefill)) bucket.capacity := by
  unfold refilled
  rw [asSecs_sub h, mul_comm]

theorem tryAcquire_cases (bucket : TokenBucket) (now : Instant) :
    (1 ≤ bucket.refilled now ∧
      bucket.tryAcquire now = (true, { bucket with tokens := bucket.refilled now - 1, lastRefill := now })) ∨
    (bucket.refilled now < 1 ∧
      bucket.tryAcquire now = (false, { bucket with tokens := bucket.refilled now, lastRefill := now })) := by
  by_cases hone : 1 ≤ bucket.refilled now
  · exact Or.inl ⟨hone, if_pos hone⟩
  · exact Or.inr ⟨lt_of_not_ge hone, if_neg hone⟩

/-- The tokens are not below zero and not above the capacity. -/
structure Inv (bucket : TokenBucket) : Prop where
  rate : 0 ≤ bucket.refillPerSec
  nonneg : 0 ≤ bucket.tokens
  le : bucket.tokens ≤ bucket.capacity

theorem Inv.refilled (h : bucket.Inv) (now : Instant) : 0 ≤ bucket.refilled now ∧ bucket.refilled now ≤ bucket.capacity := by
  refine ⟨le_min ?_ (h.nonneg.trans h.le), min_le_right _ _⟩
  have helapsed : 0 ≤ asSecs (now - bucket.lastRefill) := by
    unfold asSecs
    positivity
  exact add_nonneg h.nonneg (mul_nonneg helapsed h.rate)

theorem Inv.tryAcquire (h : bucket.Inv) (now : Instant) : (bucket.tryAcquire now).2.Inv := by
  obtain ⟨hnonneg, hle⟩ := h.refilled now
  obtain ⟨hone, heq⟩ | ⟨-, heq⟩ := bucket.tryAcquire_cases now
  · rw [heq]
    exact ⟨h.rate, sub_nonneg.mpr hone, (sub_le_self _ zero_le_one).trans hle⟩
  · rw [heq]
    exact ⟨h.rate, hnonneg, hle⟩

theorem tryAcquire_capacity (bucket : TokenBucket) (now : Instant) : (bucket.tryAcquire now).2.capacity = bucket.capacity := by
  obtain ⟨-, heq⟩ | ⟨-, heq⟩ := bucket.tryAcquire_cases now <;> rw [heq]

theorem tryAcquire_rate (bucket : TokenBucket) (now : Instant) :
    (bucket.tryAcquire now).2.refillPerSec = bucket.refillPerSec := by
  obtain ⟨-, heq⟩ | ⟨-, heq⟩ := bucket.tryAcquire_cases now <;> rw [heq]

theorem tryAcquire_lastRefill (bucket : TokenBucket) (now : Instant) : (bucket.tryAcquire now).2.lastRefill = now := by
  obtain ⟨-, heq⟩ | ⟨-, heq⟩ := bucket.tryAcquire_cases now <;> rw [heq]

/-! ## One request after the other -/

theorem Inv.serve (h : bucket.Inv) (times : List Instant) : (bucket.serve times).2.Inv := by
  induction times generalizing bucket with
  | nil => exact h
  | cons now later ih => exact ih (h.tryAcquire now)

theorem serve_capacity (bucket : TokenBucket) (times : List Instant) :
    (bucket.serve times).2.capacity = bucket.capacity ∧ (bucket.serve times).2.refillPerSec = bucket.refillPerSec := by
  induction times generalizing bucket with
  | nil => exact ⟨rfl, rfl⟩
  | cons now later ih =>
      obtain ⟨hcapacity, hrate⟩ := ih (bucket.tryAcquire now).2
      exact ⟨hcapacity.trans (bucket.tryAcquire_capacity now), hrate.trans (bucket.tryAcquire_rate now)⟩

theorem serve_take (bucket : TokenBucket) (times : List Instant) (k : ℕ) :
    (bucket.serve times).1.take k = (bucket.serve (times.take k)).1 := by
  induction times generalizing bucket k with
  | nil => simp [serve]
  | cons now later ih =>
      cases k with
      | zero => rfl
      | succ k => simp only [serve, List.take_succ_cons, ih]

theorem serve_drop (bucket : TokenBucket) (times : List Instant) (i : ℕ) :
    (bucket.serve times).1.drop i = ((bucket.serve (times.take i)).2.serve (times.drop i)).1 := by
  induction times generalizing bucket i with
  | nil => simp [serve]
  | cons now later ih =>
      cases i with
      | zero => rfl
      | succ i => simp only [serve, List.drop_succ_cons, List.take_succ_cons, ih]

/-- What is left after a request lasts if both credits would have: the tokens there were and the capacity. -/
theorem within_spent (h : bucket.lastRefill ≤ now) (ts : List ℚ) :
    Within bucket.refillPerSec (bucket.refilled now - 1) (asSecs now) ts ↔
      Within bucket.refillPerSec
          (bucket.tokens + bucket.refillPerSec * (asSecs now - asSecs bucket.lastRefill) - 1) (asSecs now) ts ∧
        Within bucket.refillPerSec (bucket.capacity - 1) (asSecs now) ts := by
  rw [refilled_eq h, ← min_sub_sub_right, within_min]

/-- **All requests are accepted** exactly if the tokens last for them and they conform. -/
theorem serve_all_iff (hsorted : (bucket.lastRefill :: times).Pairwise (· ≤ ·)) :
    (∀ answer ∈ (bucket.serve times).1, answer = true) ↔
      Within bucket.refillPerSec bucket.tokens (asSecs bucket.lastRefill) (times.map asSecs) ∧
        Conforms bucket.refillPerSec bucket.capacity (times.map asSecs) := by
  induction times generalizing bucket with
  | nil => simp [serve, within_nil, conforms_nil]
  | cons now later ih =>
      obtain ⟨hlast, hlater⟩ := List.pairwise_cons.mp hsorted
      have hrefilled := refilled_eq (hlast now List.mem_cons_self)
      have hspent := within_spent (hlast now List.mem_cons_self) (later.map asSecs)
      rw [List.map_cons, within_cons, conforms_cons, within_cons, sub_self, mul_zero, add_zero]
      obtain ⟨hone, heq⟩ | ⟨hless, heq⟩ := bucket.tryAcquire_cases now
      · have hlater' : ((bucket.tryAcquire now).2.lastRefill :: later).Pairwise (· ≤ ·) := by
          rw [heq]
          exact hlater
        have hrest := ih hlater'
        rw [heq] at hrest
        rw [hrefilled, le_min_iff] at hone
        simp only [serve, heq, List.forall_mem_cons, true_and, hone, hrest, hspent, and_assoc]
      · rw [hrefilled, min_lt_iff] at hless
        simp only [serve, heq, List.forall_mem_cons, Bool.false_eq_true, false_and, false_iff]
        rintro ⟨⟨hcredit, -⟩, ⟨hburst, -⟩, -⟩
        rcases hless with hless | hless <;> linarith

/-- **Every accepted request has spent a token**: those there were, or those refilled until `until_`. -/
theorem serve_count (h : bucket.Inv) {until_ : Instant} (hsorted : (bucket.lastRefill :: times).Pairwise (· ≤ ·))
    (hlast : bucket.lastRefill ≤ until_) (huntil : ∀ t ∈ times, t ≤ until_) :
    ((bucket.serve times).1.count true : ℚ) ≤
      bucket.tokens + bucket.refillPerSec * (asSecs until_ - asSecs bucket.lastRefill) := by
  induction times generalizing bucket with
  | nil =>
      have hgrown := mul_nonneg h.rate (sub_nonneg.mpr (asSecs_mono hlast))
      simp only [serve, List.count_nil, Nat.cast_zero]
      exact add_nonneg h.nonneg hgrown
  | cons now later ih =>
      obtain ⟨hbefore, hlater⟩ := List.pairwise_cons.mp hsorted
      have hnow := huntil now List.mem_cons_self
      have hrest := ih (h.tryAcquire now) (by rw [tryAcquire_lastRefill]; exact hlater) (by rwa [tryAcquire_lastRefill])
        (fun t ht => huntil t (List.mem_cons_of_mem _ ht))
      have hrefilled : bucket.refilled now ≤
          bucket.tokens + bucket.refillPerSec * (asSecs now - asSecs bucket.lastRefill) := by
        rw [refilled_eq (hbefore now List.mem_cons_self)]
        exact min_le_left _ _
      obtain ⟨-, heq⟩ | ⟨-, heq⟩ := bucket.tryAcquire_cases now
      · rw [heq] at hrest
        simp only [serve, heq, List.count_cons_self, Nat.cast_add, Nat.cast_one]
        linarith [mul_sub bucket.refillPerSec (asSecs until_) (asSecs now),
          mul_sub bucket.refillPerSec (asSecs now) (asSecs bucket.lastRefill),
          mul_sub bucket.refillPerSec (asSecs until_) (asSecs bucket.lastRefill)]
      · rw [heq] at hrest
        simp only [serve, heq, List.count_cons_of_ne Bool.false_ne_true]
        linarith [mul_sub bucket.refillPerSec (asSecs until_) (asSecs now),
          mul_sub bucket.refillPerSec (asSecs now) (asSecs bucket.lastRefill),
          mul_sub bucket.refillPerSec (asSecs until_) (asSecs bucket.lastRefill)]

theorem serve_count_from (h : bucket.Inv) {until_ : Instant} (hsorted : (now :: times).Pairwise (· ≤ ·))
    (huntil : ∀ t ∈ now :: times, t ≤ until_) :
    ((bucket.serve (now :: times)).1.count true : ℚ) ≤
      bucket.capacity + bucket.refillPerSec * (asSecs until_ - asSecs now) := by
  have hrefilled := (h.refilled now).2
  have hsorted' : ((bucket.tryAcquire now).2.lastRefill :: times).Pairwise (· ≤ ·) := by rwa [tryAcquire_lastRefill]
  have hlast : (bucket.tryAcquire now).2.lastRefill ≤ until_ := by
    rw [tryAcquire_lastRefill]
    exact huntil now List.mem_cons_self
  have hrest := serve_count (h.tryAcquire now) hsorted' hlast fun t ht => huntil t (List.mem_cons_of_mem _ ht)
  obtain ⟨-, heq⟩ | ⟨-, heq⟩ := bucket.tryAcquire_cases now
  · rw [heq] at hrest
    simp only [serve, heq, List.count_cons_self, Nat.cast_add, Nat.cast_one]
    linarith
  · rw [heq] at hrest
    simp only [serve, heq, List.count_cons_of_ne Bool.false_ne_true]
    linarith

theorem slice_le (hsorted : times.Pairwise (· ≤ ·)) {i j : ℕ} (hj : j < times.length) :
    ∀ t ∈ (times.drop i).take (j + 1 - i), t ≤ times[j] := by
  intro t ht
  obtain ⟨k, hk, rfl⟩ := List.mem_iff_getElem.mp ht
  rw [List.length_take, List.length_drop] at hk
  rw [List.getElem_take, List.getElem_drop]
  by_cases heq : i + k = j
  · exact le_of_eq (getElem_congr_idx heq)
  · exact List.pairwise_iff_getElem.mp hsorted _ _ _ hj (by omega)

theorem conforms_iff {r b : ℚ} : Conforms r b (times.map asSecs) ↔
    ∀ i j (_ : i ≤ j) (_ : j < times.length), (j : ℚ) - i + 1 ≤ b + r * (asSecs times[j] - asSecs times[i]) := by
  constructor
  · intro h i j hij hj
    exact h i j _ _ hij (by simp [List.getElem?_eq_getElem (hij.trans_lt hj)]) (by simp [List.getElem?_eq_getElem hj])
  · intro h i j s t hij hs ht
    obtain ⟨hi, rfl⟩ := List.getElem?_eq_some_iff.mp hs
    obtain ⟨hj, rfl⟩ := List.getElem?_eq_some_iff.mp ht
    rw [List.length_map] at hj
    simpa using h i j hij hj

theorem new_enabled {settings : RateLimitSettings} (henabled : settings.enabled = true) (hburst : 1 ≤ settings.burst)
    (hrate : 1 ≤ settings.perSecond) (created : Instant) :
    new settings created = some ⟨settings.burst.toNat, settings.perSecond.toNat, settings.burst.toNat, created⟩ := by
  have hburst' : settings.burst ≠ 0 := by
    rintro hzero
    rw [hzero] at hburst
    exact absurd hburst (by decide)
  have hrate' : settings.perSecond ≠ 0 := by
    rintro hzero
    rw [hzero] at hrate
    exact absurd hrate (by decide)
  simp [new, henabled, hburst', hrate']

/-- **The token bucket.** With a burst and a rate of at least one, and requests in the order of their times after the
bucket was made:

* all requests are accepted exactly if from any of them to any later one, both counted, there are no more than the burst
  and the rate allow;
* accepted or not, of the requests from any of them to any later one no more than that are accepted;
* the tokens are never below zero or above the burst. -/
theorem token_bucket_conforms (settings : RateLimitSettings) (created : Instant) (times : List Instant)
    (henabled : settings.enabled = true) (hburst : 1 ≤ settings.burst) (hrate : 1 ≤ settings.perSecond)
    (hsorted : (created :: times).Pairwise (· ≤ ·)) :
    ∃ bucket, new settings created = some bucket ∧
      ((∀ answer ∈ (bucket.serve times).1, answer = true) ↔
        ∀ i j (_ : i ≤ j) (_ : j < times.length), (j : ℚ) - i + 1 ≤
          settings.burst.toNat + settings.perSecond.toNat * (asSecs times[j] - asSecs times[i])) ∧
      (∀ i j (_ : i ≤ j) (_ : j < times.length), ((((bucket.serve times).1.drop i).take (j + 1 - i)).count true : ℚ) ≤
        settings.burst.toNat + settings.perSecond.toNat * (asSecs times[j] - asSecs times[i])) ∧
      ∀ k, 0 ≤ (bucket.serve (times.take k)).2.tokens ∧ (bucket.serve (times.take k)).2.tokens ≤ settings.burst.toNat := by
  obtain ⟨hcreated, htimes⟩ := List.pairwise_cons.mp hsorted
  have hinv : Inv ⟨settings.burst.toNat, settings.perSecond.toNat, settings.burst.toNat, created⟩ :=
    ⟨Nat.cast_nonneg _, Nat.cast_nonneg _, le_refl _⟩
  refine ⟨_, new_enabled henabled hburst hrate created, ?_, fun i j hij hj => ?_, fun k => ?_⟩
  · rw [serve_all_iff hsorted, ← conforms_iff]
    refine ⟨And.right, fun h => ⟨h.within (Nat.cast_nonneg _) fun t ht => ?_, h⟩⟩
    obtain ⟨time, htime, rfl⟩ := List.mem_map.mp ht
    exact asSecs_mono (hcreated time htime)
  · have hslice : (times.drop i).take (j + 1 - i) = times[i] :: (times.drop (i + 1)).take (j - i) := by
      rw [List.drop_eq_getElem_cons (hij.trans_lt hj), Nat.sub_add_comm hij, List.take_succ_cons]
    have hsliced := htimes.sublist ((List.take_sublist (j + 1 - i) _).trans (List.drop_sublist i times))
    have huntil := slice_le htimes (i := i) hj
    rw [hslice] at hsliced huntil
    have hcount := serve_count_from (hinv.serve (times.take i)) hsliced huntil
    rw [(serve_capacity _ _).1, (serve_capacity _ _).2] at hcount
    rw [serve_drop, serve_take, hslice]
    exact hcount
  · have hafter := hinv.serve (times.take k)
    exact ⟨hafter.nonneg, hafter.le.trans_eq (serve_capacity _ _).1⟩

/-- A burst of five at once; the sixth request is refused. -/
theorem token_bucket_conforms_burst :
    ∃ bucket, new ⟨true, 10, 5⟩ 0 = some bucket ∧ (bucket.serve [0, 0, 0, 0, 0, 0]).1 = [true, true, true, true, true, false] ∧
      ((bucket.serve [0, 0, 0, 0, 0, 0]).1.count true : ℚ) ≤ 5 := by
  obtain ⟨bucket, hnew, -, hcount, -⟩ :=
    token_bucket_conforms ⟨true, 10, 5⟩ 0 [0, 0, 0, 0, 0, 0] rfl (by decide) (by decide) (by decide)
  refine ⟨bucket, hnew, ?_, ?_⟩
  · obtain rfl := Option.some.inj hnew
    decide +kernel
  · have hall := hcount 0 5 (by decide) (by decide)
    rw [List.drop_zero, serve_take] at hall
    simpa [asSecs] using hall

end

end TokenBucket

end LongshipX.Gateway
