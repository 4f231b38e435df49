import Mathlib.Algebra.Order.Ring.Defs
import Mathlib.Tactic.Linarith
import Mathlib.Tactic.Ring

/-!
# Arrival times under a burst and a rate

A credit grows at a rate `r` and every arrival spends one of it. `Within` says that a credit lasts for a list of arrival
times; `Conforms` that between any two arrivals there are no more than a burst `b` and the rate allow.

* `within_cons`, `conforms_cons` : one arrival;
* `within_min` : the smaller of two credits lasts if both do;
* `Conforms.within` : a burst lasts for arrivals that conform.
-/

namespace Conformance

variable {K : Type*} [CommRing K] [LinearOrder K] {r b v w last t : K} {ts : List K}

/-- The credit `v` of time `last` lasts for the arrivals. -/
def Within (r v last : K) (ts : List K) : Prop :=
  ∀ (j : ℕ) (t : K), ts[j]? = some t → (j : K) + 1 ≤ v + r * (t - last)

/-- From any arrival to any later one, both counted, there are no more than `b` and the rate allow. -/
def Conforms (r b : K) (ts : List K) : Prop :=
  ∀ (i j : ℕ) (s t : K), i ≤ j → ts[i]? = some s → ts[j]? = some t → (j : K) - i + 1 ≤ b + r * (t - s)

theorem within_nil : Within r v last [] := by
  intro j t h
  cases h

theorem conforms_nil : Conforms r b [] := by
  intro i j s t _ h
  cases h

/-- The arrivals after the first conform, and the burst of the first lasts for all of them. -/
theorem conforms_cons : Conforms r b (t :: ts) ↔ Within r b t (t :: ts) ∧ Conforms r b ts := by
  constructor
  · intro h
    refine ⟨fun j u hu => ?_, fun i j s u hij hs hu => ?_⟩
    · simpa using h 0 j t u (Nat.zero_le j) rfl hu
    · simpa using h (i + 1) (j + 1) s u (Nat.succ_le_succ hij) hs hu
  · rintro ⟨hfirst, hrest⟩ i j s u hij hs hu
    cases i with
    | zero =>
        obtain rfl := Option.some.inj hs
        simpa using hfirst j u hu
    | succ i =>
        cases j with
        | zero => cases hij
        | succ j => simpa using hrest i j s u (Nat.le_of_succ_le_succ hij) hs hu

variable [IsStrictOrderedRing K]

/-- The first arrival spends one, and the rest is what the others have. -/
theorem within_cons : Within r v last (t :: ts) ↔ 1 ≤ v + r * (t - last) ∧ Within r (v + r * (t - last) - 1) t ts := by
  constructor
  · intro h
    refine ⟨by simpa using h 0 t rfl, fun j u hu => ?_⟩
    have hlater := h (j + 1) u hu
    push_cast at hlater
    linarith [mul_sub r u last, mul_sub r u t, mul_sub r t last]
  · rintro ⟨hfirst, hrest⟩ j u hu
    cases j with
    | zero =>
        obtain rfl := Option.some.inj hu
        simpa using hfirst
    | succ j =>
        have hlater := hrest j u hu
        push_cast
        linarith [mul_sub r u last, mul_sub r u t, mul_sub r t last]

theorem within_min : Within r (min v w) last ts ↔ Within r v last ts ∧ Within r w last ts := by
  constructor
  · intro h
    refine ⟨fun j u hu => (h j u hu).trans ?_, fun j u hu => (h j u hu).trans ?_⟩
    · linarith [min_le_left v w]
    · linarith [min_le_right v w]
  · rintro ⟨hv, hw⟩ j u hu
    rcases min_choice v w with hmin | hmin
    · rw [hmin]
      exact hv j u hu
    · rw [hmin]
      exact hw j u hu

/-- A burst that is there before the arrivals lasts for them, if they conform. -/
theorem Conforms.within (h : Conforms r b ts) (hr : 0 ≤ r) (hlast : ∀ t ∈ ts, last ≤ t) : Within r b last ts := by
  cases ts with
  | nil => exact within_nil
  | cons t ts =>
      intro j u hu
      have hfirst := (conforms_cons.mp h).1 j u hu
      have hearlier := mul_le_mul_of_nonneg_left (hlast t List.mem_cons_self) hr
      linarith [mul_sub r u last, mul_sub r u t]

end Conformance
