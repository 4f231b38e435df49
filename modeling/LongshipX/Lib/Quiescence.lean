import LongshipX.Lib.Transition
import Mathlib.Data.BitVec
import Mathlib.Data.Fintype.Card
import Mathlib.Algebra.BigOperators.Group.Finset.Basic
import Mathlib.Algebra.BigOperators.Group.List.Basic
import Mathlib.Tactic.Ring

/-!
# Runs that come to rest

Labels of one kind can be taken only so often: a ranking bounds the runs from a state, and each such label
lowers the bound. A system with a ranking comes to rest, and what rest means is then a question about one state.

* `Ranks` : the bound and the rule for one step;
* `Ranks.length_le` : no run is longer than the bound;
* `Ranks.exists_rest` : some run ends where no label of the kind is enabled;
* `run_length_le` : the same with a budget that some steps add to.

Rankings are sums; `Sums` has what is needed of them, and `exists_fresh` that few bit vectors are not all.
-/

namespace TransitionSystem

variable {σ α : Type*} {T : TransitionSystem σ α} {ok : α → Prop} {B : σ → Nat → Prop} {s t : σ} {n : Nat}

/-- `B s n` says that `n` bounds what `s` has still to do: a label of the kind leads to a lower bound. -/
def Ranks (T : TransitionSystem σ α) (ok : α → Prop) (B : σ → Nat → Prop) : Prop :=
  ∀ s n a s', B s n → ok a → T.step s a = some s' → ∃ m, m < n ∧ B s' m

/-- No label of the kind is enabled. -/
def Rests (T : TransitionSystem σ α) (ok : α → Prop) (s : σ) : Prop := ∀ a, ok a → T.step s a = none

/-- A run of such labels uses up at least its length. -/
theorem Ranks.length_le (h : T.Ranks ok B) {as : List α} (hs : B s n) (hok : ∀ a ∈ as, ok a)
    (hrun : T.run s as = some t) : ∃ m, as.length + m ≤ n ∧ B t m := by
  induction as generalizing s n with
  | nil =>
      obtain rfl := Option.some.inj hrun
      exact ⟨n, by simp, hs⟩
  | cons a as ih =>
      obtain ⟨s', hstep, hrest⟩ := Option.bind_eq_some_iff.mp hrun
      obtain ⟨m, hm, hs'⟩ := h s n a s' hs (hok a List.mem_cons_self) hstep
      obtain ⟨m', hm', ht⟩ := ih hs' (fun b hb => hok b (List.mem_cons_of_mem _ hb)) hrest
      exact ⟨m', by rw [List.length_cons]; omega, ht⟩

/-- **A ranked system comes to rest.** -/
theorem Ranks.exists_rest (h : T.Ranks ok B) (hs : B s n) :
    ∃ as t, (∀ a ∈ as, ok a) ∧ T.run s as = some t ∧ T.Rests ok t := by
  induction n using Nat.strong_induction_on generalizing s with
  | _ n ih =>
      by_cases hrest : T.Rests ok s
      · exact ⟨[], s, fun _ ha => absurd ha List.not_mem_nil, rfl, hrest⟩
      · obtain ⟨a, hok, hstep⟩ : ∃ a, ok a ∧ T.step s a ≠ none := by
          simpa only [Rests, not_forall, exists_prop] using hrest
        obtain ⟨s', hs'⟩ := Option.ne_none_iff_exists'.mp hstep
        obtain ⟨m, hm, hB⟩ := h s n a s' hs hok hs'
        obtain ⟨as, t, has, hrun, ht⟩ := ih m hm hB
        refine ⟨a :: as, t, fun b hb => ?_, ?_, ht⟩
        · obtain rfl | hb := List.mem_cons.mp hb
          · exact hok
          · exact has b hb
        · rw [run, hs']
          exact hrun

/-- **Amortised steps**: if every step is paid for, by the bound going down or by the budget going up, a run is
paid for. -/
theorem run_length_le (budget : σ → Nat)
    (h : ∀ s n a s', B s n → T.step s a = some s' → ∃ m, B s' m ∧ m + 1 + budget s ≤ n + budget s') {as : List α}
    (hs : B s n) (hrun : T.run s as = some t) : ∃ m, B t m ∧ m + as.length + budget s ≤ n + budget t := by
  induction as generalizing s n with
  | nil =>
      obtain rfl := Option.some.inj hrun
      exact ⟨n, hs, by simp⟩
  | cons a as ih =>
      obtain ⟨s', hstep, hrest⟩ := Option.bind_eq_some_iff.mp hrun
      obtain ⟨m, hs', hpaid⟩ := h s n a s' hs hstep
      obtain ⟨m', ht, hpaid'⟩ := ih hs' hrest
      exact ⟨m', ht, by rw [List.length_cons]; omega⟩

/-- Fewer labels, the same ranking. -/
theorem Ranks.mono (h : T.Ranks ok B) {ok' : α → Prop} (hsub : ∀ a, ok' a → ok a) : T.Ranks ok' B :=
  fun s n a s' hs hok hstep => h s n a s' hs (hsub a hok) hstep

end TransitionSystem

/-! ## Sums over tables -/

namespace Sums

variable {α : Type*} {l l' : List α} {f : α → Nat} {k : Nat} {x : α}

/-- One record changes, and the sum with it. -/
theorem modify (h : l[k]? = some x) (g : α → α) (f : α → Nat) :
    ((l.modify k g).map f).sum + f x = (l.map f).sum + f (g x) := by
  induction l generalizing k with
  | nil => cases h
  | cons y l ih =>
      cases k with
      | zero =>
          obtain rfl := Option.some.inj h
          simp only [List.modify_zero_cons, List.map_cons, List.sum_cons]
          omega
      | succ k =>
          have hrest := ih (k := k) h
          simp only [List.modify_succ_cons, List.map_cons, List.sum_cons]
          omega

/-- One record is overwritten, and the sum changes with it. -/
theorem set (h : l[k]? = some x) (y : α) (f : α → Nat) : ((l.set k y).map f).sum + f x = (l.map f).sum + f y := by
  rw [List.set_eq_modify]
  exact modify h (fun _ => y) f

/-- Another weight, by at most `d` more for each record. -/
theorem le_add_of_fun {g : α → Nat} {d : Nat} (h : ∀ x, f x ≤ g x + d) : (l.map f).sum ≤ (l.map g).sum + d * l.length := by
  induction l with
  | nil => exact Nat.le_refl _
  | cons y l ih =>
      have hy := h y
      simp only [List.map_cons, List.sum_cons, List.length_cons, Nat.mul_add, Nat.mul_one]
      omega

theorem le_of_fun {g : α → Nat} (h : ∀ x, f x ≤ g x) : (l.map f).sum ≤ (l.map g).sum := by
  have hle := le_add_of_fun (l := l) (d := 0) h
  omega

/-- Every record weighs at most `d`. -/
theorem le_mul {d : Nat} (h : ∀ x, f x ≤ d) : (l.map f).sum ≤ d * l.length := by
  induction l with
  | nil => exact Nat.le_refl _
  | cons y l ih =>
      have hy := h y
      simp only [List.map_cons, List.sum_cons, List.length_cons, Nat.mul_add, Nat.mul_one]
      omega

/-- Every record weighs at most what it weighed. -/
theorem le_of_places (hlength : l'.length = l.length)
    (h : ∀ (k : Nat) (x' : α), l'[k]? = some x' → ∃ x, l[k]? = some x ∧ f x' ≤ f x) : (l'.map f).sum ≤ (l.map f).sum := by
  induction l generalizing l' with
  | nil =>
      obtain rfl := List.length_eq_zero_iff.mp hlength
      exact Nat.le_refl _
  | cons y l ih =>
      cases l' with
      | nil => cases hlength
      | cons y' l' =>
          obtain ⟨x, hx, hle⟩ := h 0 y' rfl
          obtain rfl := Option.some.inj hx
          have hrest := ih (Nat.succ.inj hlength) fun k x' hx' => h (k + 1) x' hx'
          simp only [List.map_cons, List.sum_cons]
          omega

/-- One summand of a finite sum changes, and the sum with it. -/
theorem update {ι : Type*} [DecidableEq ι] {ids : Finset ι} {i : ι} (hi : i ∈ ids) (f f' : ι → Nat)
    (hsame : ∀ j, j ≠ i → f' j = f j) : ∑ j ∈ ids, f' j + f i = ∑ j ∈ ids, f j + f' i := by
  have hrest : ∑ j ∈ ids.erase i, f' j = ∑ j ∈ ids.erase i, f j :=
    Finset.sum_congr rfl fun j hj => hsame j (Finset.ne_of_mem_erase hj)
  calc ∑ j ∈ ids, f' j + f i = f' i + ∑ j ∈ ids.erase i, f' j + f i := by rw [Finset.add_sum_erase ids f' hi]
    _ = f i + ∑ j ∈ ids.erase i, f j + f' i := by rw [hrest]; ring
    _ = ∑ j ∈ ids, f j + f' i := by rw [Finset.add_sum_erase ids f hi]

end Sums

/-- A set of fewer bit vectors than there are leaves one out. -/
theorem BitVec.exists_fresh {w : Nat} (used : Finset (BitVec w)) (h : used.card < 2 ^ w) : ∃ x, x ∉ used := by
  by_contra hall
  push Not at hall
  have huniv : (Finset.univ : Finset (Fin (2 ^ w))).card ≤ used.card :=
    Finset.card_le_card_of_injOn BitVec.ofFin (fun x _ => hall _) fun x _ y _ hxy => BitVec.ofFin.inj hxy
  rw [Finset.card_univ, Fintype.card_fin] at huniv
  omega
