import Mathlib.Data.List.Induction

/-!
# Transition systems with an executable step

A system is an initial state and a partial step on labels. `run` executes a list of labels, so a concrete
run is a computation; `Along ok` says that every label of a run was taken in a state that allows it.

* `run_append`, `run_concat` : runs compose;
* `run_induction` : what one allowed step preserves holds after every allowed run.
-/

/-- A labelled system whose step is a partial function. -/
structure TransitionSystem (σ α : Type*) where
  init : σ
  step : σ → α → Option σ

namespace TransitionSystem

variable {σ α : Type*} (T : TransitionSystem σ α)

/-- Take the labels one after the other; `none` as soon as one is not enabled. -/
def run (s : σ) : List α → Option σ
  | [] => some s
  | a :: as => (T.step s a).bind fun s' => run s' as

/-- Every label of the run is allowed in the state it is taken in. -/
def Along (ok : σ → α → Prop) (s : σ) : List α → Prop
  | [] => True
  | a :: as => ok s a ∧ ∀ s', T.step s a = some s' → Along ok s' as

variable {T}

/-- Whether a given run is allowed can be computed. -/
instance decidableAlong {ok : σ → α → Prop} [∀ s a, Decidable (ok s a)] (as : List α) (s : σ) :
    Decidable (T.Along ok s as) :=
  match as with
  | [] => isTrue trivial
  | a :: as =>
    match hstep : T.step s a with
    | none => decidable_of_iff (ok s a) ⟨fun h => ⟨h, by simp [hstep]⟩, And.left⟩
    | some s' =>
      have : Decidable (T.Along ok s' as) := decidableAlong as s'
      decidable_of_iff (ok s a ∧ T.Along ok s' as)
        ⟨fun h => ⟨h.1, fun _ ht => Option.some.inj (hstep.symm.trans ht) ▸ h.2⟩, fun h => ⟨h.1, h.2 s' hstep⟩⟩

@[simp] theorem run_nil (s : σ) : T.run s [] = some s := rfl

theorem run_append (s : σ) (as bs : List α) : T.run s (as ++ bs) = (T.run s as).bind fun t => T.run t bs := by
  induction as generalizing s with
  | nil => rfl
  | cons a as ih =>
      simp only [List.cons_append, run]
      cases T.step s a with
      | none => rfl
      | some s' => exact ih s'

theorem run_concat {s u : σ} {as : List α} {a : α} :
    T.run s (as ++ [a]) = some u ↔ ∃ t, T.run s as = some t ∧ T.step t a = some u := by
  rw [run_append, Option.bind_eq_some_iff]
  simp only [run, Option.bind_fun_some]

theorem along_append {ok : σ → α → Prop} {s t : σ} {as bs : List α} (h : T.Along ok s (as ++ bs))
    (hrun : T.run s as = some t) : T.Along ok s as ∧ T.Along ok t bs := by
  induction as generalizing s with
  | nil =>
      obtain rfl := Option.some.inj hrun
      exact ⟨trivial, h⟩
  | cons a as ih =>
      obtain ⟨s', hstep, hrest⟩ := Option.bind_eq_some_iff.mp hrun
      obtain ⟨hleft, hright⟩ := ih (h.2 s' hstep) hrest
      refine ⟨⟨h.1, fun s'' hstep' => ?_⟩, hright⟩
      rw [hstep] at hstep'
      exact Option.some.inj hstep' ▸ hleft

/-- A run is allowed if each of its labels is, after the labels before it. -/
theorem along_of_prefixes {ok : σ → α → Prop} {s : σ} {as : List α}
    (h : ∀ bs a cs t, as = bs ++ a :: cs → T.run s bs = some t → ok t a) : T.Along ok s as := by
  induction as generalizing s with
  | nil => trivial
  | cons a as ih =>
      refine ⟨h [] a as s rfl rfl, fun s' hstep => ih fun bs b cs t has hrun => ?_⟩
      refine h (a :: bs) b cs t (by rw [has, List.cons_append]) ?_
      rw [run, hstep]
      exact hrun

/-- A run is allowed if its labels are allowed in every state. -/
theorem along_of_forall {ok : σ → α → Prop} {as : List α} (h : ∀ a ∈ as, ∀ s, ok s a) (s : σ) : T.Along ok s as := by
  induction as generalizing s with
  | nil => trivial
  | cons a as ih =>
      refine ⟨h a List.mem_cons_self s, fun s' _ => ih (fun b hb => ?_) s'⟩
      exact h b (List.mem_cons_of_mem _ hb)

/-- **The run rule**: an invariant that every allowed step preserves survives every allowed run. -/
theorem run_induction (ok : σ → α → Prop) {I : σ → Prop}
    (hstep : ∀ s a s', I s → ok s a → T.step s a = some s' → I s') {s t : σ} {as : List α}
    (hs : I s) (hok : T.Along ok s as) (hrun : T.run s as = some t) : I t := by
  induction as generalizing s with
  | nil => exact Option.some.inj hrun ▸ hs
  | cons a as ih =>
      obtain ⟨s', hfirst, hrest⟩ := Option.bind_eq_some_iff.mp hrun
      exact ih (hstep s a s' hs hok.1 hfirst) (hok.2 s' hfirst) hrest

/-- The run rule without a condition on the labels. -/
theorem run_invariant {I : σ → Prop} (hstep : ∀ s a s', I s → T.step s a = some s' → I s') {s t : σ} {as : List α}
    (hs : I s) (hrun : T.run s as = some t) : I t :=
  run_induction (fun _ _ => True) (fun s a s' h _ => hstep s a s' h) hs
    (along_of_forall (fun _ _ _ => trivial) s) hrun

end TransitionSystem
