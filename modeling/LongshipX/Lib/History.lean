import Mathlib.Data.List.Induction

/-!
# Rules on a history of events

A history lists what happened, oldest first. A rule says which event may follow which history.

* `Lawful` : every event of the history obeys the rule; `lawful_concat`;
* `InOrder quiet ps` : events as `ps` says, latest first, happened in that order, and only quiet ones since and
  between; `InOrder.concat`, `InOrder.append`.
-/

namespace History

variable {ε : Type*}

/-- Every event is one that the rule allows after the events before it. -/
def Lawful (rule : List ε → ε → Prop) (log : List ε) : Prop :=
  ∀ before event after, log = before ++ event :: after → rule before event

/-- The events that `ps` asks for, latest first, with quiet events only after the earliest of them. -/
def InOrder (quiet : ε → Prop) : List (ε → Prop) → List ε → Prop
  | [], _ => True
  | p :: ps, log => ∃ before event after, log = before ++ event :: after ∧ p event ∧ (∀ e ∈ after, quiet e) ∧
      InOrder quiet ps before

variable {rule : List ε → ε → Prop} {quiet : ε → Prop} {p : ε → Prop} {ps : List (ε → Prop)} {log events : List ε}
  {event : ε}

theorem lawful_nil : Lawful rule [] := by
  intro before event after h
  exact absurd h (List.append_ne_nil_of_right_ne_nil before (List.cons_ne_nil event after)).symm

theorem Lawful.concat (h : Lawful rule log) (hevent : rule log event) : Lawful rule (log ++ [event]) := by
  intro before e after heq
  induction after using List.reverseRecOn with
  | nil =>
      obtain ⟨rfl, hlast⟩ := List.append_inj' heq rfl
      obtain rfl := List.singleton_inj.mp hlast
      exact hevent
  | append_singleton after last _ =>
      rw [← List.cons_append, ← List.append_assoc] at heq
      exact h before e after (List.append_inj' heq rfl).1

/-- Another event happens, of the kind asked for. -/
theorem InOrder.concat (h : InOrder quiet ps log) (hevent : p event) : InOrder quiet (p :: ps) (log ++ [event]) :=
  ⟨log, event, [], rfl, hevent, by simp, h⟩

theorem inOrder_last (hevent : p event) : InOrder quiet [p] (log ++ [event]) :=
  ⟨log, event, [], rfl, hevent, by simp, trivial⟩

/-- Quiet events happen. -/
theorem InOrder.append (h : InOrder quiet ps log) (hquiet : ∀ e ∈ events, quiet e) :
    InOrder quiet ps (log ++ events) := by
  cases ps with
  | nil => trivial
  | cons p ps =>
      obtain ⟨before, event, after, rfl, hevent, hafter, hbefore⟩ := h
      refine ⟨before, event, after ++ events, by simp, hevent, fun e he => ?_, hbefore⟩
      rcases List.mem_append.mp he with he | he
      · exact hafter e he
      · exact hquiet e he

/-- What was asked for last may be left out if it was quiet itself. -/
theorem InOrder.tail (h : InOrder quiet (p :: ps) log) (hp : ∀ e, p e → quiet e) : InOrder quiet ps log := by
  obtain ⟨before, event, after, rfl, hevent, hafter, hbefore⟩ := h
  refine hbefore.append fun e he => ?_
  rcases List.mem_cons.mp he with rfl | he
  · exact hp e hevent
  · exact hafter e he

end History
