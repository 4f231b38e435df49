import LongshipX.Domain.Player

/-!
# The settlement of experience

The `while` loop of `gain_exp`, turn by turn, with a subtraction that has no result below zero: it ends, with what
`levelUp` computes.

* `Tally.Loop` : the loop; `Loop.unique`, `levelUp_loop` : it ends in one way;
* `points_eq` : the experience of a lifetime in closed form;
* `settlement_exact` : a gain adds its amount, and many gains are one, in any order.
-/

namespace LongshipX.Player

/-- What the loop works on. -/
structure Tally where
  level : Nat
  exp : Nat
  newLevel : Option Nat
  deriving DecidableEq, Repr

namespace Tally

def goesOn (t : Tally) : Bool := decide (t.level < maxLevel) && decide (t.exp ≥ expToNext t.level)

/-- The body of the loop; `-=` panics, or wraps, where `none` stands. -/
def turn (t : Tally) : Option Tally :=
  if expToNext t.level ≤ t.exp then
    some ⟨min (t.level + 1) u32Max, t.exp - expToNext t.level, some (min (t.level + 1) u32Max)⟩
  else none

/-- The loop ends in a state: its test failed there, after turns that all had a result. -/
inductive Loop : Tally → Tally → Prop
  | done {t : Tally} (h : t.goesOn = false) : Loop t t
  | turn {t u v : Tally} (h : t.goesOn = true) (hturn : t.turn = some u) (hrest : Loop u v) : Loop t v

theorem Loop.unique {t u v : Tally} (hu : Loop t u) (hv : Loop t v) : u = v := by
  induction hu with
  | done h =>
      cases hv with
      | done => rfl
      | turn h' => cases h.symm.trans h'
  | turn h hturn hrest ih =>
      cases hv with
      | done h' => cases h'.symm.trans h
      | turn h' hturn' hrest' =>
          obtain rfl := Option.some.inj (hturn.symm.trans hturn')
          exact ih hrest'

end Tally

/-- **The loop ends** with what `levelUp` computes. -/
theorem levelUp_loop (turns level exp : Nat) (newLevel : Option Nat) (hturns : maxLevel ≤ level + turns) :
    Tally.Loop ⟨level, exp, newLevel⟩ ⟨(levelUp turns level exp newLevel).1, (levelUp turns level exp newLevel).2.1,
      (levelUp turns level exp newLevel).2.2⟩ := by
  induction turns generalizing level exp newLevel with
  | zero =>
      have hmax : ¬ level < maxLevel := by omega
      exact .done (by simp [Tally.goesOn, hmax])
  | succ turns ih =>
      by_cases hraise : level < maxLevel ∧ exp ≥ expToNext level
      · rw [levelUp, if_pos hraise]
        have hnext : maxLevel ≤ min (level + 1) u32Max + turns := by
          rw [min_succ hraise.1]
          omega
        refine .turn ?_ (if_pos hraise.2) (ih _ _ _ hnext)
        simp only [Tally.goesOn, decide_eq_true hraise.1, decide_eq_true hraise.2, Bool.and_self]
      · rw [levelUp, if_neg hraise]
        refine .done ?_
        simp only [Tally.goesOn, ← Bool.decide_and]
        exact decide_eq_false hraise

theorem points_eq (level exp : Nat) : points level exp = 50 * level * (level - 1) + exp := by
  have hsum := Finset.sum_range_id_mul_two level
  unfold points expPerLevel
  rw [Nat.mul_assoc, ← hsum]
  omega

section
variable {player : Player}

theorem gainExp_gainExp (h : Settled player.level player.exp) {a b : Nat} (hfits : player.exp + a + b ≤ u64Max) :
    ((player.gainExp a).2.gainExp b).2.level = (player.gainExp (a + b)).2.level ∧
      ((player.gainExp a).2.gainExp b).2.exp = (player.gainExp (a + b)).2.exp := by
  have hfirst := gainExp_settled h a
  have hfitsFirst : player.exp + a ≤ u64Max := by omega
  have hpoints := gainExp_points h hfitsFirst
  have hexp := gainExp_exp_le h a
  have hfitsBoth : (player.gainExp a).2.exp + b ≤ u64Max := by omega
  have hboth := gainExp_points hfirst hfitsBoth
  refine eq_gainExp_of_points h (gainExp_settled hfirst b) (by omega) ?_
  rw [hboth, hpoints, Nat.add_assoc]

theorem gainExp_some_iff (player : Player) (a l : Nat) :
    (player.gainExp a).1 = some l ↔ (player.gainExp a).2.level ≠ player.level ∧ l = (player.gainExp a).2.level := by
  rw [(player.gainExp_report a).2]
  split_ifs with hsame
  · simp [hsame]
  · simp [hsame, eq_comm]

/-- **Experience settlement is exact and does not depend on the order.** For every player that came from
`Player::create`:

* whatever the amount, the loop of `gain_exp` ends without a subtraction below zero, with what `gainExp` computes, at
  level 999 at most;
* a gain that fits adds its amount to `50 * level * (level - 1) + exp`, does not lower the level, leaves no level to
  gain, and reports the level exactly if it changed;
* two gains that fit together are one gain of their sum, in either order. -/
theorem settlement_exact (h : player.Reachable) :
    (∀ a, (∀ t, Tally.Loop ⟨player.level, min (player.exp + a) u64Max, none⟩ t ↔
        t = ⟨(player.gainExp a).2.level, (player.gainExp a).2.exp, (player.gainExp a).1⟩) ∧
      (player.gainExp a).2.level ≤ 999) ∧
    (∀ a, player.exp + a ≤ u64Max →
      50 * (player.gainExp a).2.level * ((player.gainExp a).2.level - 1) + (player.gainExp a).2.exp =
        50 * player.level * (player.level - 1) + player.exp + a ∧
      player.level ≤ (player.gainExp a).2.level ∧
      ((player.gainExp a).2.exp < 100 * (player.gainExp a).2.level ∨ (player.gainExp a).2.level = 999) ∧
      ∀ l, (player.gainExp a).1 = some l ↔ (player.gainExp a).2.level ≠ player.level ∧ l = (player.gainExp a).2.level) ∧
    (∀ a b, player.exp + a + b ≤ u64Max →
      (((player.gainExp a).2.gainExp b).2.level = ((player.gainExp b).2.gainExp a).2.level ∧
        ((player.gainExp a).2.gainExp b).2.exp = ((player.gainExp b).2.gainExp a).2.exp) ∧
      ((player.gainExp a).2.gainExp b).2.level = (player.gainExp (a + b)).2.level ∧
        ((player.gainExp a).2.gainExp b).2.exp = (player.gainExp (a + b)).2.exp) := by
  have hsettled := h.settled
  refine ⟨fun a => ⟨fun t => ?_, (gainExp_settled hsettled a).2.1⟩, fun a hfits => ?_, fun a b hfits => ?_⟩
  · have hloop := levelUp_loop (maxLevel - player.level) player.level (min (player.exp + a) u64Max) none (by omega)
    constructor
    · exact fun ht => ht.unique hloop
    · rintro rfl
      exact hloop
  · have hpoints := gainExp_points hsettled hfits
    rw [points_eq, points_eq] at hpoints
    exact ⟨hpoints, (player.gainExp_report a).1, (gainExp_settled hsettled a).2.2.symm, gainExp_some_iff player a⟩
  · have hab := gainExp_gainExp hsettled hfits
    have hba := gainExp_gainExp hsettled (a := b) (b := a) (by omega)
    rw [Nat.add_comm b a] at hba
    exact ⟨⟨hab.1.trans hba.1.symm, hab.2.trans hba.2.symm⟩, hab⟩

end

/-- A new player gains 250: level 2 took 100, and 150 of the 200 for level 3 are there. -/
theorem settlement_exact_level_two :
    ∃ player : Player, player.Reachable ∧ (player.gainExp 250).2.level = 2 ∧ (player.gainExp 250).2.exp = 150 ∧
      ((player.gainExp 150).2.gainExp 100).2.exp = ((player.gainExp 100).2.gainExp 150).2.exp := by
  refine ⟨.create ⟨1⟩ ⟨1⟩ ⟨"a", by decide +kernel, by decide +kernel, by decide +kernel⟩ 0, .create _ _ _ _, by decide +kernel,
    by decide +kernel, ?_⟩
  exact ((settlement_exact (.create _ _ _ _)).2.2 150 100 (by decide)).1.2

end LongshipX.Player
