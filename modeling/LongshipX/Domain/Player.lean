import LongshipX.Domain.Account
import Mathlib.Algebra.Order.BigOperators.Group.Finset
import Mathlib.Algebra.BigOperators.Intervals

/-!
# The player aggregate

`Player` of `player/aggregate.rs`, with its level curve: level `l` is left for `l + 1` at `100 * l` points.

* `levelUp` : the `while` loop of `gain_exp`; `levelUp_spec` : it ends with no level left to gain;
* `points` : the experience of a lifetime; the loop does not change it, and a settled player is known by it
  (`settled_unique`);
* `gainExp_report` : the level is reported exactly when it rose; `eq_gainExp_of_points` : many gains are one.
-/

namespace LongshipX

/-- `u64::MAX`. -/
def u64Max : Nat := 2 ^ 64 - 1

/-- `u32::MAX`. -/
def u32Max : Nat := 2 ^ 32 - 1

/-- `MAX_LEVEL`. -/
def maxLevel : Nat := 999

/-- `EXP_PER_LEVEL`. -/
def expPerLevel : Nat := 100

structure Player where
  id : PlayerId
  accountId : AccountId
  nickname : Nickname
  level : Nat
  exp : Nat
  lastLoginAt : Option DateTime
  createdAt : DateTime
  deriving DecidableEq

namespace Player

/-- `Player::create`; the id is what `Uuid::now_v7` drew. -/
def create (id : PlayerId) (accountId : AccountId) (nickname : Nickname) (now : DateTime) : Player :=
  ⟨id, accountId, nickname, 1, 0, none, now⟩

/-- `exp_to_next`. -/
def expToNext (level : Nat) : Nat := min (expPerLevel * level) u64Max

/-- The `while` loop of `gain_exp`: level, experience and the new level so far. Every turn raises the level, so
`MAX_LEVEL - level` turns are all there can be. -/
def levelUp : Nat → Nat → Nat → Option Nat → Nat × Nat × Option Nat
  | 0, level, exp, newLevel => (level, exp, newLevel)
  | turns + 1, level, exp, newLevel =>
    if level < maxLevel ∧ exp ≥ expToNext level then
      levelUp turns (min (level + 1) u32Max) (exp - expToNext level) (some (min (level + 1) u32Max))
    else (level, exp, newLevel)

/-- `gain_exp`. -/
def gainExp (player : Player) (amount : Nat) : Option Nat × Player :=
  let exp := min (player.exp + amount) u64Max
  let raised := levelUp (maxLevel - player.level) player.level exp none
  (raised.2.2, { player with level := raised.1, exp := raised.2.1 })

/-- `record_login`. -/
def recordLogin (player : Player) (at_ : DateTime) : Player := { player with lastLoginAt := some at_ }

/-! ## The level curve -/

def Settled (level exp : Nat) : Prop := 1 ≤ level ∧ level ≤ maxLevel ∧ (level = maxLevel ∨ exp < expPerLevel * level)

/-- The experience of a lifetime: what all levels so far took, and what is left. -/
def points (level exp : Nat) : Nat := expPerLevel * (∑ l ∈ Finset.range level, l) + exp

theorem expToNext_eq {level : Nat} (h : level ≤ maxLevel) : expToNext level = expPerLevel * level := by
  unfold expToNext
  refine Nat.min_eq_left ?_
  unfold maxLevel at h
  unfold expPerLevel u64Max
  omega

theorem points_succ {level exp : Nat} (h : expPerLevel * level ≤ exp) :
    points (level + 1) (exp - expPerLevel * level) = points level exp := by
  unfold points
  rw [Finset.sum_range_succ, Nat.mul_add]
  omega

theorem min_succ {level : Nat} (h : level < maxLevel) : min (level + 1) u32Max = level + 1 := by
  unfold maxLevel at h
  unfold u32Max
  omega

theorem levelUp_report (turns level exp : Nat) (newLevel : Option Nat) :
    level ≤ (levelUp turns level exp newLevel).1 ∧ (levelUp turns level exp newLevel).2.2 =
      if (levelUp turns level exp newLevel).1 = level then newLevel else some (levelUp turns level exp newLevel).1 := by
  induction turns generalizing level exp newLevel with
  | zero => simp [levelUp]
  | succ turns ih =>
      by_cases hraise : level < maxLevel ∧ exp ≥ expToNext level
      · have hturn : levelUp (turns + 1) level exp newLevel =
            levelUp turns (level + 1) (exp - expToNext level) (some (level + 1)) := by
          rw [levelUp, if_pos hraise, min_succ hraise.1]
        rw [hturn]
        obtain ⟨hup, hreport⟩ := ih (level + 1) (exp - expToNext level) (some (level + 1))
        refine ⟨by omega, ?_⟩
        rw [hreport]
        split_ifs
        · omega
        · simp_all
        · omega
        · rfl
      · have hturn : levelUp (turns + 1) level exp newLevel = (level, exp, newLevel) := by rw [levelUp, if_neg hraise]
        simp [hturn]

/-- **The loop**: with enough turns it settles and keeps the points. -/
theorem levelUp_spec (turns level exp : Nat) (newLevel : Option Nat) (hturns : maxLevel ≤ level + turns) (hpos : 1 ≤ level)
    (hle : level ≤ maxLevel) :
    Settled (levelUp turns level exp newLevel).1 (levelUp turns level exp newLevel).2.1 ∧
      points (levelUp turns level exp newLevel).1 (levelUp turns level exp newLevel).2.1 = points level exp ∧
      (levelUp turns level exp newLevel).2.1 ≤ exp := by
  induction turns generalizing level exp newLevel with
  | zero =>
      have hmax : level = maxLevel := by omega
      exact ⟨⟨hpos, hle, Or.inl hmax⟩, rfl, le_refl _⟩
  | succ turns ih =>
      unfold levelUp
      rw [expToNext_eq hle]
      split_ifs with hraise
      · obtain ⟨hlt, henough⟩ := hraise
        rw [min_succ hlt]
        obtain ⟨hsettled, hpoints, hdown⟩ :=
          ih (level + 1) (exp - expPerLevel * level) (some (level + 1)) (by omega) (by omega) (by omega)
        exact ⟨hsettled, hpoints.trans (points_succ henough), by omega⟩
      · refine ⟨⟨hpos, hle, ?_⟩, rfl, le_refl _⟩
        dsimp only
        omega

theorem points_lt {level exp level' exp' : Nat} (h : Settled level exp) (h' : Settled level' exp') (hlt : level < level') :
    points level exp < points level' exp' := by
  obtain ⟨-, -, hmax | hexp⟩ := h
  · have := h'.2.1
    omega
  · have hmono : ∑ l ∈ Finset.range (level + 1), l ≤ ∑ l ∈ Finset.range level', l :=
      Finset.sum_le_sum_of_subset (Finset.range_mono hlt)
    have hle := Nat.mul_le_mul_left expPerLevel hmono
    rw [Finset.sum_range_succ, Nat.mul_add] at hle
    unfold points
    omega

/-- **A settled level is known by its points.** -/
theorem settled_unique {level exp level' exp' : Nat} (h : Settled level exp) (h' : Settled level' exp')
    (hpoints : points level exp = points level' exp') : level = level' ∧ exp = exp' := by
  rcases Nat.lt_trichotomy level level' with hlt | rfl | hgt
  · have := points_lt h h' hlt
    omega
  · refine ⟨rfl, ?_⟩
    unfold points at hpoints
    omega
  · have := points_lt h' h hgt
    omega

/-! ## Gaining experience -/

/-- `gain_exp` never lowers the level, and reports the new one exactly when it raised it. -/
theorem gainExp_report (player : Player) (amount : Nat) :
    player.level ≤ (player.gainExp amount).2.level ∧ (player.gainExp amount).1 =
      if (player.gainExp amount).2.level = player.level then none else some (player.gainExp amount).2.level :=
  levelUp_report (maxLevel - player.level) player.level (min (player.exp + amount) u64Max) none

theorem gainExp_some {player : Player} {amount newLevel : Nat} (h : (player.gainExp amount).1 = some newLevel) :
    player.level < (player.gainExp amount).2.level ∧ newLevel = (player.gainExp amount).2.level := by
  obtain ⟨hup, hreport⟩ := player.gainExp_report amount
  rw [hreport] at h
  split_ifs at h with hsame
  exact ⟨by omega, (Option.some.inj h).symm⟩

theorem gainExp_none {player : Player} {amount : Nat} (h : (player.gainExp amount).1 = none) :
    (player.gainExp amount).2.level = player.level := by
  rw [(player.gainExp_report amount).2] at h
  by_contra hne
  rw [if_neg hne] at h
  cases h

theorem gainExp_settled {player : Player} (h : Settled player.level player.exp) (amount : Nat) :
    Settled (player.gainExp amount).2.level (player.gainExp amount).2.exp :=
  (levelUp_spec _ _ _ none (by omega) h.1 h.2.1).1

theorem gainExp_exp_le {player : Player} (h : Settled player.level player.exp) (amount : Nat) :
    (player.gainExp amount).2.exp ≤ min (player.exp + amount) u64Max :=
  (levelUp_spec _ _ _ none (by omega) h.1 h.2.1).2.2

/-- **A gain adds its amount** to the points, unless the experience would not fit. -/
theorem gainExp_points {player : Player} (h : Settled player.level player.exp) {amount : Nat}
    (hfits : player.exp + amount ≤ u64Max) :
    points (player.gainExp amount).2.level (player.gainExp amount).2.exp = points player.level player.exp + amount := by
  have hpoints := (levelUp_spec (maxLevel - player.level) player.level (min (player.exp + amount) u64Max) none (by omega)
    h.1 h.2.1).2.1
  refine hpoints.trans ?_
  rw [Nat.min_eq_left hfits]
  unfold points
  omega

/-- **One gain for many**: whoever is settled with the same points got there by one gain. -/
theorem eq_gainExp_of_points {player player' : Player} {amount : Nat} (h : Settled player.level player.exp)
    (h' : Settled player'.level player'.exp) (hfits : player.exp + amount ≤ u64Max)
    (hpoints : points player'.level player'.exp = points player.level player.exp + amount) :
    player'.level = (player.gainExp amount).2.level ∧ player'.exp = (player.gainExp amount).2.exp :=
  settled_unique h' (gainExp_settled h amount) (hpoints.trans (gainExp_points h hfits).symm)

/-! ## Reachable players -/

/-- What becomes of a created player. -/
inductive Reachable : Player → Prop
  | create (id : PlayerId) (accountId : AccountId) (nickname : Nickname) (now : DateTime) :
      Reachable (.create id accountId nickname now)
  | gainExp {player : Player} (h : Reachable player) (amount : Nat) : Reachable (player.gainExp amount).2
  | recordLogin {player : Player} (h : Reachable player) (at_ : DateTime) : Reachable (player.recordLogin at_)

theorem Reachable.settled {player : Player} (h : Reachable player) : Settled player.level player.exp := by
  induction h with
  | create => exact ⟨le_refl 1, show 1 ≤ 999 by decide, Or.inr (show 0 < 100 * 1 by decide)⟩
  | gainExp _ amount ih => exact gainExp_settled ih amount
  | recordLogin _ _ ih => exact ih

end Player

end LongshipX
