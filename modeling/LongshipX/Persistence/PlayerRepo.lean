import LongshipX.Persistence.MemoryRepos

/-!
# The PostgreSQL player repository

`SeaPlayerRepository` of `player_repo.rs`, over a table whose columns for the level and the experience are an `i32` and an
`i64`, beside `InMemoryPlayerRepository`. A transaction with its row lock is one step, and the database has no faults.

* `PlayerModel`, `playerToDomain`, `playerToActive` : the converters; `playerToDomain_toActive` : what fits the columns
  comes back;
* `Rows.gainExp`, `Rows.recordLogin`, `Rows.findById`, `Rows.save`;
* `Agree`, `apply_agree` : one call on both; `repositories_agree` : every sequence of calls.
-/

namespace LongshipX.Persistence

/-- `i32::MAX`. -/
def i32Max : Nat := 2 ^ 31 - 1

/-- `i64::MAX`. -/
def i64Max : Nat := 2 ^ 63 - 1

/-! ## The table -/

/-- `player_entity::Model`. -/
structure PlayerModel where
  id : Uuid
  accountId : Uuid
  nickname : String
  level : Int
  exp : Int
  lastLoginAt : Option DateTime
  createdAt : DateTime
  deriving DecidableEq

/-- `T::try_from` for an unsigned type with this maximum. -/
def tryFromInt (max : Nat) (value : Int) : Option Nat := if 0 ≤ value ∧ value ≤ max then some value.toNat else none

/-- `T::try_from` for a signed type with this maximum. -/
def tryFromNat (max value : Nat) : Option Int := if value ≤ max then some value else none

/-- `player_to_domain`. -/
def playerToDomain (uuidText : Uuid → String) (model : PlayerModel) : Except RepoError Player :=
  match Nickname.tryNew model.nickname with
  | .error err => .error (.storage ("玩家数据不符合领域规则: " ++ err.toText uuidText))
  | .ok nickname => .ok ⟨⟨model.id⟩, ⟨model.accountId⟩, nickname, (tryFromInt u32Max (max model.level 0)).getD 0,
      (tryFromInt u64Max (max model.exp 0)).getD 0, model.lastLoginAt, model.createdAt⟩

/-- `player_to_active`, with every column set. -/
def playerToActive (player : Player) : PlayerModel :=
  ⟨player.id.uuid, player.accountId.uuid, player.nickname.value, (tryFromNat i32Max player.level).getD i32Max,
    (tryFromNat i64Max player.exp).getD i64Max, player.lastLoginAt, player.createdAt⟩

/-- The columns can hold the player's numbers. -/
def Fits (player : Player) : Prop := player.level ≤ i32Max ∧ player.exp ≤ i64Max

theorem tryFromNat_of_le {max value : Nat} (h : value ≤ max) : tryFromNat max value = some (value : Int) := if_pos h

theorem tryFromInt_of_le {max value : Nat} (h : value ≤ max) : (tryFromInt max (Max.max (value : Int) 0)).getD 0 = value := by
  have hpos : Max.max (value : Int) 0 = value := Int.max_eq_left (Int.natCast_nonneg value)
  rw [hpos, tryFromInt, if_pos ⟨Int.natCast_nonneg value, Int.ofNat_le.mpr h⟩]
  rfl

theorem playerToActive_of_fits {player : Player} (h : Fits player) : playerToActive player =
    ⟨player.id.uuid, player.accountId.uuid, player.nickname.value, player.level, player.exp, player.lastLoginAt,
      player.createdAt⟩ := by
  rw [playerToActive, tryFromNat_of_le h.1, tryFromNat_of_le h.2, Option.getD_some, Option.getD_some]

/-- **What fits the columns comes back.** -/
theorem playerToDomain_toActive (uuidText : Uuid → String) {player : Player} (h : Fits player) :
    playerToDomain uuidText (playerToActive player) = .ok player := by
  have hlevel : player.level ≤ u32Max := h.1.trans (by decide)
  have hexp : player.exp ≤ u64Max := h.2.trans (by decide)
  rw [playerToActive_of_fits h, playerToDomain]
  simp only [Nickname.tryNew_self, tryFromInt_of_le hlevel, tryFromInt_of_le hexp]

/-! ## `SeaPlayerRepository` -/

abbrev Rows := AList fun _ : Uuid => PlayerModel

namespace Rows
variable (uuidText : Uuid → String) (rangeText : String)

/-- `gain_exp`; an error rolls the transaction back. `rangeText` is what `TryFromIntError` prints, a text of the standard
library. -/
def gainExp (rows : Rows) (id : PlayerId) (amount : Nat) : Except RepoError (Option (Player × Option Nat)) × Rows :=
  match rows.lookup id.uuid with
  | none => (.ok none, rows)
  | some model =>
    match playerToDomain uuidText model with
    | .error err => (.error err, rows)
    | .ok player =>
      let (level, player) := player.gainExp amount
      match tryFromNat i32Max player.level, tryFromNat i64Max player.exp with
      | none, _ => (.error (.storage rangeText), rows)
      | _, none => (.error (.storage rangeText), rows)
      | some newLevel, some newExp =>
        -- the other columns are not set
        (.ok (some (player, level)), rows.insert id.uuid { model with level := newLevel, exp := newExp })

/-- `record_login`. -/
def recordLogin (rows : Rows) (id : PlayerId) (at_ : DateTime) : Except RepoError (Option Player) × Rows :=
  match rows.lookup id.uuid with
  | none => (.ok none, rows)
  | some model =>
    let model := { model with lastLoginAt := some at_ }
    ((playerToDomain uuidText model).map some, rows.insert id.uuid model)

/-- `find_by_id`. -/
def findById (rows : Rows) (id : PlayerId) : Except RepoError (Option Player) :=
  match rows.lookup id.uuid with
  | none => .ok none
  | some model => (playerToDomain uuidText model).map some

/-- `save`: an insertion or an update of every column. -/
def save (rows : Rows) (player : Player) : Except RepoError Unit × Rows :=
  (.ok (), rows.insert player.id.uuid (playerToActive player))

end Rows

/-! ## Calls on either repository -/

inductive Op where
  | gainExp (id : PlayerId) (amount : Nat)
  | recordLogin (id : PlayerId) (at_ : DateTime)
  | findById (id : PlayerId)

inductive Answer where
  | gained (result : Except RepoError (Option (Player × Option Nat)))
  | found (result : Except RepoError (Option Player))
  deriving DecidableEq

def Players.apply (players : Players) : Op → Answer × Players
  | .gainExp id amount => ((.gained (players.gainExp id amount).1), (players.gainExp id amount).2)
  | .recordLogin id at_ => ((.found (players.recordLogin id at_).1), (players.recordLogin id at_).2)
  | .findById id => (.found (players.findById id), players)

def Rows.apply (uuidText : Uuid → String) (rangeText : String) (rows : Rows) : Op → Answer × Rows
  | .gainExp id amount =>
    ((.gained (rows.gainExp uuidText rangeText id amount).1), (rows.gainExp uuidText rangeText id amount).2)
  | .recordLogin id at_ => ((.found (rows.recordLogin uuidText id at_).1), (rows.recordLogin uuidText id at_).2)
  | .findById id => (.found (rows.findById uuidText id), rows)

def Players.answers (players : Players) : List Op → List Answer
  | [] => []
  | op :: ops => (players.apply op).1 :: answers (players.apply op).2 ops

def Rows.answers (uuidText : Uuid → String) (rangeText : String) (rows : Rows) : List Op → List Answer
  | [] => []
  | op :: ops => (rows.apply uuidText rangeText op).1 :: answers uuidText rangeText (rows.apply uuidText rangeText op).2 ops

def Players.after (players : Players) (ops : List Op) : Players := ops.foldl (fun players op => (players.apply op).2) players

def Rows.after (uuidText : Uuid → String) (rangeText : String) (rows : Rows) (ops : List Op) : Rows :=
  ops.foldl (fun rows op => (rows.apply uuidText rangeText op).2) rows

def Players.saved (created : List Player) : Players := created.foldl (fun players player => (players.save player).2) ∅

def Rows.saved (created : List Player) : Rows := created.foldl (fun rows player => (rows.save player).2) ∅

/-- The gain, if the call is one, leaves the player with an experience that the column can hold. -/
def Op.InRange (players : Players) : Op → Prop
  | .gainExp id amount => ∀ player, players.lookup id.uuid = some player → (player.gainExp amount).2.exp ≤ i64Max
  | _ => True

/-- Every gain of the sequence does, on what the calls before it left. -/
def InRange (players : Players) : List Op → Prop
  | [] => True
  | op :: ops => op.InRange players ∧ InRange (players.apply op).2 ops

/-- **The two repositories hold the same**: players under their own ids, settled and within the columns, and their rows. -/
structure Agree (players : Players) (rows : Rows) : Prop where
  rows : ∀ id, rows.lookup id = (players.lookup id).map playerToActive
  key : ∀ id player, players.lookup id = some player → player.id.uuid = id
  settled : ∀ id player, players.lookup id = some player → Player.Settled player.level player.exp
  inRange : ∀ id player, players.lookup id = some player → player.exp ≤ i64Max

section
variable (uuidText : Uuid → String) (rangeText : String) {players : Players} {rows : Rows}

theorem fits_of_settled {player : Player} (hsettled : Player.Settled player.level player.exp) (hexp : player.exp ≤ i64Max) :
    Fits player := by
  refine ⟨?_, hexp⟩
  have hlevel := hsettled.2.1
  unfold maxLevel at hlevel
  unfold i32Max
  omega

theorem agree_empty : Agree ∅ ∅ := by
  refine ⟨fun id => rfl, ?_, ?_, ?_⟩
  all_goals
    intro id player h
    cases h

theorem Agree.insert (h : Agree players rows) (player : Player) (hsettled : Player.Settled player.level player.exp)
    (hexp : player.exp ≤ i64Max) :
    Agree (players.insert player.id.uuid player) (rows.insert player.id.uuid (playerToActive player)) := by
  have hcases : ∀ id stored, (players.insert player.id.uuid player).lookup id = some stored →
      id = player.id.uuid ∧ stored = player ∨ players.lookup id = some stored := by
    intro id stored hstored
    by_cases hid : id = player.id.uuid
    · subst hid
      rw [AList.lookup_insert] at hstored
      exact Or.inl ⟨rfl, (Option.some.inj hstored).symm⟩
    · rw [AList.lookup_insert_ne hid] at hstored
      exact Or.inr hstored
  refine ⟨fun id => ?_, fun id stored hstored => ?_, fun id stored hstored => ?_, fun id stored hstored => ?_⟩
  · by_cases hid : id = player.id.uuid
    · rw [hid, AList.lookup_insert, AList.lookup_insert, Option.map_some]
    · rw [AList.lookup_insert_ne hid, AList.lookup_insert_ne hid, h.rows]
  · rcases hcases id stored hstored with ⟨rfl, rfl⟩ | hold
    · rfl
    · exact h.key id stored hold
  · rcases hcases id stored hstored with ⟨rfl, rfl⟩ | hold
    · exact hsettled
    · exact h.settled id stored hold
  · rcases hcases id stored hstored with ⟨rfl, rfl⟩ | hold
    · exact hexp
    · exact h.inRange id stored hold

theorem Agree.read (h : Agree players rows) {id : Uuid} {player : Player} (hplayer : players.lookup id = some player) :
    rows.lookup id = some (playerToActive player) ∧ playerToDomain uuidText (playerToActive player) = .ok player := by
  refine ⟨by rw [h.rows, hplayer, Option.map_some], ?_⟩
  exact playerToDomain_toActive uuidText (fits_of_settled (h.settled id player hplayer) (h.inRange id player hplayer))

theorem gainExp_agree (h : Agree players rows) {id : PlayerId} {amount : Nat}
    (hrange : (Op.gainExp id amount).InRange players) :
    (rows.gainExp uuidText rangeText id amount).1 = (players.gainExp id amount).1 ∧
      Agree (players.gainExp id amount).2 (rows.gainExp uuidText rangeText id amount).2 := by
  cases hplayer : players.lookup id.uuid with
  | none =>
      have hrow : rows.lookup id.uuid = none := by rw [h.rows, hplayer, Option.map_none]
      simp only [Rows.gainExp, Players.gainExp, hrow, hplayer, true_and]
      exact h
  | some player =>
      obtain ⟨hrow, hdomain⟩ := h.read uuidText hplayer
      have hsettled := Player.gainExp_settled (h.settled id.uuid player hplayer) amount
      have hfits : Fits (player.gainExp amount).2 := fits_of_settled hsettled (hrange player hplayer)
      have hbefore : Fits player := fits_of_settled (h.settled id.uuid player hplayer) (h.inRange id.uuid player hplayer)
      have hmodel : { playerToActive player with
          level := ((player.gainExp amount).2.level : Int), exp := ((player.gainExp amount).2.exp : Int) } =
          playerToActive (player.gainExp amount).2 := by
        rw [playerToActive_of_fits hbefore, playerToActive_of_fits hfits]
        rfl
      have hkey : id.uuid = (player.gainExp amount).2.id.uuid := (h.key id.uuid player hplayer).symm
      simp only [Rows.gainExp, Players.gainExp, hrow, hplayer, hdomain, tryFromNat_of_le hfits.1, tryFromNat_of_le hfits.2,
        hmodel, true_and]
      rw [hkey]
      exact h.insert _ hsettled hfits.2

theorem gainExp_refused (h : Agree players rows) {id : PlayerId} {amount : Nat} {player : Player}
    (hplayer : players.lookup id.uuid = some player) (hlarge : i64Max < (player.gainExp amount).2.exp) :
    rows.gainExp uuidText rangeText id amount = (.error (.storage rangeText), rows) := by
  obtain ⟨hrow, hdomain⟩ := h.read uuidText hplayer
  have hexp : tryFromNat i64Max (player.gainExp amount).2.exp = none := if_neg (by omega)
  simp only [Rows.gainExp, hrow, hdomain, hexp]
  split
  · rfl
  · rfl
  · next hsome => cases hsome

/-- **One call on both repositories.** -/
theorem apply_agree (h : Agree players rows) {op : Op} (hrange : op.InRange players) :
    (rows.apply uuidText rangeText op).1 = (players.apply op).1 ∧
      Agree (players.apply op).2 (rows.apply uuidText rangeText op).2 := by
  cases op with
  | gainExp id amount =>
      obtain ⟨hanswer, hagree⟩ := gainExp_agree uuidText rangeText h hrange
      exact ⟨congrArg Answer.gained hanswer, hagree⟩
  | recordLogin id at_ =>
      cases hplayer : players.lookup id.uuid with
      | none =>
          have hrow : rows.lookup id.uuid = none := by rw [h.rows, hplayer, Option.map_none]
          simp only [Rows.apply, Players.apply, Rows.recordLogin, Players.recordLogin, hrow, hplayer, true_and]
          exact h
      | some player =>
          obtain ⟨hrow, -⟩ := h.read uuidText hplayer
          have hsettled := h.settled id.uuid player hplayer
          have hexp := h.inRange id.uuid player hplayer
          have hkey : id.uuid = (player.recordLogin at_).id.uuid := (h.key id.uuid player hplayer).symm
          have hmodel : { playerToActive player with lastLoginAt := some at_ } = playerToActive (player.recordLogin at_) := rfl
          have hdomain : playerToDomain uuidText (playerToActive (player.recordLogin at_)) = .ok (player.recordLogin at_) :=
            playerToDomain_toActive uuidText (fits_of_settled hsettled hexp)
          simp only [Rows.apply, Players.apply, Rows.recordLogin, Players.recordLogin, hrow, hplayer, hmodel, hdomain]
          refine ⟨rfl, ?_⟩
          rw [hkey]
          exact h.insert _ hsettled hexp
  | findById id =>
      cases hplayer : players.lookup id.uuid with
      | none =>
          have hrow : rows.lookup id.uuid = none := by rw [h.rows, hplayer, Option.map_none]
          simp only [Rows.apply, Players.apply, Rows.findById, Players.findById, hrow, hplayer, true_and]
          exact h
      | some player =>
          obtain ⟨hrow, hdomain⟩ := h.read uuidText hplayer
          simp only [Rows.apply, Players.apply, Rows.findById, Players.findById, hrow, hplayer, hdomain]
          exact ⟨rfl, h⟩

/-- The answer of the in-memory repository to a gain of a stored player is never an error. -/
theorem gainExp_differs (h : Agree players rows) {op : Op} (hrange : ¬ op.InRange players) :
    (rows.apply uuidText rangeText op).1 = .gained (.error (.storage rangeText)) ∧
      (rows.apply uuidText rangeText op).2 = rows ∧
      (rows.apply uuidText rangeText op).1 ≠ (players.apply op).1 := by
  cases op with
  | gainExp id amount =>
      simp only [Op.InRange, not_forall, not_le] at hrange
      obtain ⟨player, hplayer, hlarge⟩ := hrange
      have hrefused := gainExp_refused uuidText rangeText h hplayer hlarge
      simp only [Rows.apply, Players.apply, Players.gainExp, hrefused, hplayer]
      exact ⟨trivial, trivial, by simp⟩
  | recordLogin id at_ => exact absurd trivial hrange
  | findById id => exact absurd trivial hrange

theorem answers_eq_iff (h : Agree players rows) (ops : List Op) :
    rows.answers uuidText rangeText ops = players.answers ops ↔ InRange players ops := by
  induction ops generalizing players rows with
  | nil => exact iff_of_true rfl trivial
  | cons op ops ih =>
      simp only [Rows.answers, Players.answers, InRange, List.cons.injEq]
      by_cases hrange : op.InRange players
      · obtain ⟨hanswer, hagree⟩ := apply_agree uuidText rangeText h hrange
        rw [ih hagree]
        exact and_congr_left' (iff_of_true hanswer hrange)
      · exact iff_of_false (fun heq => (gainExp_differs uuidText rangeText h hrange).2.2 heq.1) fun hboth => hrange hboth.1

theorem after_agree (h : Agree players rows) {ops : List Op} (hrange : InRange players ops) :
    Agree (players.after ops) (rows.after uuidText rangeText ops) := by
  induction ops generalizing players rows with
  | nil => exact h
  | cons op ops ih => exact ih (apply_agree uuidText rangeText h hrange.1).2 hrange.2

/-- The player is as `Player::create` makes it. -/
def Created (player : Player) : Prop :=
  ∃ id accountId nickname now, player = .create id accountId nickname now

theorem agree_saved {created : List Player} (hcreated : ∀ player ∈ created, Created player) :
    Agree (Players.saved created) (Rows.saved created) := by
  induction created using List.reverseRecOn with
  | nil => exact agree_empty
  | append_singleton created player ih =>
      obtain ⟨id, accountId, nickname, now, rfl⟩ := hcreated player (List.mem_append_right _ (List.mem_singleton_self _))
      have hbefore := ih fun stored hstored => hcreated stored (List.mem_append_left _ hstored)
      simp only [Players.saved, Rows.saved, List.foldl_append, List.foldl_cons, List.foldl_nil]
      exact hbefore.insert _ (Player.Reachable.create id accountId nickname now).settled (Nat.zero_le _)

/-- **The two player repositories.** After the same players, as `Player::create` makes them, were saved in both, a sequence
of calls is answered alike exactly when no gain takes a player's experience above what its column can hold. Along a sequence
without such a gain, the first gain that would is refused with a storage error, and the row stays as it was. -/
theorem repositories_agree {created : List Player} (hcreated : ∀ player ∈ created, Created player)
    (ops : List Op) :
    ((Rows.saved created).answers uuidText rangeText ops = (Players.saved created).answers ops ↔
      InRange (Players.saved created) ops) ∧
    (∀ op, InRange (Players.saved created) ops → ¬ op.InRange ((Players.saved created).after ops) →
      ((Rows.saved created).after uuidText rangeText ops).apply uuidText rangeText op =
        (.gained (.error (.storage rangeText)), (Rows.saved created).after uuidText rangeText ops)) := by
  have h := agree_saved hcreated
  refine ⟨answers_eq_iff uuidText rangeText h ops, fun op hrange hlarge => ?_⟩
  obtain ⟨hanswer, hrows, -⟩ := gainExp_differs uuidText rangeText (after_agree uuidText rangeText h hrange) hlarge
  exact Prod.ext hanswer hrows

end

/-! ### One player -/

def newPlayer : Player := .create ⟨1⟩ ⟨1⟩ ⟨"test", by decide +kernel, by decide, by decide⟩ 0

theorem newPlayer_created : ∀ player ∈ [newPlayer], Created player := by
  intro player hplayer
  obtain rfl := List.mem_singleton.mp hplayer
  exact ⟨_, _, _, _, rfl⟩

/-- What `TryFromIntError` prints in today's standard library. -/
def outOfRange : String := "out of range integral type conversion attempted"

def firstCalls : List Op := [.gainExp ⟨1⟩ 100, .recordLogin ⟨1⟩ 7, .findById ⟨1⟩, .findById ⟨2⟩]

theorem repositories_agree_first_calls : InRange (Players.saved [newPlayer]) firstCalls :=
  (repositories_agree (fun _ => "") outOfRange newPlayer_created firstCalls).1.mp (by decide +kernel)

/-- The largest gain of all takes a new player to the last level, with more experience than an `i64`. -/
theorem largest_gain_differs : ¬ ∀ (uuidText : Uuid → String) (rangeText : String) (created : List Player) (ops : List Op),
    (∀ player ∈ created, Created player) → (∀ id amount, .gainExp id amount ∈ ops → 0 < amount ∧ amount ≤ u64Max) →
    (Rows.saved created).answers uuidText rangeText ops = (Players.saved created).answers ops := by
  intro hequal
  have hsame := hequal (fun _ => "") outOfRange [newPlayer] [.gainExp ⟨1⟩ u64Max] newPlayer_created (by simp [u64Max])
  exact absurd hsame (by decide +kernel)

end LongshipX.Persistence
