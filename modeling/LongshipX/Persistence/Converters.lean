import LongshipX.Persistence.PlayerRepo

/-!
# The rows of the database and the aggregates

`converters.rs` with the time columns as the entities have them: a `DateTimeWithTimeZone` is a value of `FixedTime`, and
`toUtc` and `toFixed` are the conversions of `chrono`. `PlayerRepo` reads the same columns as UTC times already.

* `statusFromCode`, `statusToParts` : an account status is a code and two nullable columns;
* `accountToDomain`, `accountToActive`, `playerToDomain`, `playerToActive`;
* `playerToDomain_eq`, `playerToActive_inUtc` : in UTC these are the converters of the repository;
* `conversion_lossless` : what is written is read back.
-/

namespace LongshipX.Persistence.Zoned

/-! ## The status -/

/-- `status_from_code`; the two columns of a ban are read by the caller. -/
def statusFromCode (code : Int) : Except RepoError AccountStatus :=
  match code with
  | 0 => .ok .active
  | 1 => .ok .suspended
  | 2 => .ok (.banned "" none)
  | other => .error (.storage ("未知的账号状态码 " ++ toString other))

/-- `status_to_parts`. -/
def statusToParts : AccountStatus → Int × Option String × Option DateTime
  | .active => (0, none, none)
  | .suspended => (1, none, none)
  | .banned reason until_ => (2, some reason, until_)

/-- `if let AccountStatus::Banned { reason, until } = &mut status`. -/
def fillBan (reason : Option String) (until_ : Option DateTime) : AccountStatus → AccountStatus
  | .banned _ _ => .banned (reason.getD "") until_
  | status => status

theorem statusFromCode_toParts (status : AccountStatus) :
    (statusFromCode (statusToParts status).1).map (fillBan (statusToParts status).2.1 (statusToParts status).2.2) =
      .ok status := by
  cases status with
  | active => rfl
  | suspended => rfl
  | banned reason until_ => rfl

/-! ## The rows -/

/-- `account_entity::Model`. -/
structure AccountModel (FixedTime : Type) where
  id : Uuid
  username : String
  passwordHash : String
  status : Int
  bannedReason : Option String
  bannedUntil : Option FixedTime
  createdAt : FixedTime
  deriving DecidableEq

/-- `player_entity::Model`. -/
structure PlayerModel (FixedTime : Type) where
  id : Uuid
  accountId : Uuid
  nickname : String
  level : Int
  exp : Int
  lastLoginAt : Option FixedTime
  createdAt : FixedTime
  deriving DecidableEq

section
variable {FixedTime : Type} (toUtc : FixedTime → DateTime) (toFixed : DateTime → FixedTime) (uuidText : Uuid → String)

/-- `account_to_domain`. -/
def accountToDomain (model : AccountModel FixedTime) : Except RepoError Account :=
  match Username.tryNew model.username with
  | .error err => .error (.storage ("账号数据不符合领域规则: " ++ err.toText uuidText))
  | .ok username =>
    match statusFromCode model.status with
    | .error err => .error err
    | .ok status =>
      let status := fillBan model.bannedReason (model.bannedUntil.map toUtc) status
      .ok ⟨⟨model.id⟩, username, model.passwordHash, status, toUtc model.createdAt⟩

/-- `account_to_active`, with every column set. -/
def accountToActive (account : Account) : AccountModel FixedTime :=
  let (status, reason, until_) := statusToParts account.status
  ⟨account.id.uuid, account.username.value, account.passwordHash, status, reason, until_.map toFixed,
    toFixed account.createdAt⟩

/-- `player_to_domain`. -/
def playerToDomain (model : PlayerModel FixedTime) : Except RepoError Player :=
  match Nickname.tryNew model.nickname with
  | .error err => .error (.storage ("玩家数据不符合领域规则: " ++ err.toText uuidText))
  | .ok nickname => .ok ⟨⟨model.id⟩, ⟨model.accountId⟩, nickname, (tryFromInt u32Max (max model.level 0)).getD 0,
      (tryFromInt u64Max (max model.exp 0)).getD 0, model.lastLoginAt.map toUtc, toUtc model.createdAt⟩

/-- `player_to_active`, with every column set. -/
def playerToActive (player : Player) : PlayerModel FixedTime :=
  ⟨player.id.uuid, player.accountId.uuid, player.nickname.value, (tryFromNat i32Max player.level).getD i32Max,
    (tryFromNat i64Max player.exp).getD i64Max, player.lastLoginAt.map toFixed, toFixed player.createdAt⟩

/-! ## Round trips -/

/-- The row with its times in UTC, as `PlayerRepo` has it. -/
def PlayerModel.inUtc (model : PlayerModel FixedTime) : Persistence.PlayerModel :=
  ⟨model.id, model.accountId, model.nickname, model.level, model.exp, model.lastLoginAt.map toUtc, toUtc model.createdAt⟩

theorem playerToDomain_eq (model : PlayerModel FixedTime) :
    playerToDomain toUtc uuidText model = Persistence.playerToDomain uuidText (model.inUtc toUtc) := by
  cases hname : Nickname.tryNew model.nickname with
  | error err => simp only [playerToDomain, Persistence.playerToDomain, PlayerModel.inUtc, hname]
  | ok nickname => simp only [playerToDomain, Persistence.playerToDomain, PlayerModel.inUtc, hname]

variable {toUtc toFixed} (hzone : ∀ time, toUtc (toFixed time) = time)
include hzone

theorem map_toUtc_toFixed (time : Option DateTime) : (time.map toFixed).map toUtc = time := by
  cases time with
  | none => rfl
  | some time => rw [Option.map_some, Option.map_some, hzone]

theorem playerToActive_inUtc (player : Player) :
    (playerToActive toFixed player).inUtc toUtc = Persistence.playerToActive player := by
  simp only [playerToActive, PlayerModel.inUtc, Persistence.playerToActive, map_toUtc_toFixed hzone, hzone]

theorem accountToDomain_toActive {account : Account} {raw : String} (hname : Username.tryNew raw = .ok account.username) :
    accountToDomain toUtc uuidText (accountToActive toFixed account) = .ok account := by
  have hread := Username.tryNew_value_self hname
  obtain ⟨id, username, passwordHash, status, createdAt⟩ := account
  simp only [accountToDomain, accountToActive, hread, map_toUtc_toFixed hzone, hzone]
  have hstatus := statusFromCode_toParts status
  cases hcode : statusFromCode (statusToParts status).1 with
  | error err =>
      rw [hcode] at hstatus
      cases hstatus
  | ok code =>
      rw [hcode] at hstatus
      simp only [Except.ok.inj hstatus]

/-- **The conversions lose nothing that fits.** Every account whose name `Username::try_new` made, of any status, and every
player whose numbers the columns can hold, comes back from its row in every field. A `Nickname` is one that
`Nickname::try_new` makes. -/
theorem conversion_lossless :
    (∀ account : Account, (∃ raw, Username.tryNew raw = .ok account.username) →
      accountToDomain toUtc uuidText (accountToActive toFixed account) = .ok account) ∧
    (∀ player : Player, player.level ≤ i32Max → player.exp ≤ i64Max →
      playerToDomain toUtc uuidText (playerToActive toFixed player) = .ok player) := by
  refine ⟨?_, ?_⟩
  · rintro account ⟨raw, hname⟩
    exact accountToDomain_toActive uuidText hzone hname
  · intro player hlevel hexp
    rw [playerToDomain_eq, playerToActive_inUtc hzone]
    exact playerToDomain_toActive uuidText ⟨hlevel, hexp⟩

end

/-! ### A banned account -/

abbrev OffsetTime := DateTime × Int

def banned : Account := ⟨⟨1⟩, ⟨"carol_7", by decide +kernel, by decide +kernel⟩, "hash", .banned "cheating" (some 9), 5⟩

theorem conversion_lossless_banned :
    accountToDomain Prod.fst (fun _ => "") (accountToActive (fun time => (time, 0)) banned) =
        .ok banned ∧
      playerToDomain Prod.fst (fun _ => "") (playerToActive (fun time => (time, 0)) newPlayer) =
        .ok newPlayer := by
  have hzone : ∀ time : DateTime, (Prod.fst : OffsetTime → DateTime) (time, 0) = time := fun _ => rfl
  obtain ⟨haccount, hplayer⟩ := conversion_lossless (fun _ => "") hzone
  refine ⟨haccount banned ⟨" Carol_7 ", ?_⟩, hplayer newPlayer ?_ ?_⟩
  · decide +kernel
  · decide
  · decide

end LongshipX.Persistence.Zoned
