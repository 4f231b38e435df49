import LongshipX.Application.Login

/-!
# A login whose ports may fail

`LoginUseCase::execute` over the in-memory stores, where any call of a port may have no effect and return an error, or
answer `None`.

* `checkLogin` : everything up to the first write; `executeWith` : the whole;
* `executeWith_works` : with ports that all work it is `execute`;
* `Stranded` : the login is recorded, and then no token can be created;
* `failed_login_iff` : a login that fails changes nothing, exactly if it is not stranded.
-/

namespace LongshipX.Application.Login
open Persistence

/-- What a call of a port does: its work, or nothing. -/
inductive Port (ε : Type) where
  | works
  | fails (err : ε)
  | answersNone
  deriving DecidableEq, Repr

def Port.read {ε α : Type} (port : Port ε) (answer : Except ε (Option α)) : Except ε (Option α) :=
  match port with
  | .works => answer
  | .fails err => .error err
  | .answersNone => .ok none

/-- The answer of a call that writes, and what is stored after it. -/
def Port.write {ε α σ : Type} (port : Port ε) (stored : σ) (done : Except ε (Option α) × σ) : Except ε (Option α) × σ :=
  match port with
  | .works => done
  | .fails err => (.error err, stored)
  | .answersNone => (.ok none, stored)

/-- What the ports do and the clocks say in one login. -/
structure Ports where
  findByUsername : Port RepoError
  checkedAt : DateTime
  verified : Except AppError Bool
  findByAccount : Port RepoError
  recordLogin : Port RepoError
  recordedAt : DateTime
  /-- The error of `SessionTokenStore::create`, if it fails on its own. -/
  create : Option AppError
  token : String
  instant : Nat
  audited : Except AppError Unit

/-- `ok_or_else`, behind a `?` on the call. -/
def found {α : Type} (answer : Except RepoError (Option α)) (missing : AppError) : Except AppError α :=
  match answer with
  | .error err => .error (.ofRepo err)
  | .ok none => .error missing
  | .ok (some a) => .ok a

/-- `execute` up to `record_login`. -/
def checkLogin (ports : Ports) (stores : Stores) (cmd : LoginCommand) : Except AppError Player :=
  match Username.tryNew cmd.username with
  | .error err => .error (.ofDomain err)
  | .ok username =>
    match found (ports.findByUsername.read (stores.accounts.findByUsername username.value))
        (.unauthorized "用户名或密码错误") with
    | .error err => .error err
    | .ok account =>
      match ensureLoginAllowed ports.checkedAt account with
      | .error err => .error err
      | .ok () =>
        match ports.verified with
        | .error err => .error err
        | .ok false => .error (.unauthorized "用户名或密码错误")
        | .ok true =>
          found (ports.findByAccount.read (stores.players.findByAccount account.id)) (.internal "账号缺少对应的玩家档案")

/-- `SessionTokenStore::create`. -/
def createToken (config : Config) (ports : Ports) (stores : Stores) (player : PlayerId) :
    Except AppError String × Session.State :=
  match ports.create with
  | some err => (.error err, stores.tokens)
  | none => stores.tokens.create config.instantMax player config.tokenTtl ports.token ports.instant

/-- `execute` from `record_login` on; a failed audit is only logged. -/
def commit (config : Config) (ports : Ports) (stores : Stores) (playerId : PlayerId) :
    Except AppError LoginResult × Stores :=
  match ports.recordLogin.write stores.players (stores.players.recordLogin playerId ports.recordedAt) with
  | (.error err, players) => (.error (.ofRepo err), { stores with players := players })
  | (.ok none, players) => (.error (.internal "账号缺少对应的玩家档案"), { stores with players := players })
  | (.ok (some player), players) =>
    match createToken config ports stores player.id with
    | (.error err, tokens) => (.error err, { stores with players := players, tokens := tokens })
    | (.ok token, tokens) =>
      (.ok ⟨token, player.id, player.nickname.value, config.tokenTtl / 10 ^ 9⟩,
        { stores with players := players, tokens := tokens })

/-- `execute`. -/
def executeWith (config : Config) (ports : Ports) (stores : Stores) (cmd : LoginCommand) :
    Except AppError LoginResult × Stores :=
  match checkLogin ports stores cmd with
  | .error err => (.error err, stores)
  | .ok player => commit config ports stores player.id

def Ports.envs (ports : Ports) (pc : Pc) : Env where
  now := match pc with
    | .recordLogin _ => ports.recordedAt
    | _ => ports.checkedAt
  instant := ports.instant
  hashed := .ok ""
  verified := ports.verified
  published := .ok ()
  audited := ports.audited
  accountId := ⟨0⟩
  playerId := ⟨0⟩
  token := ports.token

section
variable {config : Config} {ports : Ports} {stores : Stores} {cmd : LoginCommand}

/-! ## Ports that work -/

theorem resume_checkLogin (hfind : ports.findByUsername = .works) (haccount : ports.findByAccount = .works) :
    execute config ports.envs stores cmd = match checkLogin ports stores cmd with
      | .error err => (stores, .done (.error err))
      | .ok player => resume config ports.envs cmd 3 stores (.recordLogin player.id) := by
  unfold execute checkLogin
  rw [hfind, haccount]
  cases hname : Username.tryNew cmd.username with
  | error err => simp only [resume, advance, hname]
  | ok username =>
      have hchecked : (ports.envs (.loadAccount username)).now = ports.checkedAt := rfl
      cases hfound : stores.accounts.findByUsername username.value with
      | error err => cases hfound
      | ok answer =>
          cases answer with
          | none => simp only [resume, advance, hname, loadAccount, hfound, found, Port.read]
          | some account =>
              have hverified : (ports.envs (.verify account)).verified = ports.verified := rfl
              simp only [resume, advance, hname, loadAccount, hfound, found, Port.read, hchecked]
              cases ensureLoginAllowed ports.checkedAt account with
              | error err => rfl
              | ok =>
                  simp only [hverified]
                  cases ports.verified with
                  | error err => rfl
                  | ok answer =>
                      cases answer with
                      | false => rfl
                      | true =>
                          simp only [loadPlayer]
                          cases stores.players.findByAccount account.id with
                          | error err => rfl
                          | ok player => cases player <;> rfl

/-- A `create` of the in-memory store fails only if the deadline cannot be represented, and does nothing then. -/
theorem createToken_cases (config : Config) (ports : Ports) (stores : Stores) (playerId : PlayerId) :
    ((ports.create ≠ none ∨ config.instantMax < ports.instant + config.tokenTtl) ∧
      ∃ err, createToken config ports stores playerId = (.error err, stores.tokens)) ∨
    (ports.create = none ∧ ports.instant + config.tokenTtl ≤ config.instantMax ∧
      ∃ token tokens, createToken config ports stores playerId = (.ok token, tokens)) := by
  unfold createToken
  cases hcreate : ports.create with
  | some err => exact Or.inl ⟨Or.inl (by simp), err, rfl⟩
  | none =>
      dsimp only
      unfold Session.State.create
      split_ifs with hfits
      · exact Or.inr ⟨rfl, hfits, _, _, rfl⟩
      · exact Or.inl ⟨Or.inr (Nat.lt_of_not_le hfits), _, rfl⟩

theorem resume_commit (hrecord : ports.recordLogin = .works) (hcreate : ports.create = none) (playerId : PlayerId) :
    resume config ports.envs cmd 3 stores (.recordLogin playerId) =
      ((commit config ports stores playerId).2, .done (commit config ports stores playerId).1) := by
  have hrecorded : (ports.envs (.recordLogin playerId)).now = ports.recordedAt := rfl
  unfold commit
  rw [hrecord]
  simp only [resume, advance, Port.write, hrecorded, Players.recordLogin]
  cases stores.players.lookup playerId.uuid with
  | none => rfl
  | some player =>
      have hsame : createToken config ports stores (player.recordLogin ports.recordedAt).id =
          stores.tokens.create config.instantMax (player.recordLogin ports.recordedAt).id config.tokenTtl
            (ports.envs (.createToken (player.recordLogin ports.recordedAt))).token
            (ports.envs (.createToken (player.recordLogin ports.recordedAt))).instant := by
        unfold createToken
        rw [hcreate]
        rfl
      dsimp only
      rw [← hsame]
      obtain ⟨-, err, hfails⟩ | ⟨-, -, token, tokens, hcreates⟩ :=
        createToken_cases config ports stores (player.recordLogin ports.recordedAt).id
      · rw [hfails]
      · rw [hcreates]

/-- **With ports that all work** it is the login of the other modules. -/
theorem executeWith_works (hfind : ports.findByUsername = .works) (haccount : ports.findByAccount = .works)
    (hrecord : ports.recordLogin = .works) (hcreate : ports.create = none) :
    execute config ports.envs stores cmd =
      ((executeWith config ports stores cmd).2, .done (executeWith config ports stores cmd).1) := by
  rw [resume_checkLogin hfind haccount, executeWith]
  cases checkLogin ports stores cmd with
  | error err => rfl
  | ok player => exact resume_commit hrecord hcreate player.id

/-! ## Ports that fail -/

/-- Nobody sees a difference: the same accounts, the same players, the same answer to every token at every time. -/
structure Unchanged (before after : Stores) : Prop where
  accounts : ∀ id, after.accounts.lookup id = before.accounts.lookup id
  players : ∀ id, after.players.lookup id = before.players.lookup id
  tokens : ∀ token now, after.tokens.resolve token now = before.tokens.resolve token now

/-- The login passes every check, is recorded with a new time, and then no token can be created. -/
def Stranded (config : Config) (ports : Ports) (stores : Stores) (cmd : LoginCommand) : Prop :=
  ∃ player stored, checkLogin ports stores cmd = .ok player ∧ ports.recordLogin = .works ∧
    stores.players.lookup player.id.uuid = some stored ∧ stored.lastLoginAt ≠ some ports.recordedAt ∧
    (ports.create ≠ none ∨ config.instantMax < ports.instant + config.tokenTtl)

theorem unchanged_refl (stores : Stores) : Unchanged stores stores := ⟨fun _ => rfl, fun _ => rfl, fun _ _ => rfl⟩

theorem unchanged_recorded {stored : Player} {playerId : PlayerId} {at_ : DateTime}
    (hstored : stores.players.lookup playerId.uuid = some stored) :
    Unchanged stores { stores with players := stores.players.insert playerId.uuid (stored.recordLogin at_) } ↔
      stored.lastLoginAt = some at_ := by
  constructor
  · intro h
    have hsame := h.players playerId.uuid
    rw [AList.lookup_insert, hstored] at hsame
    exact (congrArg Player.lastLoginAt (Option.some.inj hsame)).symm
  · intro hlast
    have hsame : stored.recordLogin at_ = stored := by
      unfold Player.recordLogin
      rw [← hlast]
    refine ⟨fun _ => rfl, fun id => ?_, fun _ _ => rfl⟩
    dsimp only
    rw [hsame]
    by_cases hid : id = playerId.uuid
    · rw [hid, AList.lookup_insert, hstored]
    · exact AList.lookup_insert_ne hid

theorem commit_iff (playerId : PlayerId) :
    ((∃ err, (commit config ports stores playerId).1 = .error err) →
      Unchanged stores (commit config ports stores playerId).2) ↔
    ¬ ∃ stored, ports.recordLogin = .works ∧ stores.players.lookup playerId.uuid = some stored ∧
      stored.lastLoginAt ≠ some ports.recordedAt ∧
      (ports.create ≠ none ∨ config.instantMax < ports.instant + config.tokenTtl) := by
  unfold commit
  cases hrecord : ports.recordLogin with
  | fails err => exact iff_of_true (fun _ => unchanged_refl stores) (by simp)
  | answersNone => exact iff_of_true (fun _ => unchanged_refl stores) (by simp)
  | works =>
      simp only [Port.write, Players.recordLogin]
      cases hstored : stores.players.lookup playerId.uuid with
      | none => exact iff_of_true (fun _ => unchanged_refl stores) (by simp)
      | some stored =>
          dsimp only
          obtain ⟨hcannot, err, hfails⟩ | ⟨hcan, hfits, token, tokens, hcreates⟩ :=
            createToken_cases config ports stores (stored.recordLogin ports.recordedAt).id
          · rw [hfails]
            simp only [Except.error.injEq, exists_eq', forall_const, unchanged_recorded hstored]
            simp [hcannot]
          · rw [hcreates]
            refine iff_of_true (fun hfailed => ?_) ?_
            · obtain ⟨err, herr⟩ := hfailed
              cases herr
            · rintro ⟨_, -, -, -, hcannot | hlate⟩
              · exact hcannot hcan
              · omega

/-- **A login that fails changes nothing**, whatever the stores hold and the ports do, exactly if it is not stranded. -/
theorem failed_login_iff (config : Config) (ports : Ports) (stores : Stores) (cmd : LoginCommand) :
    ((∃ err, (executeWith config ports stores cmd).1 = .error err) →
      Unchanged stores (executeWith config ports stores cmd).2) ↔ ¬ Stranded config ports stores cmd := by
  unfold executeWith Stranded
  cases checkLogin ports stores cmd with
  | error err => exact iff_of_true (fun _ => unchanged_refl stores) (by simp)
  | ok player =>
      dsimp only
      rw [commit_iff]
      simp

end

/-! ### A token store that is down -/

def bobOnly : Stores where
  accounts := (∅ : Accounts).insert 1 ⟨⟨1⟩, ⟨"bob", by decide, by decide⟩, "hash", .active, 0⟩
  players := (∅ : Players).insert 2 (.create ⟨2⟩ ⟨1⟩ ⟨"bob", by decide +kernel, by decide, by decide⟩ 0)
  tokens := .new

/-- The password is right, and every port works but the token store. -/
def tokensDown : Ports := ⟨.works, 5, .ok true, .works, .works, 5, some (.internal "down"), "token", 0, .ok ()⟩

/-- The login returns an error, and `last_login_at` says that he logged in. -/
theorem failed_login_recorded : ¬ ∀ (config : Config) (ports : Ports) (stores : Stores) (cmd : LoginCommand),
    (∃ err, (executeWith config ports stores cmd).1 = .error err) →
      Unchanged stores (executeWith config ports stores cmd).2 := by
  intro hunchanged
  have hfailed : (executeWith ⟨1, 10⟩ tokensDown bobOnly ⟨"bob", "secret"⟩).1 = .error (.internal "down") := by
    decide +kernel
  have hsame := (hunchanged _ _ _ _ ⟨_, hfailed⟩).players 2
  have hbefore : (bobOnly.players.lookup 2).map Player.lastLoginAt = some none := by decide +kernel
  have hafter : ((executeWith ⟨1, 10⟩ tokensDown bobOnly ⟨"bob", "secret"⟩).2.players.lookup 2).map
      Player.lastLoginAt = some (some 5) := by decide +kernel
  rw [hsame, hbefore] at hafter
  cases hafter

end LongshipX.Application.Login
