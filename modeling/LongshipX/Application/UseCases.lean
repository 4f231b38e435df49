import LongshipX.Lib.Indexed
import LongshipX.Lib.Transition
import LongshipX.Persistence.MemoryRepos
import LongshipX.Session.TokenStore

/-!
# The use cases of the `application` crate

`RegisterUseCase`, `LoginUseCase` and `GainExpUseCase` over the in-memory stores, as programs that run side by side: a
step of one execution is what it does between two of its `await`s. What the ports, the clocks and the generators of ids
and tokens answer in a step is part of the step (`Env`), so a run covers every answer.

* `GainExp.advance`, `Login.advance`, `Register.advance` : the use cases, one await at a time;
* `State.step` : any execution goes on; `State.log` keeps what each of them did to the stores and published.
-/

namespace LongshipX.Application
open Persistence

/-! ## Commands, results and stores -/

structure RegisterCommand where
  username : String
  password : String
  nickname : String
  deriving DecidableEq, Repr

structure RegisterResult where
  accountId : AccountId
  playerId : PlayerId
  nickname : String
  deriving DecidableEq, Repr

structure LoginCommand where
  username : String
  password : String
  deriving DecidableEq, Repr

structure LoginResult where
  token : String
  playerId : PlayerId
  nickname : String
  expiresInSecs : Nat
  deriving DecidableEq, Repr

structure PlayerProfile where
  playerId : PlayerId
  nickname : String
  level : Nat
  exp : Nat
  lastLoginAt : Option DateTime
  deriving DecidableEq, Repr

/-- `impl From<&Player> for PlayerProfile`. -/
def PlayerProfile.of (player : Player) : PlayerProfile :=
  ⟨player.id, player.nickname.value, player.level, player.exp, player.lastLoginAt⟩

/-- What the use cases share. -/
structure Stores where
  accounts : Accounts
  players : Players
  tokens : Session.State

/-- The token lifetime in nanoseconds, and the last instant the monotonic clock can represent. -/
structure Config where
  tokenTtl : Nat
  instantMax : Nat
  deriving DecidableEq, Repr

/-- What the outside answers in one step. -/
structure Env where
  now : DateTime
  instant : Nat
  hashed : Except AppError String
  verified : Except AppError Bool
  published : Except AppError Unit
  audited : Except AppError Unit
  accountId : AccountId
  playerId : PlayerId
  token : String

/-- What a step did to the stores, or published. -/
inductive Mark where
  | gained (playerId : PlayerId) (amount : Nat) (before after : Player)
  | loggedIn (playerId : PlayerId) (before after : Player)
  | tokenCreated (playerId : PlayerId) (token : String)
  | registered (account : Account) (player : Player)
  | published (playerId : PlayerId) (newLevel : Nat) (result : Except AppError Unit)

/-! ## `GainExpUseCase::execute` -/

namespace GainExp

inductive Pc where
  | start
  | repository
  | publish (player : Player) (newLevel : Nat)
  | done (result : Except AppError PlayerProfile)
  deriving DecidableEq

def advance (env : Env) (stores : Stores) (playerId : PlayerId) (amount : Nat) : Pc → Option (Stores × Pc × Option Mark)
  | .start =>
    if amount = 0 then some (stores, .done (.error (.validation "经验值必须大于 0")), none)
    else some (stores, .repository, none)
  | .repository =>
    match stores.players.gainExp playerId amount with
    | (.error err, _) => some (stores, .done (.error (.ofRepo err)), none)
    | (.ok none, _) => some (stores, .done (.error (.notFound "玩家不存在")), none)
    | (.ok (some (player, newLevel)), players) =>
      let mark := (stores.players.lookup playerId.uuid).map fun before => .gained playerId amount before player
      match newLevel with
      | some newLevel => some ({ stores with players := players }, .publish player newLevel, mark)
      | none => some ({ stores with players := players }, .done (.ok (.of player)), mark)
  | .publish player newLevel =>
    match env.published with
    | .ok () => some (stores, .done (.ok (.of player)), some (.published playerId newLevel (.ok ())))
    | .error err =>
      some (stores, .done (.error (.postCommit err.toText)), some (.published playerId newLevel (.error err)))
  | .done _ => none

end GainExp

/-! ## `LoginUseCase::execute` -/

namespace Login

inductive Pc where
  | start
  | loadAccount (username : Username)
  | verify (account : Account)
  | loadPlayer (account : Account)
  | recordLogin (playerId : PlayerId)
  | createToken (player : Player)
  | audit (player : Player) (token : String)
  | done (result : Except AppError LoginResult)
  deriving DecidableEq

/-- `ensure_login_allowed`. -/
def ensureLoginAllowed (now : DateTime) (account : Account) : Except AppError Unit :=
  if account.status.allowsLogin now then .ok () else .error (.forbidden "账号当前不可登录")

/-- `load_account`, and the status check that follows it without an await. -/
def loadAccount (env : Env) (stores : Stores) (username : Username) : Except AppError Account :=
  match stores.accounts.findByUsername username.value with
  | .error err => .error (.ofRepo err)
  | .ok none => .error (.unauthorized "用户名或密码错误")
  | .ok (some account) =>
    match ensureLoginAllowed env.now account with
    | .error err => .error err
    | .ok () => .ok account

/-- `load_player`. -/
def loadPlayer (stores : Stores) (accountId : AccountId) : Except AppError Player :=
  match stores.players.findByAccount accountId with
  | .error err => .error (.ofRepo err)
  | .ok none => .error (.internal "账号缺少对应的玩家档案")
  | .ok (some player) => .ok player

def advance (config : Config) (env : Env) (stores : Stores) (cmd : LoginCommand) : Pc → Option (Stores × Pc × Option Mark)
  | .start =>
    match Username.tryNew cmd.username with
    | .error err => some (stores, .done (.error (.ofDomain err)), none)
    | .ok username => some (stores, .loadAccount username, none)
  | .loadAccount username =>
    match loadAccount env stores username with
    | .error err => some (stores, .done (.error err), none)
    | .ok account => some (stores, .verify account, none)
  | .verify account =>
    match env.verified with
    | .error err => some (stores, .done (.error err), none)
    | .ok false => some (stores, .done (.error (.unauthorized "用户名或密码错误")), none)
    | .ok true => some (stores, .loadPlayer account, none)
  | .loadPlayer account =>
    match loadPlayer stores account.id with
    | .error err => some (stores, .done (.error err), none)
    | .ok player => some (stores, .recordLogin player.id, none)
  | .recordLogin playerId =>
    match stores.players.recordLogin playerId env.now with
    | (.error err, _) => some (stores, .done (.error (.ofRepo err)), none)
    | (.ok none, _) => some (stores, .done (.error (.internal "账号缺少对应的玩家档案")), none)
    | (.ok (some player), players) =>
      some ({ stores with players := players }, .createToken player,
        (stores.players.lookup playerId.uuid).map fun before => .loggedIn playerId before player)
  | .createToken player =>
    -- the store replaces the player's old token in the same operation
    match stores.tokens.create config.instantMax player.id config.tokenTtl env.token env.instant with
    | (.error err, _) => some (stores, .done (.error err), none)
    | (.ok token, tokens) =>
      some ({ stores with tokens := tokens }, .audit player token, some (.tokenCreated player.id token))
  | .audit player token =>
    -- a failed audit is only logged
    some (stores, .done (.ok ⟨token, player.id, player.nickname.value, config.tokenTtl / 10 ^ 9⟩), none)
  | .done _ => none

end Login

/-! ## `RegisterUseCase::execute` -/

namespace Register

inductive Pc where
  | start
  | findByUsername (username : Username) (nickname : Nickname) (password : PlainPassword)
  | hash (username : Username) (nickname : Nickname) (password : PlainPassword)
  | store (account : Account) (player : Player)
  | audit (account : Account) (player : Player)
  | done (result : Except AppError RegisterResult)
  deriving DecidableEq

/-- The checks before the first await. -/
def validate (cmd : RegisterCommand) : Except DomainError (Username × Nickname × PlainPassword) :=
  match Username.tryNew cmd.username with
  | .error err => .error err
  | .ok username =>
    match Nickname.tryNew cmd.nickname with
    | .error err => .error err
    | .ok nickname =>
      match PlainPassword.tryNew cmd.password with
      | .error err => .error err
      | .ok password => .ok (username, nickname, password)

def advance (env : Env) (stores : Stores) (cmd : RegisterCommand) : Pc → Option (Stores × Pc × Option Mark)
  | .start =>
    match validate cmd with
    | .error err => some (stores, .done (.error (.ofDomain err)), none)
    | .ok (username, nickname, password) => some (stores, .findByUsername username nickname password, none)
  | .findByUsername username nickname password =>
    match stores.accounts.findByUsername username.value with
    | .error err => some (stores, .done (.error (.ofRepo err)), none)
    | .ok (some _) => some (stores, .done (.error (.conflict "用户名已被占用")), none)
    | .ok none => some (stores, .hash username nickname password, none)
  | .hash username nickname _ =>
    match env.hashed with
    | .error err => some (stores, .done (.error err), none)
    | .ok hash =>
      let account := Account.register env.accountId username hash env.now
      some (stores, .store account (Player.create env.playerId account.id nickname env.now), none)
  | .store account player =>
    match register stores.accounts stores.players account player with
    | (.error err, _) => some (stores, .done (.error err), none)
    | (.ok (), accounts, players) =>
      some ({ stores with accounts := accounts, players := players }, .audit account player,
        some (.registered account player))
  | .audit account player =>
    -- a failed audit is only logged
    some (stores, .done (.ok ⟨account.id, player.id, player.nickname.value⟩), none)
  | .done _ => none

end Register

/-! ## Executions side by side -/

/-- One call of a use case and where it is. -/
inductive Exec where
  | gainExp (playerId : PlayerId) (amount : Nat) (pc : GainExp.Pc)
  | login (cmd : LoginCommand) (pc : Login.Pc)
  | register (cmd : RegisterCommand) (pc : Register.Pc)
  deriving DecidableEq

/-- A call of a use case. -/
inductive Call where
  | gainExp (playerId : PlayerId) (amount : Nat)
  | login (cmd : LoginCommand)
  | register (cmd : RegisterCommand)

def Call.start : Call → Exec
  | .gainExp playerId amount => .gainExp playerId amount .start
  | .login cmd => .login cmd .start
  | .register cmd => .register cmd .start

/-- The call has returned. -/
def Exec.over : Exec → Bool
  | .gainExp _ _ (.done _) => true
  | .login _ (.done _) => true
  | .register _ (.done _) => true
  | _ => false

def Exec.advance (config : Config) (env : Env) (stores : Stores) : Exec → Option (Stores × Exec × Option Mark)
  | .gainExp playerId amount pc =>
    (GainExp.advance env stores playerId amount pc).map fun (stores, pc, mark) => (stores, .gainExp playerId amount pc, mark)
  | .login cmd pc => (Login.advance config env stores cmd pc).map fun (stores, pc, mark) => (stores, .login cmd pc, mark)
  | .register cmd pc => (Register.advance env stores cmd pc).map fun (stores, pc, mark) => (stores, .register cmd pc, mark)

/-- The stores, all calls so far and, oldest first, what each of them did. -/
structure State where
  stores : Stores
  execs : List Exec
  log : List (Nat × Mark)

inductive Label where
  | call (call : Call)
  | next (k : Nat) (env : Env)

def State.step (config : Config) (s : State) : Label → Option State
  | .call call => some { s with execs := s.execs ++ [call.start] }
  | .next k env =>
    match s.execs[k]? with
    | none => none
    | some exec =>
      (exec.advance config env s.stores).map fun (stores, exec, mark) =>
        { stores := stores
          execs := s.execs.set k exec
          log := s.log ++ (mark.map fun mark => (k, mark)).toList }

/-- The system from given stores. -/
def system (config : Config) (stores : Stores) : TransitionSystem State Label where
  init := ⟨stores, [], []⟩
  step := State.step config

/-- What execution `k` did. -/
def State.trace (s : State) (k : Nat) : List Mark := s.log.filterMap fun entry => if entry.1 = k then some entry.2 else none

/-! ## What a step of a use case can do -/

section
variable {config : Config} {env : Env} {stores stores' : Stores} {mark : Option Mark}

/-- A step of `GainExpUseCase`. -/
inductive GainExp.Moved (stores : Stores) (playerId : PlayerId) (amount : Nat) : Pc → Stores → Pc → Option Mark → Prop
  | zero (h : amount = 0) :
      Moved stores playerId amount .start stores (.done (.error (.validation "经验值必须大于 0"))) none
  | positive (h : amount ≠ 0) : Moved stores playerId amount .start stores .repository none
  | missing (h : stores.players.lookup playerId.uuid = none) :
      Moved stores playerId amount .repository stores (.done (.error (.notFound "玩家不存在"))) none
  | raised {player : Player} {newLevel : Nat} (h : stores.players.lookup playerId.uuid = some player)
      (hnew : (player.gainExp amount).1 = some newLevel) : Moved stores playerId amount .repository
        { stores with players := stores.players.insert playerId.uuid (player.gainExp amount).2 }
        (.publish (player.gainExp amount).2 newLevel) (some (.gained playerId amount player (player.gainExp amount).2))
  | kept {player : Player} (h : stores.players.lookup playerId.uuid = some player)
      (hnew : (player.gainExp amount).1 = none) : Moved stores playerId amount .repository
        { stores with players := stores.players.insert playerId.uuid (player.gainExp amount).2 }
        (.done (.ok (.of (player.gainExp amount).2))) (some (.gained playerId amount player (player.gainExp amount).2))
  | announced {player : Player} {newLevel : Nat} : Moved stores playerId amount (.publish player newLevel) stores
      (.done (.ok (.of player))) (some (.published playerId newLevel (.ok ())))
  | unannounced {player : Player} {newLevel : Nat} (err : AppError) : Moved stores playerId amount
      (.publish player newLevel) stores (.done (.error (.postCommit err.toText)))
      (some (.published playerId newLevel (.error err)))

theorem GainExp.advance_moved {playerId : PlayerId} {amount : Nat} {pc pc' : Pc}
    (h : advance env stores playerId amount pc = some (stores', pc', mark)) :
    Moved stores playerId amount pc stores' pc' mark := by
  cases pc with
  | start =>
      unfold advance at h
      split_ifs at h with hzero
      · obtain ⟨rfl, rfl, rfl⟩ := h
        exact .zero hzero
      · obtain ⟨rfl, rfl, rfl⟩ := h
        exact .positive hzero
  | repository =>
      unfold advance Players.gainExp at h
      cases hplayer : stores.players.lookup playerId.uuid with
      | none =>
          rw [hplayer] at h
          obtain ⟨rfl, rfl, rfl⟩ := h
          exact .missing hplayer
      | some player =>
          rw [hplayer] at h
          dsimp only at h
          cases hnew : (player.gainExp amount).1 with
          | none =>
              rw [hnew] at h
              obtain ⟨rfl, rfl, rfl⟩ := h
              exact .kept hplayer hnew
          | some newLevel =>
              rw [hnew] at h
              obtain ⟨rfl, rfl, rfl⟩ := h
              exact .raised hplayer hnew
  | publish player newLevel =>
      unfold advance at h
      cases hpublished : env.published with
      | ok =>
          rw [hpublished] at h
          obtain ⟨rfl, rfl, rfl⟩ := h
          exact .announced
      | error err =>
          rw [hpublished] at h
          obtain ⟨rfl, rfl, rfl⟩ := h
          exact .unannounced err
  | done result => cases h

/-- What a step of `LoginUseCase` can do to the stores. -/
inductive Login.Effect (config : Config) (env : Env) (stores : Stores) : Stores → Option Mark → Prop
  | quiet : Effect config env stores stores none
  | loggedIn {playerId : PlayerId} {player : Player} (h : stores.players.lookup playerId.uuid = some player) :
      Effect config env stores
        { stores with players := stores.players.insert playerId.uuid (player.recordLogin env.now) }
        (some (.loggedIn playerId player (player.recordLogin env.now)))
  | tokenCreated {playerId : PlayerId} {token : String} {tokens : Session.State}
      (h : stores.tokens.create config.instantMax playerId config.tokenTtl env.token env.instant = (.ok token, tokens)) :
      Effect config env stores { stores with tokens := tokens } (some (.tokenCreated playerId token))

theorem Login.advance_effect {cmd : LoginCommand} {pc pc' : Pc}
    (h : advance config env stores cmd pc = some (stores', pc', mark)) : Effect config env stores stores' mark := by
  cases pc with
  | start | loadAccount username | verify account | loadPlayer account =>
      simp only [advance] at h
      split at h <;> (obtain ⟨rfl, -, rfl⟩ := h; exact .quiet)
  | recordLogin playerId =>
      cases hplayer : stores.players.lookup playerId.uuid with
      | none =>
          simp only [advance, Players.recordLogin, hplayer] at h
          obtain ⟨rfl, -, rfl⟩ := h
          exact .quiet
      | some player =>
          simp only [advance, Players.recordLogin, hplayer] at h
          obtain ⟨rfl, -, rfl⟩ := h
          exact .loggedIn hplayer
  | createToken player =>
      simp only [advance] at h
      split at h
      · obtain ⟨rfl, -, rfl⟩ := h
        exact .quiet
      · next hcreate =>
        obtain ⟨rfl, -, rfl⟩ := h
        exact .tokenCreated hcreate
  | audit player token =>
      obtain ⟨rfl, -, rfl⟩ := h
      exact .quiet
  | done result => cases h

/-- A step of `RegisterUseCase`. -/
inductive Register.Moved (env : Env) (stores : Stores) (cmd : RegisterCommand) : Pc → Stores → Pc → Option Mark → Prop
  | refused {pc : Pc} (err : AppError) (haudit : ∀ account player, pc ≠ .audit account player)
      (hdone : ∀ result, pc ≠ .done result) : Moved env stores cmd pc stores (.done (.error err)) none
  | validated {username : Username} {nickname : Nickname} {password : PlainPassword}
      (h : validate cmd = .ok (username, nickname, password)) :
      Moved env stores cmd .start stores (.findByUsername username nickname password) none
  | free {username : Username} {nickname : Nickname} {password : PlainPassword} :
      Moved env stores cmd (.findByUsername username nickname password) stores (.hash username nickname password) none
  | hashed {username : Username} {nickname : Nickname} {password : PlainPassword} {hash : String}
      (h : env.hashed = .ok hash) : Moved env stores cmd (.hash username nickname password) stores
        (.store (Account.register env.accountId username hash env.now)
          (Player.create env.playerId env.accountId nickname env.now)) none
  | stored {account : Account} {player : Player} {accounts : Accounts} {players : Players}
      (h : register stores.accounts stores.players account player = (.ok (), accounts, players)) :
      Moved env stores cmd (.store account player) { stores with accounts := accounts, players := players }
        (.audit account player) (some (.registered account player))
  | audited {account : Account} {player : Player} : Moved env stores cmd (.audit account player) stores
      (.done (.ok ⟨account.id, player.id, player.nickname.value⟩)) none

theorem Register.advance_moved {cmd : RegisterCommand} {pc pc' : Pc}
    (h : advance env stores cmd pc = some (stores', pc', mark)) : Moved env stores cmd pc stores' pc' mark := by
  cases pc with
  | start =>
      simp only [advance] at h
      split at h
      · obtain ⟨rfl, rfl, rfl⟩ := h
        exact .refused _ (by simp) (by simp)
      · next hvalid =>
        obtain ⟨rfl, rfl, rfl⟩ := h
        exact .validated hvalid
  | findByUsername username nickname password =>
      simp only [advance] at h
      split at h
      · obtain ⟨rfl, rfl, rfl⟩ := h
        exact .refused _ (by simp) (by simp)
      · obtain ⟨rfl, rfl, rfl⟩ := h
        exact .refused _ (by simp) (by simp)
      · obtain ⟨rfl, rfl, rfl⟩ := h
        exact .free
  | hash username nickname password =>
      simp only [advance] at h
      split at h
      · obtain ⟨rfl, rfl, rfl⟩ := h
        exact .refused _ (by simp) (by simp)
      · next hhashed =>
        obtain ⟨rfl, rfl, rfl⟩ := h
        exact .hashed hhashed
  | store account player =>
      simp only [advance] at h
      split at h
      · obtain ⟨rfl, rfl, rfl⟩ := h
        exact .refused _ (by simp) (by simp)
      · next hstored =>
        obtain ⟨rfl, rfl, rfl⟩ := h
        exact .stored hstored
  | audit account player =>
      obtain ⟨rfl, rfl, rfl⟩ := h
      exact .audited
  | done result => cases h

/-- **What a step of an execution can do.** -/
theorem Exec.advance_cases {exec exec' : Exec} (h : exec.advance config env stores = some (stores', exec', mark)) :
    (∃ playerId amount pc pc', exec = .gainExp playerId amount pc ∧ exec' = .gainExp playerId amount pc' ∧
      GainExp.Moved stores playerId amount pc stores' pc' mark) ∨
    (∃ cmd pc pc', exec = .login cmd pc ∧ exec' = .login cmd pc' ∧ Login.Effect config env stores stores' mark) ∨
    (∃ cmd pc pc', exec = .register cmd pc ∧ exec' = .register cmd pc' ∧
      Register.Moved env stores cmd pc stores' pc' mark) := by
  cases exec with
  | gainExp playerId amount pc =>
      obtain ⟨⟨_, pc', _⟩, hpc, heq⟩ := Option.map_eq_some_iff.mp h
      obtain ⟨rfl, rfl, rfl⟩ := heq
      exact Or.inl ⟨playerId, amount, pc, pc', rfl, rfl, GainExp.advance_moved hpc⟩
  | login cmd pc =>
      obtain ⟨⟨_, pc', _⟩, hpc, heq⟩ := Option.map_eq_some_iff.mp h
      obtain ⟨rfl, rfl, rfl⟩ := heq
      exact Or.inr (Or.inl ⟨cmd, pc, pc', rfl, rfl, Login.advance_effect hpc⟩)
  | register cmd pc =>
      obtain ⟨⟨_, pc', _⟩, hpc, heq⟩ := Option.map_eq_some_iff.mp h
      obtain ⟨rfl, rfl, rfl⟩ := heq
      exact Or.inr (Or.inr ⟨cmd, pc, pc', rfl, rfl, Register.advance_moved hpc⟩)

end

/-! ## Runs -/

section
variable {config : Config} {stores : Stores} {s s' : State} {labels : List Label}

theorem step_cases {label : Label} (h : s.step config label = some s') :
    (∃ call, label = .call call ∧ s' = { s with execs := s.execs ++ [call.start] }) ∨
    (∃ k env exec stores' exec' mark, label = .next k env ∧ s.execs[k]? = some exec ∧
      exec.advance config env s.stores = some (stores', exec', mark) ∧
      s' = ⟨stores', s.execs.set k exec', s.log ++ (mark.map fun mark => (k, mark)).toList⟩) := by
  cases label with
  | call call => exact Or.inl ⟨call, rfl, (Option.some.inj h).symm⟩
  | next k env =>
      simp only [State.step] at h
      split at h
      · cases h
      · next exec hexec =>
        obtain ⟨⟨stores', exec', mark⟩, hadvance, rfl⟩ := Option.map_eq_some_iff.mp h
        exact Or.inr ⟨k, env, exec, stores', exec', mark, rfl, hexec, hadvance, rfl⟩

theorem trace_append (stores : Stores) (execs : List Exec) (log : List (Nat × Mark)) (mark : Option Mark) (j k : Nat) :
    State.trace ⟨stores, execs, log ++ (mark.map fun mark => (j, mark)).toList⟩ k =
      State.trace ⟨stores, execs, log⟩ k ++ if j = k then mark.toList else [] := by
  cases mark with
  | none => simp [State.trace]
  | some mark =>
      by_cases hjk : j = k
      · simp [State.trace, hjk]
      · simp [State.trace, hjk]

theorem run_logged (hrun : (system config stores).run (system config stores).init labels = some s) :
    ∀ entry ∈ s.log, entry.1 < s.execs.length := by
  refine TransitionSystem.run_invariant (I := fun s => ∀ entry ∈ s.log, entry.1 < s.execs.length) ?_ (by simp [system]) hrun
  intro s label s' hs hstep
  obtain ⟨call, -, rfl⟩ | ⟨k, env, exec, stores', exec', mark, -, hexec, -, rfl⟩ := step_cases hstep
  · intro entry hentry
    have := hs entry hentry
    simp only [List.length_append, List.length_singleton]
    omega
  · intro entry hentry
    rw [List.length_set]
    rcases List.mem_append.mp hentry with hold | hnew
    · exact hs entry hold
    · obtain ⟨mark, -, rfl⟩ := Option.map_eq_some_iff.mp (Option.mem_toList.mp hnew)
      exact (List.getElem?_eq_some_iff.mp hexec).1

/-- What is asked of every step of an execution: `ok` of the execution and of what the outside answers. -/
def Steps (ok : Exec → Env → Prop) (s : State) : Label → Prop
  | .call _ => True
  | .next k env => ∀ exec, s.execs[k]? = some exec → ok exec env

instance {ok : Exec → Env → Prop} [∀ exec env, Decidable (ok exec env)] (s : State) (label : Label) :
    Decidable (Steps ok s label) :=
  match label with
  | .call _ => isTrue trivial
  | .next k env => inferInstanceAs (Decidable (∀ exec ∈ s.execs[k]?, ok exec env))

/-- **The rule for one execution**: a relation between an execution and its own marks that its own steps keep holds in
every run, whatever the others do. -/
theorem run_traces {P : Exec → List Mark → Prop} {ok : Exec → Env → Prop} (hcall : ∀ call : Call, P call.start [])
    (hstep : ∀ env stores exec stores' exec' mark marks, ok exec env →
      exec.advance config env stores = some (stores', exec', mark) → P exec marks → P exec' (marks ++ mark.toList))
    (hok : (system config stores).Along (Steps ok) (system config stores).init labels)
    (hrun : (system config stores).run (system config stores).init labels = some s) :
    ∀ k exec, s.execs[k]? = some exec → P exec (s.trace k) := by
  induction labels using List.reverseRecOn generalizing s with
  | nil =>
      obtain rfl := Option.some.inj hrun
      simp [system]
  | append_singleton labels label ih =>
      obtain ⟨t, hlabels, hlast⟩ := TransitionSystem.run_concat.mp hrun
      obtain ⟨hfirst, hthen⟩ := TransitionSystem.along_append hok hlabels
      have htraces := ih hfirst hlabels
      obtain ⟨call, -, rfl⟩ | ⟨j, env, exec, stores', exec', mark, rfl, hexec, hadvance, rfl⟩ := step_cases hlast
      · intro k exec hk
        obtain hold | ⟨rfl, rfl⟩ := Indexed.append_cases hk
        · exact htraces k exec hold
        · -- the new execution has done nothing yet
          have hempty : t.trace t.execs.length = [] := by
            refine List.filterMap_eq_nil_iff.mpr fun entry hentry => if_neg ?_
            exact Nat.ne_of_lt (run_logged hlabels entry hentry)
          exact (show State.trace _ t.execs.length = [] from hempty) ▸ hcall call
      · intro k e hk
        rw [trace_append]
        obtain ⟨rfl, rfl⟩ | ⟨hjk, hold⟩ := Indexed.set_cases hk
        · rw [if_pos rfl]
          exact hstep env t.stores exec stores' _ mark _ (hthen.1 exec hexec) hadvance (htraces _ exec hexec)
        · rw [if_neg (Ne.symm hjk), List.append_nil]
          exact htraces k e hold

theorem steps_of_forall (ok : Exec → Env → Prop) (h : ∀ exec env, ok exec env) :
    (system config stores).Along (Steps ok) (system config stores).init labels := by
  refine TransitionSystem.along_of_forall (fun label _ s => ?_) _
  cases label with
  | call => trivial
  | next k env => exact fun exec _ => h exec env

theorem mem_trace {k : Nat} {mark : Mark} : mark ∈ s.trace k ↔ (k, mark) ∈ s.log := by
  simp only [State.trace, List.mem_filterMap]
  constructor
  · rintro ⟨⟨j, m⟩, hmem, heq⟩
    dsimp only at heq
    split_ifs at heq with hj
    obtain rfl := Option.some.inj heq
    exact hj ▸ hmem
  · intro hmem
    exact ⟨(k, mark), hmem, if_pos rfl⟩

end

end LongshipX.Application
