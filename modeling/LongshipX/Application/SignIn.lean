import LongshipX.Application.Login
import LongshipX.Application.Registration

/-!
# Registered users can log in

What the stores hold of a registration after any number of other calls, and the login that reads it back.

* `Ledger.findByUsername`, `Ledger.findByAccount` : what the repositories find of a registered pair;
* `run_grants` : the token store along a run of the use cases, against its abstract store;
* `registered_can_login` : the login of a registered user, after every run.
-/

namespace LongshipX.Application
open Persistence

section
variable {config : Config} {s s' : State} {labels : List Label}

/-! ## What the repositories find -/

theorem Ledger.findByUsername (h : Ledger s) {r : Registration} (hr : r ∈ registrations s.log) :
    s.stores.accounts.findByUsername r.account.username.value = .ok (some r.account) := by
  have hvalue : r.account ∈ s.stores.accounts.values := AList.mem_values_iff.mpr ⟨_, (h.stored r hr).1⟩
  unfold Accounts.findByUsername
  cases hfind : s.stores.accounts.values.find? fun account => decide (account.username.value = r.account.username.value) with
  | none => exact absurd (decide_eq_true rfl) (List.find?_eq_none.mp hfind r.account hvalue)
  | some account =>
      obtain ⟨id, hlookup⟩ := AList.mem_values_iff.mp (List.mem_of_find?_eq_some hfind)
      obtain ⟨r', hr', rfl, -⟩ := h.accounts id account hlookup
      have hname : r'.account.username = r.account.username := Username.ext (by simpa using List.find?_some hfind)
      rw [h.eq_of_shared hr' hr fun hapart => hapart.1 hname]

/-- The profile of a registered account: nobody else's, with what the registration fixed. -/
theorem Ledger.findByAccount (h : Ledger s) {r : Registration} (hr : r ∈ registrations s.log) :
    ∃ player, s.stores.players.findByAccount r.account.id = .ok (some player) ∧
      s.stores.players.lookup player.id.uuid = some player ∧ identity player = identity r.player := by
  obtain ⟨-, hplayer, hlinked⟩ := h.stored r hr
  obtain ⟨stored, hstored, hidentity⟩ := Option.map_eq_some_iff.mp hplayer
  have howner : stored.accountId = r.account.id := (congrArg Identity.accountId hidentity).trans hlinked
  have hvalue : stored ∈ s.stores.players.values := AList.mem_values_iff.mpr ⟨_, hstored⟩
  unfold Players.findByAccount
  cases hfind : s.stores.players.values.find? fun player => decide (player.accountId = r.account.id) with
  | none => exact absurd (decide_eq_true howner) (List.find?_eq_none.mp hfind stored hvalue)
  | some player =>
      obtain ⟨id, hlookup⟩ := AList.mem_values_iff.mp (List.mem_of_find?_eq_some hfind)
      obtain ⟨r', hr', hsame, rfl⟩ := h.players id (identity player) (by rw [State.identityAt, hlookup]; rfl)
      have hfound : player.accountId = r.account.id := by simpa using List.find?_some hfind
      have haccount : r'.account.id = r.account.id :=
        (h.stored r' hr').2.2.symm.trans ((congrArg Identity.accountId hsame).trans hfound)
      obtain rfl := h.eq_of_shared hr' hr fun hapart => hapart.2.1 haccount
      exact ⟨player, rfl, hlookup, hsame.symm⟩

/-! ## The tokens along a run -/

def issuedTokens (log : List (Nat × Mark)) : List String :=
  log.filterMap fun
    | (_, .tokenCreated _ token) => some token
    | _ => none

theorem issuedTokens_append (log : List (Nat × Mark)) (mark : Option Mark) (k : Nat) :
    issuedTokens (log ++ (mark.map fun mark => (k, mark)).toList) =
      issuedTokens log ++ issuedTokens (mark.map fun mark => (k, mark)).toList := List.filterMap_append

theorem step_tokens {label : Label} (hstep : s.step config label = some s') :
    (s'.stores.tokens = s.stores.tokens ∧ issuedTokens s'.log = issuedTokens s.log) ∨
    (∃ (env : Env) (playerId : PlayerId) (token : String), issuedTokens s'.log = issuedTokens s.log ++ [token] ∧
      s.stores.tokens.create config.instantMax playerId config.tokenTtl env.token env.instant =
        (.ok token, s'.stores.tokens)) := by
  obtain ⟨call, -, rfl⟩ | ⟨k, env, exec, stores', exec', mark, -, -, hadvance, rfl⟩ := step_cases hstep
  · exact Or.inl ⟨rfl, rfl⟩
  · rw [issuedTokens_append]
    obtain ⟨p, amount, pc, pc', rfl, rfl, hmoved⟩ | ⟨cmd, pc, pc', rfl, rfl, heffect⟩ | ⟨cmd, pc, pc', rfl, rfl, hmoved⟩ :=
      Exec.advance_cases hadvance
    · refine Or.inl ?_
      cases hmoved with
      | zero | positive | missing | raised | kept | announced | unannounced => exact ⟨rfl, List.append_nil _⟩
    · cases heffect with
      | quiet | loggedIn => exact Or.inl ⟨rfl, List.append_nil _⟩
      | tokenCreated h => exact Or.inr ⟨env, _, _, rfl, h⟩
    · refine Or.inl ?_
      cases hmoved with
      | refused | validated | free | hashed | stored | audited => exact ⟨rfl, List.append_nil _⟩

/-- **The token store refines its abstract store** along every run that never draws a token twice. -/
theorem run_grants {accounts : Accounts} {players : Players} (hfresh : (issuedTokens s.log).Nodup)
    (hrun : (system config ⟨accounts, players, .new⟩).run (system config ⟨accounts, players, .new⟩).init labels = some s) :
    ∃ g, Session.Refines s.stores.tokens g (issuedTokens s.log).reverse 0 := by
  induction labels using List.reverseRecOn generalizing s with
  | nil =>
      obtain rfl := Option.some.inj hrun
      exact ⟨_, Session.refines_new 0⟩
  | append_singleton labels label ih =>
      obtain ⟨t, hlabels, hlast⟩ := TransitionSystem.run_concat.mp hrun
      obtain ⟨htokens, hissued⟩ | ⟨env, playerId, token, hissued, hcreate⟩ := step_tokens hlast
      · rw [htokens, hissued]
        exact ih (hissued ▸ hfresh) hlabels
      · rw [hissued, List.nodup_append] at hfresh
        obtain ⟨hpast, -, hnew⟩ := hfresh
        obtain ⟨g, hg⟩ := ih hpast hlabels
        obtain rfl := Session.create_token hcreate
        have hnotIssued : env.token ∉ (issuedTokens t.log).reverse := fun hmem =>
          hnew env.token (List.mem_reverse.mp hmem) env.token (List.mem_singleton_self _) rfl
        rw [hissued, List.reverse_concat]
        exact ⟨_, hg.create hnotIssued hcreate⟩

/-! ## The login of a registered user -/

/-- No port fails the login: the hasher answers as `verify` says, the token's deadline is an instant the clock can
represent, and the token is none of those already `issued`. -/
structure Login.Works (config : Config) (verify : String → String → Bool) (issued : List String) (cmd : LoginCommand)
    (envs : Login.Pc → Env) : Prop where
  verified : ∀ account, (envs (.verify account)).verified = .ok (verify cmd.password account.passwordHash)
  fits : ∀ player, (envs (.createToken player)).instant + config.tokenTtl ≤ config.instantMax
  fresh : ∀ player, (envs (.createToken player)).token ∉ issued

/-- The login that finds an account which may log in, the right password and the profile. -/
theorem Login.execute_ok {verify : String → String → Bool} {issued : List String} {cmd : LoginCommand}
    {envs : Login.Pc → Env} {stores : Stores} (hworks : Works config verify issued cmd envs) {username : Username}
    {account : Account} {player : Player} (hname : Username.tryNew cmd.username = .ok username)
    (haccount : stores.accounts.findByUsername username.value = .ok (some account)) (hactive : account.status = .active)
    (hpassword : verify cmd.password account.passwordHash = true)
    (hplayer : stores.players.findByAccount account.id = .ok (some player))
    (hlookup : stores.players.lookup player.id.uuid = some player) :
    ∃ loggedIn, identity loggedIn = identity player ∧
      stores.tokens.create config.instantMax player.id config.tokenTtl (envs (.createToken loggedIn)).token
        (envs (.createToken loggedIn)).instant =
          (.ok (envs (.createToken loggedIn)).token, (execute config envs stores cmd).1.tokens) ∧
      (execute config envs stores cmd).2 = .done (.ok ⟨(envs (.createToken loggedIn)).token, player.id,
        player.nickname.value, config.tokenTtl / 10 ^ 9⟩) := by
  let loggedIn := player.recordLogin (envs (.recordLogin player.id)).now
  let env := envs (.createToken loggedIn)
  obtain ⟨tokens, hcreate⟩ : ∃ tokens, stores.tokens.create config.instantMax loggedIn.id config.tokenTtl env.token
      env.instant = (.ok env.token, tokens) := Session.create_of_fits _ _ _ (hworks.fits loggedIn)
  have hverified : (envs (.verify account)).verified = .ok true := (hworks.verified account).trans (by rw [hpassword])
  have hallowed : account.status.allowsLogin (envs (.loadAccount username)).now = true := by rw [hactive]; rfl
  have hrun : execute config envs stores cmd = (⟨stores.accounts, stores.players.insert player.id.uuid loggedIn, tokens⟩,
      .done (.ok ⟨env.token, player.id, player.nickname.value, config.tokenTtl / 10 ^ 9⟩)) := by
    simp only [execute, resume, advance, hname, loadAccount, haccount, ensureLoginAllowed, hallowed, if_true, hverified,
      loadPlayer, hplayer, Players.recordLogin, hlookup, hcreate, loggedIn, env]
    rfl
  refine ⟨loggedIn, rfl, ?_, ?_⟩
  · rw [hrun]
    exact hcreate
  · rw [hrun]

/-- **Registered users can log in.** From empty stores, after every run of registrations, logins and gains by anyone in
which the hasher accepts the hashes it gives and no token is drawn twice: if a registration returned `Ok`, a login that no
port fails, with its password and its user name up to surrounding white space and ASCII letter case, returns `Ok` with its
player, its trimmed nickname and a token that until its deadline, and as the only one, resolves to the player. -/
theorem registered_can_login {verify : String → String → Bool} {envs : Login.Pc → Env} {k : Nat} {cmd : RegisterCommand}
    {registered : RegisterResult} {login : LoginCommand} (httl : 0 < config.tokenTtl)
    (hashes : (system config ⟨∅, ∅, .new⟩).Along (Steps (Hashes fun password hash => verify password hash = true))
      (system config ⟨∅, ∅, .new⟩).init labels)
    (hrun : (system config ⟨∅, ∅, .new⟩).run (system config ⟨∅, ∅, .new⟩).init labels = some s)
    (hfresh : (issuedTokens s.log).Nodup) (hregistered : s.execs[k]? = some (.register cmd (.done (.ok registered))))
    (hname : (Text.trim login.username).toLower = (Text.trim cmd.username).toLower)
    (hpassword : login.password = cmd.password) (hworks : Login.Works config verify (issuedTokens s.log) login envs) :
    ∃ player, let drawn := envs (.createToken player)
      (Login.execute config envs s.stores login).2 = .done (.ok ⟨drawn.token, registered.playerId, Text.trim cmd.nickname,
        config.tokenTtl / 10 ^ 9⟩) ∧
      ∃ deadline > drawn.instant, ∀ now < deadline,
        (Login.execute config envs s.stores login).1.tokens.resolve drawn.token now = .ok (some registered.playerId) ∧
        ∀ token, (Login.execute config envs s.stores login).1.tokens.resolve token now = .ok (some registered.playerId) →
          token = drawn.token := by
  have h := run_ledger hrun
  obtain ⟨account, player, htrace, hmade, rfl⟩ := run_registerTraces hashes hrun k _ hregistered
  have hmem : ⟨k, account, player⟩ ∈ registrations s.log :=
    mem_registrations.mpr (mem_trace.mp (htrace ▸ List.mem_singleton_self _))
  obtain ⟨stored, hstored, hlookup, hidentity⟩ := h.findByAccount hmem
  have hid : stored.id = player.id := congrArg Identity.id hidentity
  have hnickname : stored.nickname.value = Text.trim cmd.nickname :=
    (congrArg (fun owner => owner.nickname.value) hidentity).trans (Nickname.tryNew_trim hmade.nickname)
  obtain ⟨loggedIn, -, hcreate, hdone⟩ := Login.execute_ok hworks (Username.tryNew_congr hmade.username hname)
    (h.findByUsername hmem) hmade.status (hpassword ▸ hmade.hash) hstored hlookup
  rw [hid] at hcreate hdone
  rw [hnickname] at hdone
  obtain ⟨g, hg⟩ := run_grants hfresh hrun
  have hissued : (envs (.createToken loggedIn)).token ∉ (issuedTokens s.log).reverse := fun hmem =>
    hworks.fresh loggedIn (List.mem_reverse.mp hmem)
  have hgrants := hg.create hissued hcreate
  refine ⟨loggedIn, hdone, (envs (.createToken loggedIn)).instant + config.tokenTtl, Nat.lt_add_of_pos_right httl,
    fun now hnow => ⟨?_, fun token htoken => ?_⟩⟩
  · exact (Session.resolve_eq_some_iff (hgrants.later (Nat.zero_le now))).mpr ⟨_, Function.update_self .., hnow⟩
  · obtain ⟨deadline, hgrant, -⟩ := (Session.resolve_eq_some_iff (hgrants.later (Nat.zero_le now))).mp htoken
    rw [Function.update_self] at hgrant
    exact (Session.Grant.mk.inj (Option.some.inj hgrant)).1.symm

end

/-! ### A user who comes back -/

def markedHash (password hash : String) : Bool := decide (hash = "h:" ++ password)

def obliging (token : String) : Env := ⟨0, 5, .ok "h:super-secret", .ok true, .ok (), .ok (), ⟨1⟩, ⟨2⟩, token⟩

def aliceRegisters : RegisterCommand := ⟨"Alice_01", "super-secret", " 爱丽丝 "⟩

def aliceReturns : LoginCommand := ⟨" ALICE_01", "super-secret"⟩

def firstVisit : List Label :=
  [.call (.register aliceRegisters), .call (.gainExp ⟨2⟩ 5), .call (.login ⟨"alice_01", "super-secret"⟩)] ++
    List.replicate 5 (.next 0 (obliging "")) ++ List.replicate 2 (.next 1 (obliging "")) ++
    List.replicate 7 (.next 2 (obliging "first"))

theorem firstVisit_reached : (emptySystem.run emptySystem.init firstVisit).map (fun s => (s.execs[0]?, issuedTokens s.log)) =
    some (some (.register aliceRegisters (.done (.ok ⟨⟨1⟩, ⟨2⟩, "爱丽丝"⟩))), ["first"]) := by decide +kernel

/-- The hasher answers as `markedHash` says, the token is `second`. -/
def comingBack : Login.Pc → Env
  | .verify account => { obliging "second" with verified := .ok (markedHash aliceReturns.password account.passwordHash) }
  | _ => obliging "second"

theorem registered_can_login_again : ∃ s, emptySystem.run emptySystem.init firstVisit = some s ∧
    (Login.execute ⟨10, 100⟩ comingBack s.stores aliceReturns).2 =
      .done (.ok ⟨"second", ⟨2⟩, Text.trim aliceRegisters.nickname, 10 / 10 ^ 9⟩) := by
  obtain ⟨s, hrun, hreached⟩ := Option.map_eq_some_iff.mp firstVisit_reached
  obtain ⟨hregistered, hissued⟩ := Prod.mk.inj hreached
  have hashes : emptySystem.Along (Steps (Hashes fun password hash => markedHash password hash = true)) emptySystem.init
    firstVisit := by decide +kernel
  have hname : (Text.trim aliceReturns.username).toLower = "alice_01" := by decide +kernel
  have hname' : (Text.trim aliceRegisters.username).toLower = "alice_01" := by decide +kernel
  have hworks : Login.Works ⟨10, 100⟩ markedHash (issuedTokens s.log) aliceReturns comingBack := by
    refine ⟨fun account => rfl, fun player => ?_, fun player => ?_⟩
    · simp [comingBack, obliging]
    · simp [comingBack, obliging, hissued]
  have hfresh : (issuedTokens s.log).Nodup := hissued ▸ List.nodup_singleton _
  obtain ⟨player, hdone, -⟩ := registered_can_login (by decide) hashes hrun hfresh hregistered (hname.trans hname'.symm) rfl
    hworks
  exact ⟨s, hrun, hdone⟩

end LongshipX.Application
