import LongshipX.Application.SignIn

/-!
# Whose token it is

A login that got past the hasher named the account of some registration and knew a password for its hash; the token it
creates is for the player of that registration, and replaces the one before.

* `Authentic` : the credentials of a registration; `Login.Fact` : what a login has shown so far;
* `Logins`, `Logins.step` : every token was created by an authentic login of its player;
* `Latest`, `run_latest` : the token store answers with the last token of a player only.
-/

namespace LongshipX.Application
open Persistence

/-- The command names the account of a registration, and its password is accepted by that account's hash. -/
def Authentic (verify : String → String → Bool) (cmd : LoginCommand) (r : Registration) : Prop :=
  Username.tryNew cmd.username = .ok r.account.username ∧ verify cmd.password r.account.passwordHash = true

/-- The hasher says yes only to passwords that `verify` accepts. -/
def Verifies (verify : String → String → Bool) (exec : Exec) (env : Env) : Prop :=
  ∀ cmd account, exec = .login cmd (.verify account) → env.verified = .ok true →
    verify cmd.password account.passwordHash = true

instance {verify : String → String → Bool} (exec : Exec) (env : Env) : Decidable (Verifies verify exec env) :=
  match exec with
  | .login cmd (.verify account) =>
    decidable_of_iff (env.verified = .ok true → verify cmd.password account.passwordHash = true)
      ⟨by rintro h _ _ ⟨⟩; exact h, fun h => h cmd account rfl⟩
  | .login _ .start | .login _ (.loadAccount _) | .login _ (.loadPlayer _) | .login _ (.recordLogin _)
  | .login _ (.createToken _) | .login _ (.audit _ _) | .login _ (.done _) | .register _ _ | .gainExp _ _ _ =>
    isTrue (by simp [Verifies])

/-- What login `k` has shown, by where it is. -/
def Login.Fact (verify : String → String → Bool) (log : List (Nat × Mark)) (k : Nat) (cmd : LoginCommand) : Pc → Prop
  | .start => True
  | .loadAccount username => Username.tryNew cmd.username = .ok username
  | .verify account => ∃ r ∈ registrations log, r.account = account ∧ Username.tryNew cmd.username = .ok account.username
  | .loadPlayer account => ∃ r ∈ registrations log, r.account = account ∧ Authentic verify cmd r
  | .recordLogin playerId => ∃ r ∈ registrations log, r.player.id = playerId ∧ Authentic verify cmd r
  | .createToken player => ∃ r ∈ registrations log, identity r.player = identity player ∧ Authentic verify cmd r
  | .audit player token => (k, .tokenCreated player.id token) ∈ log ∧
      ∃ r ∈ registrations log, identity r.player = identity player ∧ Authentic verify cmd r
  | .done (.ok result) => (k, .tokenCreated result.playerId result.token) ∈ log ∧
      ∃ r ∈ registrations log, r.player.id = result.playerId ∧ r.player.nickname.value = result.nickname ∧
        Authentic verify cmd r
  | .done (.error _) => True

section
variable {verify : String → String → Bool} {config : Config} {s s' : State} {k : Nat} {cmd : LoginCommand}

theorem registrations_mono {log marks : List (Nat × Mark)} {r : Registration} (hr : r ∈ registrations log) :
    r ∈ registrations (log ++ marks) := mem_registrations.mpr (List.mem_append_left _ (mem_registrations.mp hr))

theorem Login.Fact.mono {log marks : List (Nat × Mark)} {pc : Pc} (h : Fact verify log k cmd pc) :
    Fact verify (log ++ marks) k cmd pc := by
  have hregs : ∀ {P : Registration → Prop}, (∃ r ∈ registrations log, P r) → ∃ r ∈ registrations (log ++ marks), P r :=
    fun ⟨r, hr, hp⟩ => ⟨r, registrations_mono hr, hp⟩
  cases pc with
  | start | loadAccount => exact h
  | verify | loadPlayer | recordLogin | createToken => exact hregs h
  | audit => exact ⟨List.mem_append_left _ h.1, hregs h.2⟩
  | done result =>
      cases result with
      | ok => exact ⟨List.mem_append_left _ h.1, hregs h.2⟩
      | error => exact h

theorem Ledger.of_findByUsername (h : Ledger s) {name : String} {account : Account}
    (hfind : s.stores.accounts.findByUsername name = .ok (some account)) :
    ∃ r ∈ registrations s.log, r.account = account ∧ account.username.value = name := by
  replace hfind := Except.ok.inj hfind
  obtain ⟨id, hlookup⟩ := AList.mem_values_iff.mp (List.mem_of_find?_eq_some hfind)
  obtain ⟨r, hr, haccount, -⟩ := h.accounts id account hlookup
  exact ⟨r, hr, haccount, by simpa using List.find?_some hfind⟩

theorem Ledger.of_findByAccount (h : Ledger s) {r : Registration} (hr : r ∈ registrations s.log) {player : Player}
    (hfind : s.stores.players.findByAccount r.account.id = .ok (some player)) : identity r.player = identity player := by
  replace hfind := Except.ok.inj hfind
  obtain ⟨id, hlookup⟩ := AList.mem_values_iff.mp (List.mem_of_find?_eq_some hfind)
  have howner : player.accountId = r.account.id := by simpa using List.find?_some hfind
  obtain ⟨r', hr', hsame, -⟩ := h.players id (identity player) (by rw [State.identityAt, hlookup]; rfl)
  have haccount : r'.account.id = r.account.id :=
    (h.stored r' hr').2.2.symm.trans ((congrArg Identity.accountId hsame).trans howner)
  obtain rfl := h.eq_of_shared hr' hr fun hapart => hapart.2.1 haccount
  exact hsame

theorem Login.loadAccount_ok {env : Env} {stores : Stores} {username : Username} {account : Account}
    (h : loadAccount env stores username = .ok account) : stores.accounts.findByUsername username.value = .ok (some account) := by
  unfold loadAccount at h
  split at h
  · cases h
  · cases h
  · next found hfind =>
    split at h
    · cases h
    · obtain rfl := Except.ok.inj h
      exact hfind

theorem Login.loadPlayer_ok {stores : Stores} {accountId : AccountId} {player : Player}
    (h : loadPlayer stores accountId = .ok player) : stores.players.findByAccount accountId = .ok (some player) := by
  unfold loadPlayer at h
  split at h
  · cases h
  · cases h
  · next found hfind =>
    obtain rfl := Except.ok.inj h
    exact hfind

/-- **A login's own step shows what its next position promises**, and a token it creates is for the right player. -/
theorem Login.step_fact (h : Ledger s) {env : Env} {pc pc' : Pc} {stores' : Stores} {mark : Option Mark}
    (hverifies : Verifies verify (.login cmd pc) env)
    (hadvance : advance config env s.stores cmd pc = some (stores', pc', mark)) (hfact : Fact verify s.log k cmd pc) :
    Fact verify (s.log ++ (mark.map fun mark => (k, mark)).toList) k cmd pc' ∧
      ∀ p token, mark = some (.tokenCreated p token) → ∃ r ∈ registrations s.log, r.player.id = p ∧ Authentic verify cmd r := by
  cases pc with
  | start =>
      simp only [advance] at hadvance
      split at hadvance
      · obtain ⟨-, rfl, rfl⟩ := hadvance
        exact ⟨trivial, fun _ _ hm => by cases hm⟩
      · next hname =>
        obtain ⟨-, rfl, rfl⟩ := hadvance
        exact ⟨hname, fun _ _ hm => by cases hm⟩
  | loadAccount username =>
      simp only [advance] at hadvance
      split at hadvance
      · obtain ⟨-, rfl, rfl⟩ := hadvance
        exact ⟨trivial, fun _ _ hm => by cases hm⟩
      · next account hload =>
        obtain ⟨-, rfl, rfl⟩ := hadvance
        refine ⟨?_, fun _ _ hm => by cases hm⟩
        obtain ⟨r, hr, haccount, hvalue⟩ := h.of_findByUsername (loadAccount_ok hload)
        obtain rfl : account.username = username := Username.ext hvalue
        exact ⟨r, registrations_mono hr, haccount, hfact⟩
  | verify account =>
      simp only [advance] at hadvance
      split at hadvance
      · obtain ⟨-, rfl, rfl⟩ := hadvance
        exact ⟨trivial, fun _ _ hm => by cases hm⟩
      · obtain ⟨-, rfl, rfl⟩ := hadvance
        exact ⟨trivial, fun _ _ hm => by cases hm⟩
      · next hverified =>
        obtain ⟨-, rfl, rfl⟩ := hadvance
        obtain ⟨r, hr, rfl, hname⟩ := hfact
        exact ⟨⟨r, registrations_mono hr, rfl, hname, hverifies cmd _ rfl hverified⟩, fun _ _ hm => by cases hm⟩
  | loadPlayer account =>
      simp only [advance] at hadvance
      split at hadvance
      · obtain ⟨-, rfl, rfl⟩ := hadvance
        exact ⟨trivial, fun _ _ hm => by cases hm⟩
      · next player hload =>
        obtain ⟨-, rfl, rfl⟩ := hadvance
        refine ⟨?_, fun _ _ hm => by cases hm⟩
        obtain ⟨r, hr, rfl, hauthentic⟩ := hfact
        have hidentity := h.of_findByAccount hr (loadPlayer_ok hload)
        exact ⟨r, registrations_mono hr, congrArg Identity.id hidentity, hauthentic⟩
  | recordLogin playerId =>
      cases hplayer : s.stores.players.lookup playerId.uuid with
      | none =>
          simp only [advance, Players.recordLogin, hplayer] at hadvance
          obtain ⟨-, rfl, rfl⟩ := hadvance
          exact ⟨trivial, fun _ _ hm => by cases hm⟩
      | some player =>
          simp only [advance, Players.recordLogin, hplayer] at hadvance
          obtain ⟨-, rfl, rfl⟩ := hadvance
          refine ⟨?_, fun _ _ hm => by cases hm⟩
          obtain ⟨r, hr, rfl, hauthentic⟩ := hfact
          have hstored := (h.stored r hr).2.1
          rw [State.identityAt, hplayer] at hstored
          exact ⟨r, registrations_mono hr, (Option.some.inj hstored).symm, hauthentic⟩
  | createToken player =>
      simp only [advance] at hadvance
      obtain ⟨r, hr, hidentity, hauthentic⟩ := hfact
      split at hadvance
      · obtain ⟨-, rfl, rfl⟩ := hadvance
        exact ⟨trivial, fun _ _ hm => by cases hm⟩
      · obtain ⟨-, rfl, rfl⟩ := hadvance
        refine ⟨⟨List.mem_append_right _ (List.mem_singleton_self _), r, registrations_mono hr, hidentity, hauthentic⟩,
          fun p token hm => ?_⟩
        obtain ⟨rfl, -⟩ := Mark.tokenCreated.inj (Option.some.inj hm)
        exact ⟨r, hr, congrArg Identity.id hidentity, hauthentic⟩
  | audit player token =>
      obtain ⟨-, rfl, rfl⟩ := hadvance
      obtain ⟨hmark, r, hr, hidentity, hauthentic⟩ := hfact
      refine ⟨⟨List.mem_append_left _ hmark, r, registrations_mono hr, congrArg Identity.id hidentity, ?_, hauthentic⟩,
        fun _ _ hm => by cases hm⟩
      exact congrArg (fun owner => owner.nickname.value) hidentity
  | done result => cases hadvance

/-! ## Every login, and every token -/

/-- What the logins have shown, and that no token is anybody else's. -/
structure Logins (verify : String → String → Bool) (s : State) : Prop where
  execs : ∀ (k : Nat) (cmd : LoginCommand) (pc : Login.Pc), s.execs[k]? = some (.login cmd pc) →
    Login.Fact verify s.log k cmd pc
  tokens : ∀ (k : Nat) (p : PlayerId) (token : String), (k, .tokenCreated p token) ∈ s.log → ∃ cmd pc,
    s.execs[k]? = some (.login cmd pc) ∧ ∃ r ∈ registrations s.log, r.player.id = p ∧ Authentic verify cmd r

theorem Exec.creates {env : Env} {stores stores' : Stores} {exec exec' : Exec} {p : PlayerId} {token : String}
    (h : exec.advance config env stores = some (stores', exec', some (.tokenCreated p token))) :
    ∃ cmd pc pc', exec = .login cmd pc ∧ exec' = .login cmd pc' ∧
      Login.advance config env stores cmd pc = some (stores', pc', some (.tokenCreated p token)) := by
  cases exec with
  | login cmd pc =>
      obtain ⟨⟨_, pc', _⟩, hpc, heq⟩ := Option.map_eq_some_iff.mp h
      obtain ⟨rfl, rfl, rfl⟩ := heq
      exact ⟨cmd, pc, pc', rfl, rfl, hpc⟩
  | gainExp | register =>
      obtain ⟨_, _, _, _, hexec, -, hmoved⟩ | ⟨_, _, _, hexec, -⟩ | ⟨_, _, _, hexec, -, hmoved⟩ := Exec.advance_cases h
      · cases hmoved
      · cases hexec
      · cases hmoved

theorem Exec.login_step {env : Env} {stores stores' : Stores} {exec : Exec} {pc' : Login.Pc} {mark : Option Mark}
    (h : exec.advance config env stores = some (stores', .login cmd pc', mark)) :
    ∃ pc, exec = .login cmd pc ∧ Login.advance config env stores cmd pc = some (stores', pc', mark) := by
  cases exec with
  | login cmd' pc =>
      obtain ⟨⟨_, pc'', _⟩, hpc, heq⟩ := Option.map_eq_some_iff.mp h
      simp only [Prod.mk.injEq, Exec.login.injEq] at heq
      obtain ⟨rfl, ⟨rfl, rfl⟩, rfl⟩ := heq
      exact ⟨pc, rfl, hpc⟩
  | gainExp | register =>
      obtain ⟨_, _, heq⟩ := Option.map_eq_some_iff.mp h
      cases heq

theorem Exec.login_goes_on {env : Env} {stores stores' : Stores} {exec' : Exec} {pc : Login.Pc} {mark : Option Mark}
    (h : (Exec.login cmd pc).advance config env stores = some (stores', exec', mark)) : ∃ pc', exec' = .login cmd pc' := by
  obtain ⟨⟨_, pc', _⟩, -, heq⟩ := Option.map_eq_some_iff.mp h
  obtain ⟨rfl, rfl, rfl⟩ := heq
  exact ⟨pc', rfl⟩

theorem Logins.step (h : Logins verify s) (hledger : Ledger s) {label : Label} (hok : Steps (Verifies verify) s label)
    (hstep : s.step config label = some s') : Logins verify s' := by
  obtain ⟨call, -, rfl⟩ | ⟨j, env, exec, stores', exec', mark, rfl, hexec, hadvance, rfl⟩ := step_cases hstep
  · refine ⟨fun k cmd pc hk => ?_, fun k p token hmark => ?_⟩
    · obtain hold | ⟨-, hnew⟩ := Indexed.append_cases hk
      · exact h.execs k cmd pc hold
      · cases call with
        | login =>
            obtain ⟨rfl, rfl⟩ := Exec.login.inj hnew
            trivial
        | gainExp | register => cases hnew
    · obtain ⟨cmd, pc, hk, hr⟩ := h.tokens k p token hmark
      exact ⟨cmd, pc, Indexed.append_old hk, hr⟩
  · have hregs : ∀ {p : PlayerId} {cmd : LoginCommand}, (∃ r ∈ registrations s.log, r.player.id = p ∧ Authentic verify cmd r) →
        ∃ r ∈ registrations (s.log ++ (mark.map fun mark => (j, mark)).toList), r.player.id = p ∧ Authentic verify cmd r :=
      fun ⟨r, hr, hrest⟩ => ⟨r, registrations_mono hr, hrest⟩
    refine ⟨fun k cmd pc hk => ?_, fun k p token hmark => ?_⟩
    · obtain ⟨rfl, rfl⟩ | ⟨-, hold⟩ := Indexed.set_cases hk
      · obtain ⟨pc₀, rfl, hlogin⟩ := Exec.login_step hadvance
        exact (Login.step_fact hledger (hok _ hexec) hlogin (h.execs k cmd pc₀ hexec)).1
      · exact (h.execs k cmd pc hold).mono
    · obtain hold | hnew := List.mem_append.mp hmark
      · obtain ⟨cmd, pc, hk, hr⟩ := h.tokens k p token hold
        by_cases hkj : k = j
        · subst hkj
          obtain rfl := Option.some.inj (hexec.symm.trans hk)
          obtain ⟨pc', rfl⟩ := Exec.login_goes_on hadvance
          exact ⟨cmd, pc', Indexed.set_self hexec, hregs hr⟩
        · exact ⟨cmd, pc, (Indexed.set_of_ne hkj).trans hk, hregs hr⟩
      · obtain ⟨m, hm, heq⟩ := Option.map_eq_some_iff.mp (Option.mem_toList.mp hnew)
        obtain ⟨rfl, rfl⟩ := Prod.mk.inj heq
        subst hm
        obtain ⟨cmd, pc, pc', rfl, rfl, hlogin⟩ := Exec.creates hadvance
        have hfact := Login.step_fact hledger (hok _ hexec) hlogin (h.execs j cmd pc hexec)
        exact ⟨cmd, pc', Indexed.set_self hexec, hregs (hfact.2 p token rfl)⟩

/-! ## The last token of a player -/

/-- The token is the last one that was created for the player. -/
def Latest (log : List (Nat × Mark)) (p : PlayerId) (token : String) : Prop :=
  ∃ pre k post, log = pre ++ (k, .tokenCreated p token) :: post ∧
    ∀ entry ∈ post, ∀ other, entry.2 ≠ .tokenCreated p other

theorem Latest.mono {log marks : List (Nat × Mark)} {p : PlayerId} {token : String} (h : Latest log p token)
    (hmarks : ∀ entry ∈ marks, ∀ other, entry.2 ≠ .tokenCreated p other) : Latest (log ++ marks) p token := by
  obtain ⟨pre, k, post, rfl, hpost⟩ := h
  exact ⟨pre, k, post ++ marks, by simp, List.forall_mem_append.mpr ⟨hpost, hmarks⟩⟩

theorem step_created {label : Label} (hstep : s.step config label = some s') :
    (s'.stores.tokens = s.stores.tokens ∧ ∃ marks, s'.log = s.log ++ marks ∧ issuedTokens marks = [] ∧
      ∀ entry ∈ marks, ∀ p token, entry.2 ≠ .tokenCreated p token) ∨
    ∃ (k : Nat) (env : Env) (p : PlayerId) (token : String), s'.log = s.log ++ [(k, .tokenCreated p token)] ∧
      s.stores.tokens.create config.instantMax p config.tokenTtl env.token env.instant = (.ok token, s'.stores.tokens) := by
  obtain ⟨call, -, rfl⟩ | ⟨k, env, exec, stores', exec', mark, -, -, hadvance, rfl⟩ := step_cases hstep
  · exact Or.inl ⟨rfl, [], (List.append_nil _).symm, rfl, fun _ h => absurd h List.not_mem_nil⟩
  · obtain ⟨p, amount, pc, pc', rfl, rfl, hmoved⟩ | ⟨cmd, pc, pc', rfl, rfl, heffect⟩ | ⟨cmd, pc, pc', rfl, rfl, hmoved⟩ :=
      Exec.advance_cases hadvance
    · refine Or.inl ?_
      cases hmoved with
      | zero | positive | missing | raised | kept | announced | unannounced => exact ⟨rfl, _, rfl, rfl, by simp⟩
    · cases heffect with
      | quiet | loggedIn => exact Or.inl ⟨rfl, _, rfl, rfl, by simp⟩
      | tokenCreated h => exact Or.inr ⟨k, env, _, _, rfl, h⟩
    · refine Or.inl ?_
      cases hmoved with
      | refused | validated | free | hashed | stored | audited => exact ⟨rfl, _, rfl, rfl, by simp⟩

theorem issuedTokens_concat (log : List (Nat × Mark)) (k : Nat) (p : PlayerId) (token : String) :
    issuedTokens (log ++ [(k, .tokenCreated p token)]) = issuedTokens log ++ [token] :=
  issuedTokens_append log (some (.tokenCreated p token)) k

/-- **The token store against the log**: along every run that never draws a token twice, each grant is the last token
that was created for its player. -/
theorem run_latest {labels : List Label} {accounts : Accounts} {players : Players} (hfresh : (issuedTokens s.log).Nodup)
    (hrun : (system config ⟨accounts, players, .new⟩).run (system config ⟨accounts, players, .new⟩).init labels = some s) :
    ∃ g, Session.Refines s.stores.tokens g (issuedTokens s.log).reverse 0 ∧
      ∀ p grant, g p = some grant → Latest s.log p grant.token := by
  induction labels using List.reverseRecOn generalizing s with
  | nil =>
      obtain rfl := Option.some.inj hrun
      exact ⟨_, Session.refines_new 0, fun _ _ h => by cases h⟩
  | append_singleton labels label ih =>
      obtain ⟨t, hlabels, hlast⟩ := TransitionSystem.run_concat.mp hrun
      obtain ⟨htokens, marks, hlog, hissued, hmarks⟩ | ⟨k, env, p, token, hlog, hcreate⟩ := step_created hlast
      · have hsame : issuedTokens s.log = issuedTokens t.log := by
          rw [hlog]
          exact (List.filterMap_append (l := t.log)).trans ((congrArg (issuedTokens t.log ++ ·) hissued).trans (List.append_nil _))
        obtain ⟨g, hg, hlatest⟩ := ih (hsame ▸ hfresh) hlabels
        rw [htokens, hsame, hlog]
        exact ⟨g, hg, fun p grant hp => (hlatest p grant hp).mono fun entry hentry => hmarks entry hentry p⟩
      · rw [hlog, issuedTokens_concat, List.nodup_append] at hfresh
        obtain ⟨hpast, -, hnew⟩ := hfresh
        obtain ⟨g, hg, hlatest⟩ := ih hpast hlabels
        obtain rfl := Session.create_token hcreate
        have hnotIssued : env.token ∉ (issuedTokens t.log).reverse := fun hmem =>
          hnew env.token (List.mem_reverse.mp hmem) env.token (List.mem_singleton_self _) rfl
        rw [hlog, issuedTokens_concat, List.reverse_concat]
        refine ⟨_, hg.create hnotIssued hcreate, fun q grant hq => ?_⟩
        by_cases hqp : q = p
        · subst hqp
          rw [Function.update_self] at hq
          obtain rfl := Option.some.inj hq
          exact ⟨t.log, k, [], rfl, fun _ h => absurd h List.not_mem_nil⟩
        · rw [Function.update_of_ne hqp] at hq
          refine (hlatest q grant hq).mono fun entry hentry other heq => hqp ?_
          obtain rfl := List.mem_singleton.mp hentry
          exact (Mark.tokenCreated.inj heq).1.symm

theorem latest_of_resolve {labels : List Label} {accounts : Accounts} {players : Players} {p : PlayerId} {token : String}
    {now : Nat} (hfresh : (issuedTokens s.log).Nodup)
    (hrun : (system config ⟨accounts, players, .new⟩).run (system config ⟨accounts, players, .new⟩).init labels = some s)
    (hresolve : s.stores.tokens.resolve token now = .ok (some p)) : Latest s.log p token := by
  obtain ⟨g, hg, hlatest⟩ := run_latest hfresh hrun
  obtain ⟨deadline, hgrant, -⟩ := (Session.resolve_eq_some_iff (hg.later (Nat.zero_le now))).mp hresolve
  exact hlatest p _ hgrant

end

end LongshipX.Application
