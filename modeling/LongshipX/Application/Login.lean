import LongshipX.Application.UseCases

/-!
# One login, undisturbed

`LoginUseCase::execute` as a whole: all its awaits one after the other, with nobody else in between.

* `Login.execute` : the login from its start to its end; `execute_done` : it always ends; `execute_run` : it is a run of the
  system;
* `Barred` : the status check refuses the account;
* `wrong_password_iff` : when a wrong password gets the same answer as an unknown user name.
-/

namespace LongshipX.Application
open Persistence

namespace Login

def Pc.left : Pc → Nat
  | .start => 7
  | .loadAccount _ => 6
  | .verify _ => 5
  | .loadPlayer _ => 4
  | .recordLogin _ => 3
  | .createToken _ => 2
  | .audit _ _ => 1
  | .done _ => 0

/-- At most `n` steps of a login; `envs pc` is what the outside answers when the login is at `pc`. -/
def resume (config : Config) (envs : Pc → Env) (cmd : LoginCommand) : Nat → Stores → Pc → Stores × Pc
  | 0, stores, pc => (stores, pc)
  | n + 1, stores, pc =>
    match advance config (envs pc) stores cmd pc with
    | none => (stores, pc)
    | some (stores, pc, _) => resume config envs cmd n stores pc

/-- `LoginUseCase::execute`. -/
def execute (config : Config) (envs : Pc → Env) (stores : Stores) (cmd : LoginCommand) : Stores × Pc :=
  resume config envs cmd 7 stores .start

section
variable {config : Config} {env : Env} {envs : Pc → Env} {stores stores' : Stores} {cmd : LoginCommand}

theorem advance_left {pc pc' : Pc} {mark : Option Mark} (h : advance config env stores cmd pc = some (stores', pc', mark)) :
    pc'.left < pc.left := by
  cases pc with
  | start | loadAccount | verify | loadPlayer | recordLogin | createToken =>
      simp only [advance] at h
      split at h <;> (obtain ⟨-, rfl, -⟩ := h; simp [Pc.left])
  | audit player token =>
      obtain ⟨-, rfl, -⟩ := h
      exact Nat.zero_lt_one
  | done result => cases h

theorem advance_none {pc : Pc} (h : advance config env stores cmd pc = none) : ∃ result, pc = .done result := by
  cases pc with
  | start | loadAccount | verify | loadPlayer | recordLogin | createToken =>
      simp only [advance] at h
      split at h <;> cases h
  | audit player token => cases h
  | done result => exact ⟨result, rfl⟩

theorem resume_done {n : Nat} {pc : Pc} (hleft : pc.left ≤ n) : ∃ result, (resume config envs cmd n stores pc).2 = .done result := by
  induction n generalizing stores pc with
  | zero =>
      cases pc with
      | done result => exact ⟨result, rfl⟩
      | _ => simp [Pc.left] at hleft
  | succ n ih =>
      unfold resume
      split
      · next hnone => exact advance_none hnone
      · next hsome =>
        have := advance_left hsome
        exact ih (by omega)

theorem execute_done : ∃ result, (execute config envs stores cmd).2 = .done result := resume_done (Nat.le_refl 7)

theorem resume_run {start : Stores} {n j : Nat} {pc : Pc} {s : State} (hexec : s.execs[j]? = some (.login cmd pc)) :
    ∃ labels t, (system config start).run s labels = some t ∧ t.stores = (resume config envs cmd n s.stores pc).1 ∧
      t.execs = s.execs.set j (.login cmd (resume config envs cmd n s.stores pc).2) := by
  have hset : s.execs.set j (.login cmd pc) = s.execs := by
    obtain ⟨hlt, hget⟩ := List.getElem?_eq_some_iff.mp hexec
    rw [← hget, List.set_getElem_self]
  induction n generalizing s pc with
  | zero => exact ⟨[], s, rfl, rfl, hset.symm⟩
  | succ n ih =>
      unfold resume
      cases hadvance : advance config (envs pc) s.stores cmd pc with
      | none => exact ⟨[], s, rfl, rfl, hset.symm⟩
      | some moved =>
          obtain ⟨stores', pc', mark⟩ := moved
          let s' : State := ⟨stores', s.execs.set j (.login cmd pc'), s.log ++ (mark.map fun mark => (j, mark)).toList⟩
          have hstep : s.step config (.next j (envs pc)) = some s' := by
            simp only [State.step, hexec, Exec.advance, hadvance, Option.map_some]
            rfl
          have hexec' : s'.execs[j]? = some (.login cmd pc') :=
            Indexed.set_self hexec
          obtain ⟨labels, t, hrun, hstores, hexecs⟩ := ih hexec' (List.set_set _)
          refine ⟨.next j (envs pc) :: labels, t, ?_, hstores, hexecs.trans (List.set_set _)⟩
          rw [TransitionSystem.run]
          exact (congrArg (Option.bind · _) hstep).trans hrun

/-- **An undisturbed login is a run of the system**, from every state. -/
theorem execute_run {start : Stores} (s : State) : ∃ labels t,
    (system config start).run s (.call (.login cmd) :: labels) = some t ∧ t.stores = (execute config envs s.stores cmd).1 ∧
      t.execs = s.execs ++ [.login cmd (execute config envs s.stores cmd).2] := by
  let s' : State := { s with execs := s.execs ++ [.login cmd .start] }
  have hexec : s'.execs[s.execs.length]? = some (.login cmd .start) := List.getElem?_concat_length
  obtain ⟨labels, t, hrun, hstores, hexecs⟩ := resume_run hexec
  refine ⟨labels, t, hrun, hstores, hexecs.trans ?_⟩
  simp [s', execute]

end

/-! ## A wrong password -/

/-- The user name is well formed, and its account may not log in when its status is checked. -/
def Barred (envs : Pc → Env) (stores : Stores) (cmd : LoginCommand) : Prop :=
  ∃ username account, Username.tryNew cmd.username = .ok username ∧
    stores.accounts.findByUsername username.value = .ok (some account) ∧
    account.status.allowsLogin (envs (.loadAccount username)).now = false

/-- The stores agree on everything but the account under the user name of the command and the player of that account. -/
structure AgreeBut (cmd : LoginCommand) (stores stores' : Stores) : Prop where
  tokens : stores.tokens = stores'.tokens
  accounts : ∀ id account, Username.tryNew cmd.username ≠ .ok account.username →
    (stores.accounts.lookup id = some account ↔ stores'.accounts.lookup id = some account)
  players : ∀ id player, (∀ id account, Username.tryNew cmd.username = .ok account.username →
      stores.accounts.lookup id = some account ∨ stores'.accounts.lookup id = some account →
      player.accountId ≠ account.id) →
    (stores.players.lookup id = some player ↔ stores'.players.lookup id = some player)

section
variable {config : Config} {envs : Pc → Env} {stores stores' : Stores} {cmd : LoginCommand}

theorem execute_malformed {err : DomainError} (h : Username.tryNew cmd.username = .error err) :
    execute config envs stores cmd = (stores, .done (.error (.ofDomain err))) := by
  simp only [execute, resume, advance, h]

theorem execute_barred (h : Barred envs stores cmd) :
    execute config envs stores cmd = (stores, .done (.error (.forbidden "账号当前不可登录"))) := by
  obtain ⟨username, account, hname, hfind, hstatus⟩ := h
  simp only [execute, resume, advance, hname, loadAccount, hfind, ensureLoginAllowed, hstatus]
  rfl

theorem execute_wrong_password {username : Username} (hname : Username.tryNew cmd.username = .ok username)
    (hallowed : ¬ Barred envs stores cmd) (hwrong : ∀ account, (envs (.verify account)).verified = .ok false) :
    execute config envs stores cmd = (stores, .done (.error (.unauthorized "用户名或密码错误"))) := by
  cases hfind : stores.accounts.findByUsername username.value with
  | error err => cases hfind
  | ok found =>
      cases found with
      | none => simp only [execute, resume, advance, hname, loadAccount, hfind]
      | some account =>
          have hstatus : account.status.allowsLogin (envs (.loadAccount username)).now = true := by
            by_contra hbarred
            exact hallowed ⟨username, account, hname, hfind, Bool.eq_false_of_not_eq_true hbarred⟩
          simp only [execute, resume, advance, hname, loadAccount, hfind, ensureLoginAllowed, hstatus, if_true, hwrong]

/-- **What a wrong password reveals.** Two states give the same answer to a login with a wrong password, and keep what
they hold, exactly when the status check refuses the account in both or in neither. -/
theorem wrong_password_iff (hwrong : ∀ account, (envs (.verify account)).verified = .ok false) :
    (∃ err, execute config envs stores cmd = (stores, .done (.error err)) ∧
      execute config envs stores' cmd = (stores', .done (.error err))) ↔
    (Barred envs stores cmd ↔ Barred envs stores' cmd) := by
  cases hname : Username.tryNew cmd.username with
  | error err =>
      have hfree : ∀ stores, ¬ Barred envs stores cmd := by
        rintro stores ⟨username, account, hok, -⟩
        rw [hname] at hok
        cases hok
      refine iff_of_true ⟨_, execute_malformed hname, execute_malformed hname⟩ ?_
      exact iff_of_false (hfree stores) (hfree stores')
  | ok username =>
      by_cases hleft : Barred envs stores cmd <;> by_cases hright : Barred envs stores' cmd
      · exact iff_of_true ⟨_, execute_barred hleft, execute_barred hright⟩ (iff_of_true hleft hright)
      · refine iff_of_false ?_ (fun h => hright (h.mp hleft))
        rintro ⟨err, herr, herr'⟩
        rw [execute_barred hleft] at herr
        rw [execute_wrong_password hname hright hwrong] at herr'
        cases herr
        cases herr'
      · refine iff_of_false ?_ (fun h => hleft (h.mpr hright))
        rintro ⟨err, herr, herr'⟩
        rw [execute_wrong_password hname hleft hwrong] at herr
        rw [execute_barred hright] at herr'
        cases herr
        cases herr'
      · refine iff_of_true ⟨_, execute_wrong_password hname hleft hwrong, execute_wrong_password hname hright hwrong⟩ ?_
        exact iff_of_false hleft hright

end

/-! ### A suspended account -/

def suspended : Account := ⟨⟨1⟩, ⟨"alice", by decide, by decide⟩, "hash", .suspended, 0⟩

def suspendedPlayer : Player := Player.create ⟨2⟩ ⟨1⟩ ⟨"alice", by decide +kernel, by decide, by decide⟩ 0

def withSuspended : Stores := ⟨(∅ : Accounts).insert 1 suspended, (∅ : Players).insert 2 suspendedPlayer, .new⟩

def wrongPassword : LoginCommand := ⟨"alice", "guess"⟩

def refusing (_ : Pc) : Env := ⟨0, 0, .ok "", .ok false, .ok (), .ok (), ⟨0⟩, ⟨0⟩, "token"⟩

/-- The same account, active. -/
def withActive : Stores :=
  ⟨(∅ : Accounts).insert 1 { suspended with status := .active }, (∅ : Players).insert 2 suspendedPlayer, .new⟩

theorem withActive_not_barred (envs : Pc → Env) : ¬ Barred envs withActive wrongPassword := by
  rintro ⟨username, account, hname, hfind, hstatus⟩
  have halice : Username.tryNew wrongPassword.username = .ok suspended.username := by decide +kernel
  obtain rfl := Except.ok.inj (halice.symm.trans hname)
  have hactive : withActive.accounts.findByUsername suspended.username.value =
    .ok (some { suspended with status := .active }) := by decide +kernel
  obtain rfl := Option.some.inj (Except.ok.inj (hactive.symm.trans hfind))
  cases hstatus

theorem nobody_not_barred (envs : Pc → Env) (cmd : LoginCommand) : ¬ Barred envs ⟨∅, ∅, .new⟩ cmd := by
  rintro ⟨username, account, -, hfind, -⟩
  cases hfind

/-- An active account under the name and no account at all. -/
theorem wrong_password_iff_active : ∃ err,
    execute ⟨1, 10⟩ refusing withActive wrongPassword = (withActive, .done (.error err)) ∧
      execute ⟨1, 10⟩ refusing ⟨∅, ∅, .new⟩ wrongPassword = (⟨∅, ∅, .new⟩, .done (.error err)) :=
  (wrong_password_iff fun _ => rfl).mpr
    (iff_of_false (withActive_not_barred refusing) (nobody_not_barred refusing wrongPassword))

/-- Without the password, a suspended account can be told from no account. -/
theorem suspended_account_revealed : ¬ ∀ (config : Config) (envs : Pc → Env) (stores stores' : Stores) (cmd : LoginCommand),
    AgreeBut cmd stores stores' → (∀ account, (envs (.verify account)).verified = .ok false) →
    ∃ err, execute config envs stores cmd = (stores, .done (.error err)) ∧
      execute config envs stores' cmd = (stores', .done (.error err)) := by
  intro hsilent
  have hagree : AgreeBut wrongPassword ⟨∅, ∅, .new⟩ withSuspended := by
    have hname : Username.tryNew wrongPassword.username = .ok suspended.username := by decide +kernel
    refine ⟨rfl, fun id account hother => ?_, fun id player hother => ?_⟩
    · by_cases hid : id = 1
      · subst hid
        refine iff_of_false (by simp) fun hfound => hother ?_
        rw [withSuspended, AList.lookup_insert] at hfound
        obtain rfl := Option.some.inj hfound
        exact hname
      · rw [withSuspended, AList.lookup_insert_ne hid]
    · by_cases hid : id = 2
      · subst hid
        refine iff_of_false (by simp) fun hfound => ?_
        rw [withSuspended, AList.lookup_insert] at hfound
        obtain rfl := Option.some.inj hfound
        exact hother 1 suspended hname (Or.inr (AList.lookup_insert _)) rfl
      · rw [withSuspended, AList.lookup_insert_ne hid]
  obtain ⟨err, hempty, hsuspended⟩ := hsilent ⟨1, 10⟩ refusing _ _ wrongPassword hagree fun _ => rfl
  have hleft : (execute ⟨1, 10⟩ refusing ⟨∅, ∅, .new⟩ wrongPassword).2 =
    .done (.error (.unauthorized "用户名或密码错误")) := by decide +kernel
  have hright : (execute ⟨1, 10⟩ refusing withSuspended wrongPassword).2 =
    .done (.error (.forbidden "账号当前不可登录")) := by decide +kernel
  rw [hempty] at hleft
  rw [hsuspended] at hright
  cases hleft
  cases hright

end Login

end LongshipX.Application
