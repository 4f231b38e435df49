import LongshipX.Application.UseCases

/-!
# Concurrent registrations

Any number of `RegisterUseCase` executions side by side (with logins and gains among them), over the in-memory stores,
with a hasher and an audit log that may fail at any call.

* `Register.Traces` : what a registration left behind, by where it is; `Made` : the pair it stores;
* `registrations` : the pairs that were stored, oldest first; `Ledger` : the stores are these pairs and no others, and no
  two of them share a user name, an account or a player; `run_ledger`;
* `registration_atomic` : the stores after every run, and what the executions returned.
-/

namespace LongshipX.Application
open Persistence

/-! ## What one registration does -/

/-- The account and the player that a registration makes of its command. `accepts` says which hashes of a password the
hasher gives. -/
structure Made (accepts : String → String → Prop) (cmd : RegisterCommand) (account : Account) (player : Player) : Prop where
  username : Username.tryNew cmd.username = .ok account.username
  nickname : Nickname.tryNew cmd.nickname = .ok player.nickname
  hash : accepts cmd.password account.passwordHash
  status : account.status = .active
  linked : player.accountId = account.id

def Register.Traces (accepts : String → String → Prop) (cmd : RegisterCommand) (marks : List Mark) : Pc → Prop
  | .start => marks = []
  | .findByUsername username nickname password => marks = [] ∧ validate cmd = .ok (username, nickname, password)
  | .hash username nickname password => marks = [] ∧ validate cmd = .ok (username, nickname, password)
  | .store account player => marks = [] ∧ Made accepts cmd account player
  | .audit account player => marks = [.registered account player] ∧ Made accepts cmd account player
  | .done (.ok result) => ∃ account player, marks = [.registered account player] ∧ Made accepts cmd account player ∧
      result = ⟨account.id, player.id, player.nickname.value⟩
  | .done (.error _) => marks = []

def Mark.isRegistered : Mark → Bool
  | .registered _ _ => true
  | _ => false

/-- The marks of an execution: those of a registration, or none that a registration would leave. -/
def Exec.RegisterTraces (accepts : String → String → Prop) (marks : List Mark) : Exec → Prop
  | .register cmd pc => Register.Traces accepts cmd marks pc
  | _ => ∀ mark ∈ marks, mark.isRegistered = false

/-- The hasher gives only hashes that `accepts` allows. -/
def Hashes (accepts : String → String → Prop) (exec : Exec) (env : Env) : Prop :=
  ∀ cmd username nickname password, exec = .register cmd (.hash username nickname password) →
    ∀ hash, env.hashed = .ok hash → accepts password.value hash

instance {accepts : String → String → Prop} [∀ password hash, Decidable (accepts password hash)] (exec : Exec) (env : Env) :
    Decidable (Hashes accepts exec env) :=
  match exec with
  | .register cmd (.hash username nickname password) =>
    match hhashed : env.hashed with
    | .ok hash => decidable_of_iff (accepts password.value hash)
        ⟨by rintro h _ _ _ _ ⟨⟩ _ hok; exact Except.ok.inj (hhashed.symm.trans hok) ▸ h,
          fun h => h cmd username nickname password rfl hash hhashed⟩
    | .error _ => isTrue (by simp [Hashes, hhashed])
  | .register _ .start | .register _ (.findByUsername _ _ _) | .register _ (.store _ _) | .register _ (.audit _ _)
  | .register _ (.done _) | .login _ _ | .gainExp _ _ _ => isTrue (by simp [Hashes])

theorem Register.validate_ok {cmd : RegisterCommand} {username : Username} {nickname : Nickname} {password : PlainPassword}
    (h : validate cmd = .ok (username, nickname, password)) : Username.tryNew cmd.username = .ok username ∧
      Nickname.tryNew cmd.nickname = .ok nickname ∧ password.value = cmd.password := by
  unfold validate at h
  split at h
  · cases h
  · next hname =>
    split at h
    · cases h
    · next hnick =>
      split at h
      · cases h
      · next hpass =>
        obtain ⟨rfl, rfl, rfl⟩ := Except.ok.inj h
        exact ⟨hname, hnick, PlainPassword.tryNew_value hpass⟩

theorem Register.moved_traces {accepts : String → String → Prop} {env : Env} {stores stores' : Stores}
    {cmd : RegisterCommand} {pc pc' : Pc} {mark : Option Mark} {marks : List Mark}
    (hok : Hashes accepts (.register cmd pc) env) (h : Moved env stores cmd pc stores' pc' mark)
    (hmarks : Traces accepts cmd marks pc) : Traces accepts cmd (marks ++ mark.toList) pc' := by
  cases h with
  | refused err haudit hdone =>
      refine (List.append_nil marks).trans ?_
      cases pc with
      | start => exact hmarks
      | findByUsername | hash | store => exact hmarks.1
      | audit account player => exact absurd rfl (haudit account player)
      | done result => exact absurd rfl (hdone result)
  | validated hvalid =>
      obtain rfl : marks = [] := hmarks
      exact ⟨rfl, hvalid⟩
  | free => exact ⟨(List.append_nil marks).trans hmarks.1, hmarks.2⟩
  | @hashed username nickname password hash hhashed =>
      obtain ⟨rfl, hvalid⟩ := hmarks
      obtain ⟨hname, hnick, hpass⟩ := validate_ok hvalid
      exact ⟨rfl, hname, hnick, hpass ▸ hok cmd username nickname password rfl hash hhashed, rfl, rfl⟩
  | stored =>
      obtain ⟨rfl, hmade⟩ := hmarks
      exact ⟨rfl, hmade⟩
  | @audited account player =>
      obtain ⟨rfl, hmade⟩ := hmarks
      exact ⟨account, player, rfl, hmade, rfl⟩

section
variable {accepts : String → String → Prop} {config : Config} {stores : Stores} {s s' : State} {labels : List Label}

theorem run_registerTraces
    (hok : (system config stores).Along (Steps (Hashes accepts)) (system config stores).init labels)
    (hrun : (system config stores).run (system config stores).init labels = some s) :
    ∀ (k : Nat) (exec : Exec), s.execs[k]? = some exec → exec.RegisterTraces accepts (s.trace k) := by
  refine run_traces (P := fun (exec : Exec) marks => exec.RegisterTraces accepts marks) ?_ ?_ hok hrun
  · intro call
    cases call with
    | register => rfl
    | login | gainExp => exact fun mark hmark => nomatch hmark
  · intro env stores exec stores' exec' mark marks hhashes hadvance hmarks
    obtain ⟨playerId, amount, pc, pc', rfl, rfl, hmoved⟩ | ⟨cmd, pc, pc', rfl, rfl, heffect⟩ |
      ⟨cmd, pc, pc', rfl, rfl, hmoved⟩ := Exec.advance_cases hadvance
    · refine List.forall_mem_append.mpr ⟨hmarks, ?_⟩
      cases hmoved with
      | zero | positive | missing => simp
      | raised | kept | announced | unannounced => simp [Mark.isRegistered]
    · refine List.forall_mem_append.mpr ⟨hmarks, ?_⟩
      cases heffect with
      | quiet => simp
      | loggedIn | tokenCreated => simp [Mark.isRegistered]
    · exact Register.moved_traces hhashes hmoved hmarks

theorem hashes_any : (system config stores).Along (Steps (Hashes fun _ _ => True)) (system config stores).init labels :=
  steps_of_forall _ fun _ _ _ _ _ _ _ _ _ => trivial

/-! ## The ledger -/

/-- A pair that was stored, and by which execution. -/
structure Registration where
  exec : Nat
  account : Account
  player : Player

def registrations (log : List (Nat × Mark)) : List Registration :=
  log.filterMap fun
    | (k, .registered account player) => some ⟨k, account, player⟩
    | _ => none

/-- What never changes of a stored player. -/
structure Identity where
  id : PlayerId
  accountId : AccountId
  nickname : Nickname
  deriving DecidableEq

def identity (player : Player) : Identity := ⟨player.id, player.accountId, player.nickname⟩

def State.identityAt (s : State) (id : Uuid) : Option Identity := (s.stores.players.lookup id).map identity

theorem registrations_append (log : List (Nat × Mark)) (mark : Option Mark) (k : Nat) :
    registrations (log ++ (mark.map fun mark => (k, mark)).toList) =
      registrations log ++ registrations (mark.map fun mark => (k, mark)).toList := List.filterMap_append

theorem identity_insert {players : Players} {id : Uuid} {player player' : Player} (h : players.lookup id = some player)
    (hsame : identity player' = identity player) (x : Uuid) :
    ((players.insert id player').lookup x).map identity = (players.lookup x).map identity := by
  by_cases hx : x = id
  · subst hx
    rw [AList.lookup_insert, h, Option.map_some, Option.map_some, hsame]
  · rw [AList.lookup_insert_ne hx]

/-- **What a step does to the stores**: it stores a pair that was free, or changes no account and nobody's identity. -/
theorem step_stores {label : Label} (hstep : s.step config label = some s') :
    (s'.stores.accounts = s.stores.accounts ∧ (∀ id, s'.identityAt id = s.identityAt id) ∧
      registrations s'.log = registrations s.log) ∨
    (∃ k cmd account player, s.execs[k]? = some (.register cmd (.store account player)) ∧
      register s.stores.accounts s.stores.players account player = (.ok (), s'.stores.accounts, s'.stores.players) ∧
      registrations s'.log = registrations s.log ++ [⟨k, account, player⟩]) := by
  obtain ⟨call, -, rfl⟩ | ⟨k, env, exec, stores', exec', mark, -, hexec, hadvance, rfl⟩ := step_cases hstep
  · exact Or.inl ⟨rfl, fun _ => rfl, rfl⟩
  · rw [registrations_append]
    obtain ⟨p, amount, pc, pc', rfl, rfl, hmoved⟩ | ⟨cmd, pc, pc', rfl, rfl, heffect⟩ | ⟨cmd, pc, pc', rfl, rfl, hmoved⟩ :=
      Exec.advance_cases hadvance
    · refine Or.inl ?_
      cases hmoved with
      | zero | positive | missing | announced | unannounced => exact ⟨rfl, fun _ => rfl, List.append_nil _⟩
      | raised h | kept h => exact ⟨rfl, identity_insert h rfl, List.append_nil _⟩
    · refine Or.inl ?_
      cases heffect with
      | quiet | tokenCreated => exact ⟨rfl, fun _ => rfl, List.append_nil _⟩
      | loggedIn h => exact ⟨rfl, identity_insert h rfl, List.append_nil _⟩
    · cases hmoved with
      | refused | validated | free | hashed | audited => exact Or.inl ⟨rfl, fun _ => rfl, List.append_nil _⟩
      | stored h => exact Or.inr ⟨k, cmd, _, _, hexec, h, rfl⟩

def Apart (r r' : Registration) : Prop :=
  r.account.username ≠ r'.account.username ∧ r.account.id ≠ r'.account.id ∧ r.player.id ≠ r'.player.id

/-- **The ledger**: the stores hold the registered pairs and nothing else, and no two pairs have anything in common. -/
structure Ledger (s : State) : Prop where
  accounts : ∀ id account, s.stores.accounts.lookup id = some account →
    ∃ r ∈ registrations s.log, r.account = account ∧ account.id.uuid = id
  players : ∀ id owner, s.identityAt id = some owner →
    ∃ r ∈ registrations s.log, identity r.player = owner ∧ owner.id.uuid = id
  stored : ∀ r ∈ registrations s.log, s.stores.accounts.lookup r.account.id.uuid = some r.account ∧
    s.identityAt r.player.id.uuid = some (identity r.player) ∧ r.player.accountId = r.account.id
  apart : (registrations s.log).Pairwise Apart

theorem step_ledger {label : Label} (h : Ledger s) (hstep : s.step config label = some s')
    (hlinked : ∀ (k : Nat) (cmd : RegisterCommand) (account : Account) (player : Player),
      s.execs[k]? = some (Exec.register cmd (.store account player)) → player.accountId = account.id) : Ledger s' := by
  obtain ⟨haccounts, hplayers, hregs⟩ | ⟨k, cmd, account, player, hexec, hregister, hregs⟩ := step_stores hstep
  · refine ⟨?_, ?_, ?_, ?_⟩
    · rw [haccounts, hregs]
      exact h.accounts
    · simp only [hplayers, hregs]
      exact h.players
    · simp only [haccounts, hplayers, hregs]
      exact h.stored
    · rw [hregs]
      exact h.apart
  · obtain ⟨hnoAccount, hname, hnoPlayer, -, haccounts, hplayers⟩ := register_ok hregister
    have hidentity : ∀ id, s'.identityAt id = if id = player.id.uuid then some (identity player) else s.identityAt id := by
      intro id
      unfold State.identityAt
      rw [hplayers]
      split_ifs with hid
      · rw [hid, AList.lookup_insert, Option.map_some]
      · rw [AList.lookup_insert_ne hid]
    have hold : ∀ r ∈ registrations s.log, r.account.id.uuid ≠ account.id.uuid ∧ r.player.id.uuid ≠ player.id.uuid := by
      intro r hr
      obtain ⟨hacc, hpl, -⟩ := h.stored r hr
      refine ⟨fun heq => hnoAccount ?_, fun heq => hnoPlayer ?_⟩
      · rw [← heq]
        exact AList.lookup_isSome.mp (by rw [hacc]; rfl)
      · rw [← heq]
        obtain ⟨stored, hstored, -⟩ := Option.map_eq_some_iff.mp hpl
        exact AList.lookup_isSome.mp (by rw [hstored]; rfl)
    refine ⟨?_, ?_, ?_, ?_⟩
    · intro id acc hacc
      rw [haccounts] at hacc
      rw [hregs]
      by_cases hid : id = account.id.uuid
      · rw [hid, AList.lookup_insert] at hacc
        obtain rfl := Option.some.inj hacc
        exact ⟨_, List.mem_append_right _ (List.mem_singleton_self _), rfl, hid.symm⟩
      · rw [AList.lookup_insert_ne hid] at hacc
        obtain ⟨r, hr, hrest⟩ := h.accounts id acc hacc
        exact ⟨r, List.mem_append_left _ hr, hrest⟩
    · intro id owner howner
      rw [hidentity] at howner
      rw [hregs]
      split_ifs at howner with hid
      · obtain rfl := Option.some.inj howner
        exact ⟨_, List.mem_append_right _ (List.mem_singleton_self _), rfl, hid.symm⟩
      · obtain ⟨r, hr, hrest⟩ := h.players id owner howner
        exact ⟨r, List.mem_append_left _ hr, hrest⟩
    · intro r hr
      rw [hregs] at hr
      rw [haccounts, hidentity]
      rcases List.mem_append.mp hr with hr | hr
      · obtain ⟨hacc, hpl, hlink⟩ := h.stored r hr
        obtain ⟨hneAccount, hnePlayer⟩ := hold r hr
        rw [AList.lookup_insert_ne hneAccount, if_neg hnePlayer]
        exact ⟨hacc, hpl, hlink⟩
      · rw [List.mem_singleton.mp hr, AList.lookup_insert, if_pos rfl]
        exact ⟨rfl, rfl, hlinked k cmd account player hexec⟩
    · rw [hregs]
      refine List.pairwise_append.mpr ⟨h.apart, List.pairwise_singleton _ _, fun r hr r' hr' => ?_⟩
      rw [List.mem_singleton.mp hr']
      obtain ⟨hneAccount, hnePlayer⟩ := hold r hr
      refine ⟨?_, fun heq => hneAccount (congrArg _ heq), fun heq => hnePlayer (congrArg _ heq)⟩
      exact hname r.account (AList.mem_values_iff.mpr ⟨_, (h.stored r hr).1⟩)

/-- **The ledger holds after every run** that starts from empty repositories. -/
theorem run_ledger {tokens : Session.State}
    (hrun : (system config ⟨∅, ∅, tokens⟩).run (system config ⟨∅, ∅, tokens⟩).init labels = some s) : Ledger s := by
  induction labels using List.reverseRecOn generalizing s with
  | nil =>
      obtain rfl := Option.some.inj hrun
      refine ⟨fun id account h => ?_, fun id owner h => ?_, fun r hr => ?_, List.Pairwise.nil⟩
      · cases h
      · cases h
      · cases hr
  | append_singleton labels label ih =>
      obtain ⟨t, hlabels, hlast⟩ := TransitionSystem.run_concat.mp hrun
      refine step_ledger (ih hlabels) hlast fun k cmd account player hexec => ?_
      exact (run_registerTraces hashes_any hlabels k _ hexec).2.linked

theorem mem_registrations {log : List (Nat × Mark)} {r : Registration} :
    r ∈ registrations log ↔ (r.exec, .registered r.account r.player) ∈ log := by
  simp only [registrations, List.mem_filterMap]
  constructor
  · rintro ⟨⟨k, mark⟩, hmem, hsome⟩
    cases mark with
    | registered account player =>
        obtain rfl := Option.some.inj hsome
        exact hmem
    | gained | loggedIn | tokenCreated | published => cases hsome
  · intro hmem
    exact ⟨_, hmem, rfl⟩

theorem Ledger.eq_of_shared (h : Ledger s) {r r' : Registration} (hr : r ∈ registrations s.log)
    (hr' : r' ∈ registrations s.log) (hshared : ¬ Apart r r') : r = r' := by
  by_contra hne
  have : Std.Symm Apart := ⟨fun _ _ hapart => ⟨hapart.1.symm, hapart.2.1.symm, hapart.2.2.symm⟩⟩
  exact hshared (h.apart.forall hr hr' hne)

/-- The pair was stored by this execution, which has returned `Ok` with it or is about to, whatever the audit says. -/
def AddedBy (s : State) (k : Nat) (account : Account) (player : Player) : Prop :=
  (k, .registered account player) ∈ s.log ∧ ∃ cmd, s.execs[k]? = some (.register cmd (.audit account player)) ∨
    s.execs[k]? = some (.register cmd (.done (.ok ⟨account.id, player.id, player.nickname.value⟩)))

theorem run_addedBy (hrun : (system config stores).run (system config stores).init labels = some s) {k : Nat}
    {account : Account} {player : Player} (h : (k, .registered account player) ∈ s.log) : AddedBy s k account player := by
  have hlt : k < s.execs.length := run_logged hrun _ h
  have hexec : s.execs[k]? = some s.execs[k] := List.getElem?_eq_getElem hlt
  have htraces := run_registerTraces hashes_any hrun k _ hexec
  have hmark := mem_trace.mpr h
  refine ⟨h, ?_⟩
  cases hkind : s.execs[k] with
  | gainExp | login =>
      rw [hkind] at htraces
      cases htraces _ hmark
  | register cmd pc =>
      rw [hkind] at htraces hexec
      refine ⟨cmd, ?_⟩
      rw [hexec]
      cases pc with
      | start =>
          rw [show s.trace k = [] from htraces] at hmark
          cases hmark
      | findByUsername | hash | store =>
          rw [htraces.1] at hmark
          cases hmark
      | audit account' player' =>
          rw [htraces.1, List.mem_singleton] at hmark
          obtain ⟨rfl, rfl⟩ := Mark.registered.inj hmark
          exact Or.inl rfl
      | done result =>
          cases result with
          | error err =>
              rw [show s.trace k = [] from htraces] at hmark
              cases hmark
          | ok result =>
              obtain ⟨account', player', htrace, -, rfl⟩ := htraces
              rw [htrace, List.mem_singleton] at hmark
              obtain ⟨rfl, rfl⟩ := Mark.registered.inj hmark
              exact Or.inr rfl

/-- **Registration is atomic and unique.** From empty repositories, after every run of any number of registrations, side
by side with logins and gains, whatever the hasher and the audit log answer:

* no two stored accounts share a user name, every account has exactly one player, every player an account;
* of the executions whose user names agree up to surrounding white space and ASCII letter case, one at most returned
  `Ok`;
* an execution that returned an error stored nothing, and every stored account and player was stored by an execution that
  has returned `Ok` with it or is about to. -/
theorem registration_atomic {tokens : Session.State}
    (hrun : (system config ⟨∅, ∅, tokens⟩).run (system config ⟨∅, ∅, tokens⟩).init labels = some s) :
    (∀ id id' account account', s.stores.accounts.lookup id = some account → s.stores.accounts.lookup id' = some account' →
      account.username = account'.username → id = id') ∧
    (∀ id account, s.stores.accounts.lookup id = some account →
      ∃! playerId, ∃ player, s.stores.players.lookup playerId = some player ∧ player.accountId = account.id) ∧
    (∀ id player, s.stores.players.lookup id = some player →
      ∃ account, s.stores.accounts.lookup player.accountId.uuid = some account ∧ account.id = player.accountId) ∧
    (∀ (k k' : Nat) (cmd cmd' : RegisterCommand) (result result' : RegisterResult),
      s.execs[k]? = some (Exec.register cmd (.done (.ok result))) →
      s.execs[k']? = some (Exec.register cmd' (.done (.ok result'))) →
      (Text.trim cmd.username).toLower = (Text.trim cmd'.username).toLower → k = k') ∧
    (∀ (k : Nat) (cmd : RegisterCommand) (err : AppError), s.execs[k]? = some (Exec.register cmd (.done (.error err))) →
      ∀ account player, (k, .registered account player) ∉ s.log) ∧
    (∀ id account, s.stores.accounts.lookup id = some account → ∃ k player, AddedBy s k account player) ∧
    (∀ id player, s.stores.players.lookup id = some player →
      ∃ k account created, identity created = identity player ∧ AddedBy s k account created) := by
  have h := run_ledger hrun
  have htraces := run_registerTraces hashes_any hrun
  refine ⟨?_, ?_, ?_, ?_, ?_, ?_, ?_⟩
  · intro id id' account account' hlookup hlookup' hname
    obtain ⟨r, hr, rfl, rfl⟩ := h.accounts id account hlookup
    obtain ⟨r', hr', rfl, rfl⟩ := h.accounts id' account' hlookup'
    rw [h.eq_of_shared hr hr' fun hapart => hapart.1 hname]
  · intro id account hlookup
    obtain ⟨r, hr, rfl, rfl⟩ := h.accounts id account hlookup
    obtain ⟨-, hplayer, hlinked⟩ := h.stored r hr
    obtain ⟨player, hplayer, hidentity⟩ := Option.map_eq_some_iff.mp hplayer
    refine ⟨r.player.id.uuid, ⟨player, hplayer, ?_⟩, ?_⟩
    · exact (congrArg Identity.accountId hidentity).trans hlinked
    · rintro pid ⟨other, hother, howner⟩
      obtain ⟨r', hr', hsame, rfl⟩ := h.players pid (identity other) (by rw [State.identityAt, hother]; rfl)
      have hlinked' := (h.stored r' hr').2.2
      have haccount : r'.account.id = r.account.id :=
        hlinked'.symm.trans ((congrArg Identity.accountId hsame).trans howner)
      rw [h.eq_of_shared hr hr' fun hapart => hapart.2.1 haccount.symm, ← hsame]
      rfl
  · intro id player hlookup
    obtain ⟨r, hr, hsame, -⟩ := h.players id (identity player) (by rw [State.identityAt, hlookup]; rfl)
    obtain ⟨haccount, -, hlinked⟩ := h.stored r hr
    have howner : r.account.id = player.accountId := hlinked.symm.trans (congrArg Identity.accountId hsame)
    exact ⟨r.account, howner ▸ haccount, howner⟩
  · intro k k' cmd cmd' result result' hk hk' hnames
    obtain ⟨account, player, htrace, hmade, -⟩ := htraces k _ hk
    obtain ⟨account', player', htrace', hmade', -⟩ := htraces k' _ hk'
    have hmem : ⟨k, account, player⟩ ∈ registrations s.log :=
      mem_registrations.mpr (mem_trace.mp (htrace ▸ List.mem_singleton_self _))
    have hmem' : ⟨k', account', player'⟩ ∈ registrations s.log :=
      mem_registrations.mpr (mem_trace.mp (htrace' ▸ List.mem_singleton_self _))
    have husername : account.username = account'.username :=
      Except.ok.inj ((Username.tryNew_congr hmade.username hnames.symm).symm.trans hmade'.username)
    exact congrArg Registration.exec (h.eq_of_shared hmem hmem' fun hapart => hapart.1 husername)
  · intro k cmd err hk account player hmem
    have hmark := mem_trace.mpr hmem
    rw [show s.trace k = [] from htraces k _ hk] at hmark
    cases hmark
  · intro id account hlookup
    obtain ⟨r, hr, rfl, -⟩ := h.accounts id account hlookup
    exact ⟨r.exec, r.player, run_addedBy hrun (mem_registrations.mp hr)⟩
  · intro id player hlookup
    obtain ⟨r, hr, hsame, -⟩ := h.players id (identity player) (by rw [State.identityAt, hlookup]; rfl)
    exact ⟨r.exec, r.account, r.player, hsame, run_addedBy hrun (mem_registrations.mp hr)⟩

end

/-! ### Two registrations of one name -/

def firstAlice : RegisterCommand := ⟨"Alice_01", "super-secret", "爱丽丝"⟩

def secondAlice : RegisterCommand := ⟨" alice_01 ", "other-secret", "A"⟩

def answering (id : Uuid) : Env := ⟨0, 0, .ok "h", .ok true, .ok (), .error .busy, ⟨id⟩, ⟨id⟩, "t"⟩

/-- Both look the name up before either has stored its account. -/
def raceOfAlices : List Label :=
  [.call (.register firstAlice), .call (.register secondAlice), .next 0 (answering 1), .next 1 (answering 2),
    .next 0 (answering 1), .next 1 (answering 2), .next 0 (answering 1), .next 1 (answering 2), .next 0 (answering 1),
    .next 1 (answering 2), .next 0 (answering 1)]

def emptySystem : TransitionSystem State Label := system ⟨10, 100⟩ ⟨∅, ∅, .new⟩

theorem raceOfAlices_first : (emptySystem.run emptySystem.init raceOfAlices).map (fun s => s.execs[0]?) =
    some (some (.register firstAlice (.done (.ok ⟨⟨1⟩, ⟨1⟩, "爱丽丝"⟩)))) := by decide +kernel

theorem registration_atomic_race :
    ∃ s, emptySystem.run emptySystem.init raceOfAlices = some s ∧
      s.execs[0]? = some (.register firstAlice (.done (.ok ⟨⟨1⟩, ⟨1⟩, "爱丽丝"⟩))) ∧
      ∀ result, s.execs[1]? ≠ some (.register secondAlice (.done (.ok result))) := by
  obtain ⟨s, hrun, hfirst⟩ := Option.map_eq_some_iff.mp raceOfAlices_first
  refine ⟨s, hrun, hfirst, fun result hsecond => ?_⟩
  have hname : (Text.trim firstAlice.username).toLower = "alice_01" := by decide +kernel
  have hname' : (Text.trim secondAlice.username).toLower = "alice_01" := by decide +kernel
  cases (registration_atomic hrun).2.2.2.1 0 1 _ _ _ _ hfirst hsecond (hname.trans hname'.symm)

end LongshipX.Application
