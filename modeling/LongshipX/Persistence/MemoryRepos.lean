import LongshipX.Domain.Player
import LongshipX.Lib.AssocMap

/-!
# The in-memory repositories

`InMemoryAccountRepository`, `InMemoryPlayerRepository` and `InMemoryRegistrationStore` of `memory_repos.rs`. A map is
an `AList`; `values()` are its entries in their order. Every operation holds its locks from start to end and never
fails on its own.
-/

namespace LongshipX.Persistence

/-- `HashMap<Uuid, Account>`. -/
abbrev Accounts := AList fun _ : Uuid => Account

/-- `HashMap<Uuid, Player>`. -/
abbrev Players := AList fun _ : Uuid => Player

namespace Accounts

/-- `values()`. -/
def values (accounts : Accounts) : List Account := accounts.entries.map fun entry => entry.2

/-- `find_by_username`. -/
def findByUsername (accounts : Accounts) (username : String) : Except RepoError (Option Account) :=
  .ok (accounts.values.find? fun account => decide (account.username.value = username))

end Accounts

namespace Players

/-- `values()`. -/
def values (players : Players) : List Player := players.entries.map fun entry => entry.2

/-- `gain_exp`. -/
def gainExp (players : Players) (id : PlayerId) (amount : Nat) :
    Except RepoError (Option (Player × Option Nat)) × Players :=
  match players.lookup id.uuid with
  | none => (.ok none, players)
  | some player =>
    let gained := player.gainExp amount
    (.ok (some (gained.2, gained.1)), players.insert id.uuid gained.2)

/-- `record_login`. -/
def recordLogin (players : Players) (id : PlayerId) (at_ : DateTime) : Except RepoError (Option Player) × Players :=
  match players.lookup id.uuid with
  | none => (.ok none, players)
  | some player => (.ok (some (player.recordLogin at_)), players.insert id.uuid (player.recordLogin at_))

/-- `find_by_id`. -/
def findById (players : Players) (id : PlayerId) : Except RepoError (Option Player) := .ok (players.lookup id.uuid)

/-- `find_by_account`. -/
def findByAccount (players : Players) (accountId : AccountId) : Except RepoError (Option Player) :=
  .ok (players.values.find? fun player => decide (player.accountId = accountId))

/-- `save`. -/
def save (players : Players) (player : Player) : Except RepoError Unit × Players :=
  (.ok (), players.insert player.id.uuid player)

end Players

/-- `InMemoryRegistrationStore::register`. -/
def register (accounts : Accounts) (players : Players) (account : Account) (player : Player) :
    Except AppError Unit × Accounts × Players :=
  if account.id.uuid ∈ accounts ∨ accounts.values.any (fun stored => decide (stored.username = account.username)) = true ∨
      player.id.uuid ∈ players ∨ players.values.any (fun stored => decide (stored.accountId = player.accountId)) = true then
    (.error (.conflict "注册数据已存在"), accounts, players)
  else (.ok (), accounts.insert account.id.uuid account, players.insert player.id.uuid player)

theorem register_ok {accounts accounts' : Accounts} {players players' : Players} {account : Account} {player : Player}
    (h : register accounts players account player = (.ok (), accounts', players')) :
    account.id.uuid ∉ accounts ∧ (∀ stored ∈ accounts.values, stored.username ≠ account.username) ∧
      player.id.uuid ∉ players ∧ (∀ stored ∈ players.values, stored.accountId ≠ player.accountId) ∧
      accounts' = accounts.insert account.id.uuid account ∧ players' = players.insert player.id.uuid player := by
  unfold register at h
  split_ifs at h with htaken
  · cases (Prod.mk.inj h).1
  · obtain ⟨-, rfl, rfl⟩ := h
    simp only [not_or, Bool.not_eq_true, List.any_eq_false, decide_eq_true_eq] at htaken
    exact ⟨htaken.1, htaken.2.1, htaken.2.2.1, htaken.2.2.2, rfl, rfl⟩

end LongshipX.Persistence
