import LongshipX.Domain.Values

/-!
# The account aggregate

`Account` of `account/aggregate.rs`: credentials and the status that decides whether its owner may log in.
-/

namespace LongshipX

/-- `chrono::DateTime<Utc>`, as a number of microseconds from the epoch. -/
abbrev DateTime := Int

structure AccountId where
  uuid : Uuid
  deriving DecidableEq, Repr

inductive AccountStatus where
  | active
  | suspended
  | banned (reason : String) (until_ : Option DateTime)
  deriving DecidableEq, Repr

/-- `allows_login`; a ban without an end never ends. -/
def AccountStatus.allowsLogin (now : DateTime) : AccountStatus → Bool
  | .active => true
  | .suspended => false
  | .banned _ until_ => until_.any fun until_ => decide (now ≥ until_)

structure Account where
  id : AccountId
  username : Username
  passwordHash : String
  status : AccountStatus
  createdAt : DateTime
  deriving DecidableEq

/-- `Account::register`; the id is what `Uuid::now_v7` drew. -/
def Account.register (id : AccountId) (username : Username) (passwordHash : String) (now : DateTime) : Account :=
  ⟨id, username, passwordHash, .active, now⟩

end LongshipX
