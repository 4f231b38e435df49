import LongshipX.Lib.AssocMap

/-!
# Keys that expire

A key space in the manner of Redis: strings and sets of strings under string keys, each key with an optional time of
expiry. A key is visible strictly before that time and absent from then on; an expired entry may stay in the map, where no
command sees it. Times are milliseconds.

* `read` : what is visible under a key; `get`, `smembers`, `sadd`, `pexpire`, `setPx` in terms of it;
* `read_later` : what time does; `read_erase`, `read_eraseAll`, `read_insert` : what the commands do.
-/

namespace Redis

inductive Value where
  | string (text : String)
  | set (members : List String)
  deriving DecidableEq, Repr

structure Slot where
  value : Value
  expiresAt : Option Nat
  deriving DecidableEq, Repr

abbrev Keyspace := AList fun _ : String => Slot

inductive Error where
  | wrongType
  deriving DecidableEq, Repr

def Slot.live (now : Nat) (slot : Slot) : Bool := slot.expiresAt.all fun time => decide (now < time)

namespace Keyspace

/-- What is visible under a key. -/
def read (db : Keyspace) (now : Nat) (key : String) : Option Slot := (db.lookup key).filter (Slot.live now)

/-- `GET`. -/
def get (db : Keyspace) (now : Nat) (key : String) : Except Error (Option String) :=
  match db.read now key with
  | none => .ok none
  | some ⟨.string text, _⟩ => .ok (some text)
  | some ⟨.set _, _⟩ => .error .wrongType

/-- `SMEMBERS`. -/
def smembers (db : Keyspace) (now : Nat) (key : String) : Except Error (List String) :=
  match db.read now key with
  | none => .ok []
  | some ⟨.set members, _⟩ => .ok members
  | some ⟨.string _, _⟩ => .error .wrongType

/-- `SADD` with one member; an expiry that the key has stays. -/
def sadd (db : Keyspace) (now : Nat) (key member : String) : Except Error Keyspace :=
  match db.read now key with
  | none => .ok (db.insert key ⟨.set [member], none⟩)
  | some ⟨.set members, time⟩ => .ok (db.insert key ⟨.set (members.insert member), time⟩)
  | some ⟨.string _, _⟩ => .error .wrongType

/-- `PEXPIRE`. -/
def pexpire (db : Keyspace) (now : Nat) (key : String) (ttl : Nat) : Keyspace :=
  match db.read now key with
  | none => db
  | some slot => if ttl = 0 then db.erase key else db.insert key { slot with expiresAt := some (now + ttl) }

/-- `SET` with `PX`. -/
def setPx (db : Keyspace) (now : Nat) (key text : String) (ttl : Nat) : Keyspace :=
  db.insert key ⟨.string text, some (now + ttl)⟩

variable {db : Keyspace} {now later : Nat} {key other : String} {slot : Slot}

theorem live_earlier (hle : now ≤ later) (h : slot.live later = true) : slot.live now = true := by
  obtain ⟨value, expiresAt⟩ := slot
  cases expiresAt with
  | none => rfl
  | some time =>
      simp only [Slot.live, Option.all_some, decide_eq_true_eq] at h ⊢
      omega

/-- **Time only hides keys.** -/
theorem read_later (db : Keyspace) (hle : now ≤ later) (key : String) :
    db.read later key = (db.read now key).filter (Slot.live later) := by
  unfold read
  rw [Option.filter_filter]
  congr 1
  funext slot
  cases hlive : slot.live later with
  | true => rw [live_earlier hle hlive, Bool.and_true]
  | false => rw [Bool.and_false]

theorem read_erase (db : Keyspace) (key other : String) (now : Nat) :
    read (db.erase key) now other = if other = key then none else db.read now other := by
  unfold read
  split_ifs with hkey
  · rw [hkey, AList.lookup_erase, Option.filter_none]
  · rw [AList.lookup_erase_ne hkey]

theorem read_eraseAll (db : Keyspace) (keys : List String) (key : String) (now : Nat) :
    read (db.eraseAll keys) now key = if key ∈ keys then none else db.read now key := by
  unfold read
  rw [AList.lookup_eraseAll]
  split_ifs
  · rfl
  · rfl

theorem read_insert (db : Keyspace) (key other : String) (slot : Slot) (now : Nat) :
    read (db.insert key slot) now other = if other = key then (some slot).filter (Slot.live now) else db.read now other := by
  unfold read
  split_ifs with hkey
  · rw [hkey, AList.lookup_insert]
  · rw [AList.lookup_insert_ne hkey]

/-- A new set of one member with an expiry, as two commands make it. -/
theorem sadd_pexpire (member : String) {ttl : Nat} (habsent : db.read now key = none) (httl : ttl ≠ 0) :
    ∃ db', db.sadd now key member = .ok db' ∧ ∀ time other, read (db'.pexpire now key ttl) time other =
      if other = key then (some ⟨.set [member], some (now + ttl)⟩).filter (Slot.live time) else db.read time other := by
  refine ⟨db.insert key ⟨.set [member], none⟩, by rw [sadd, habsent], fun time other => ?_⟩
  have hadded : read (db.insert key ⟨.set [member], none⟩) now key = some ⟨.set [member], none⟩ := by
    rw [read_insert, if_pos rfl]
    rfl
  rw [pexpire, hadded]
  dsimp only
  rw [if_neg httl, read_insert]
  split_ifs with hkey
  · rfl
  · rw [read_insert, if_neg hkey]

end Keyspace

end Redis
