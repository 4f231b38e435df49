import LongshipX.Lib.Redis
import LongshipX.Session.TokenStore

/-!
# The Redis session-token store

`RedisTokenStore` keeps `token:{token}` with the id of the player and `ptokens:{player}` with the player's tokens, both with
an expiry, in one key space. Its clock counts milliseconds; the history is the one of the in-memory store, in nanoseconds.

* `create`, `resolve`, `revokePlayer` : the commands and scripts; `run`;
* `Mirrors` : what is visible against the abstract store of grants; `Mirrors.removePlayer`, `Mirrors.insert`, `run_mirrors`;
* `stores_agree` : after every history both stores answer every `resolve` alike.
-/

namespace LongshipX.RedisTokenStore
open Session Redis

/-- What the drivers do: `Uuid::parse_str` with the text of its error, `Display for Uuid`, and the text of a Redis error. -/
structure Drivers where
  parseStr : String → Except String Uuid
  toText : Uuid → String
  redisText : Redis.Error → String

/-- `Duration::as_millis`, and the millisecond of an instant. -/
def millis (nanos : Nat) : Nat := nanos / 10 ^ 6

/-- `i64::MAX as u64 / 2`. -/
def maxTtl : Nat := (2 ^ 63 - 1) / 2

/-! ## The store -/

def tokenKey (token : String) : String := "token:" ++ token

section
variable (drivers : Drivers)

def playerIndexKey (player : PlayerId) : String := "ptokens:" ++ drivers.toText player.uuid

/-- `map_redis`. -/
def mapRedis (err : Redis.Error) : AppError := .storage ("Redis 命令失败: " ++ drivers.redisText err)

/-- What both scripts begin with: the tokens of the index are deleted, and the index. -/
def removeIndex (db : Keyspace) (now : Nat) (index : String) : Except Redis.Error Keyspace :=
  (db.smembers now index).map fun tokens => AList.erase index (db.eraseAll (tokens.map tokenKey))

/-- The script of `create`. -/
def createScript (db : Keyspace) (now : Nat) (index key playerText : String) (ttl : Nat) (token : String) :
    Except Redis.Error Unit × Keyspace :=
  match removeIndex db now index with
  | .error err => (.error err, db)
  | .ok db =>
    match db.sadd now index token with
    | .error err => (.error err, db)
    | .ok db => (.ok (), (db.pexpire now index ttl).setPx now key playerText ttl)

/-- `create`; `token` is what `random_token` drew. -/
def create (db : Keyspace) (player : PlayerId) (ttl : Nat) (token : String) (now : Nat) :
    Except AppError String × Keyspace :=
  if millis ttl ≤ maxTtl then
    match createScript db (millis now) (playerIndexKey drivers player) (tokenKey token) (drivers.toText player.uuid)
      (max (millis ttl) 1) token with
    | (.error err, db) => (.error (mapRedis drivers err), db)
    | (.ok (), db) => (.ok token, db)
  else (.error (.validation "token TTL 过大"), db)

/-- `resolve`. -/
def resolve (db : Keyspace) (token : String) (now : Nat) : Except AppError (Option PlayerId) :=
  match db.get (millis now) (tokenKey token) with
  | .error err => .error (mapRedis drivers err)
  | .ok none => .ok none
  | .ok (some raw) =>
    match drivers.parseStr raw with
    | .error err => .error (.internal ("token 存储数据损坏: " ++ err))
    | .ok uuid => .ok (some ⟨uuid⟩)

/-- `revoke_player`. -/
def revokePlayer (db : Keyspace) (player : PlayerId) (now : Nat) : Except AppError Unit × Keyspace :=
  match removeIndex db (millis now) (playerIndexKey drivers player) with
  | .error err => (.error (mapRedis drivers err), db)
  | .ok db => (.ok (), db)

/-- The store after one operation; only the in-memory store has `live_tokens`. -/
def step (db : Keyspace) (e : Event) : Keyspace :=
  match e.op with
  | .create player ttl token => (create drivers db player ttl token e.time).2
  | .resolve _ => db
  | .revokePlayer player => (revokePlayer drivers db player e.time).2
  | .liveTokens => db

def run (h : List Event) : Keyspace := h.foldl (step drivers) ∅

end

/-! ## Keys and times -/

theorem tokenKey_inj {token token' : String} : tokenKey token = tokenKey token' ↔ token = token' := by
  unfold tokenKey
  constructor
  · intro h
    have := congrArg String.toList h
    rw [String.toList_append, String.toList_append] at this
    exact String.toList_inj.mp (List.append_cancel_left this)
  · exact congrArg _

theorem tokenKey_ne_index (drivers : Drivers) (token : String) (player : PlayerId) :
    tokenKey token ≠ playerIndexKey drivers player := by
  intro h
  have := congrArg String.toList h
  rw [tokenKey, playerIndexKey, String.toList_append, String.toList_append] at this
  exact absurd (List.cons.inj this).1 (by decide)

theorem index_inj {drivers : Drivers} (hparse : ∀ uuid, drivers.parseStr (drivers.toText uuid) = .ok uuid)
    {player player' : PlayerId} (h : playerIndexKey drivers player = playerIndexKey drivers player') : player = player' := by
  unfold playerIndexKey at h
  have := congrArg String.toList h
  rw [String.toList_append, String.toList_append] at this
  have htext := String.toList_inj.mp (List.append_cancel_left this)
  have huuid := hparse player.uuid
  rw [htext, hparse] at huuid
  obtain ⟨uuid⟩ := player
  obtain ⟨uuid'⟩ := player'
  exact congrArg PlayerId.mk (Except.ok.inj huuid).symm

/-- The instant or the lifetime is a whole number of milliseconds. -/
def Whole (nanos : Nat) : Prop := 10 ^ 6 ∣ nanos

instance (nanos : Nat) : Decidable (Whole nanos) := inferInstanceAs (Decidable (10 ^ 6 ∣ nanos))

theorem millis_lt_iff {a b : Nat} (ha : Whole a) (hb : Whole b) : millis a < millis b ↔ a < b := by
  obtain ⟨m, rfl⟩ := ha
  obtain ⟨n, rfl⟩ := hb
  unfold millis
  rw [Nat.mul_div_cancel_left _ (by decide), Nat.mul_div_cancel_left _ (by decide)]
  omega

theorem millis_add {a b : Nat} (ha : Whole a) : millis (a + b) = millis a + millis b := by
  obtain ⟨m, rfl⟩ := ha
  unfold millis
  rw [Nat.mul_add_div (by decide), Nat.mul_div_cancel_left _ (by decide)]

theorem millis_pos {nanos : Nat} (h : Whole nanos) (hpos : 0 < nanos) : 0 < millis nanos := by
  have hzero : Whole 0 := Nat.dvd_zero _
  have := (millis_lt_iff hzero h).mpr hpos
  rwa [millis, Nat.zero_div] at this

/-! ## The key space and the grants -/

/-- The grant has not expired. -/
def lasts (now : Nat) (grant : Grant) : Bool := decide (now < grant.deadline)

/-- What is stored under the token of a grant. -/
def tokenSlot (drivers : Drivers) (player : PlayerId) (deadline : Nat) : Slot :=
  ⟨.string (drivers.toText player.uuid), some (millis deadline)⟩

/-- What is stored under the index of its player. -/
def indexSlot (grant : Grant) : Slot := ⟨.set [grant.token], some (millis grant.deadline)⟩

/-- **What is visible at `now`**: under a token its player while the grant lasts, under an index the token of that grant. -/
structure Mirrors (drivers : Drivers) (db : Keyspace) (g : PlayerId → Option Grant) (now : Nat) : Prop where
  whole : ∀ p grant, g p = some grant → Whole grant.deadline
  sound : ∀ t slot, db.read (millis now) (tokenKey t) = some slot →
    ∃ p deadline, g p = some ⟨t, deadline⟩ ∧ now < deadline ∧ slot = tokenSlot drivers p deadline
  complete : ∀ p t deadline, g p = some ⟨t, deadline⟩ → now < deadline →
    db.read (millis now) (tokenKey t) = some (tokenSlot drivers p deadline)
  index : ∀ p, db.read (millis now) (playerIndexKey drivers p) = ((g p).filter (lasts now)).map indexSlot

section
variable {drivers : Drivers} {db : Keyspace} {g : PlayerId → Option Grant} {now time : Nat}

theorem mirrors_empty (now : Nat) : Mirrors drivers ∅ (fun _ => none) now where
  whole _ _ h := nomatch h
  sound _ _ h := nomatch h
  complete _ _ _ h := nomatch h
  index _ := rfl

theorem Mirrors.later (h : Mirrors drivers db g now) (htime : Whole time) (hle : now ≤ time) :
    Mirrors drivers db g time := by
  have hmillis : millis now ≤ millis time := Nat.div_le_div_right hle
  refine ⟨h.whole, fun t slot hread => ?_, fun p t deadline hg hlt => ?_, fun p => ?_⟩
  · rw [Keyspace.read_later db hmillis] at hread
    obtain ⟨hread, hlive⟩ := Option.filter_eq_some_iff.mp hread
    obtain ⟨p, deadline, hg, -, rfl⟩ := h.sound t slot hread
    exact ⟨p, deadline, hg, (millis_lt_iff htime (h.whole p _ hg)).mp (of_decide_eq_true hlive), rfl⟩
  · rw [Keyspace.read_later db hmillis, h.complete p t deadline hg (by omega)]
    exact Option.filter_eq_some_iff.mpr ⟨rfl, decide_eq_true ((millis_lt_iff htime (h.whole p _ hg)).mpr hlt)⟩
  · rw [Keyspace.read_later db hmillis, h.index]
    cases hg : g p with
    | none => rfl
    | some grant =>
        have hiff := millis_lt_iff htime (h.whole p grant hg)
        by_cases hlt : time < grant.deadline
        · have hnow : now < grant.deadline := by omega
          simp [Option.filter_some, lasts, hlt, hnow, indexSlot, Slot.live, hiff.mpr hlt]
        · have hgone : ¬ millis time < millis grant.deadline := fun hm => hlt (hiff.mp hm)
          by_cases hnow : now < grant.deadline
          · simp [Option.filter_some, lasts, hlt, hnow, indexSlot, Slot.live, hgone]
          · simp [Option.filter_some, lasts, hlt, hnow]

theorem Mirrors.removePlayer (h : Mirrors drivers db g now) (hparse : ∀ uuid, drivers.parseStr (drivers.toText uuid) = .ok uuid)
    (hdistinct : ∀ p q a b, g p = some a → g q = some b → a.token = b.token → p = q) (player : PlayerId) :
    ∃ db', removeIndex db (millis now) (playerIndexKey drivers player) = .ok db' ∧
      Mirrors drivers db' (Function.update g player none) now := by
  let old := (((g player).filter (lasts now)).map Grant.token).toList
  have hmembers : db.smembers (millis now) (playerIndexKey drivers player) = .ok old := by
    rw [Keyspace.smembers, h.index]
    cases hgrant : (g player).filter (lasts now) with
    | none => simp [old, hgrant]
    | some grant => simp [old, hgrant, indexSlot]
  have hold : ∀ t, t ∈ old ↔ ∃ deadline, g player = some ⟨t, deadline⟩ ∧ now < deadline := by
    intro t
    simp only [old, Option.mem_toList, Option.map_eq_some_iff, Option.filter_eq_some_iff]
    constructor
    · rintro ⟨⟨t, deadline⟩, ⟨hg, hlast⟩, rfl⟩
      exact ⟨deadline, hg, of_decide_eq_true hlast⟩
    · rintro ⟨deadline, hg, hlt⟩
      exact ⟨⟨t, deadline⟩, ⟨hg, decide_eq_true hlt⟩, rfl⟩
  refine ⟨_, by rw [removeIndex, hmembers]; rfl, ?_⟩
  have htoken : ∀ t, Keyspace.read (AList.erase (playerIndexKey drivers player) (db.eraseAll (old.map tokenKey)))
      (millis now) (tokenKey t) = if t ∈ old then none else db.read (millis now) (tokenKey t) := by
    intro t
    rw [Keyspace.read_erase, if_neg (tokenKey_ne_index drivers t player), Keyspace.read_eraseAll]
    simp only [List.mem_map, tokenKey_inj, exists_eq_right]
  have hindex : ∀ p, Keyspace.read (AList.erase (playerIndexKey drivers player) (db.eraseAll (old.map tokenKey)))
      (millis now) (playerIndexKey drivers p) = if p = player then none else db.read (millis now) (playerIndexKey drivers p) := by
    intro p
    rw [Keyspace.read_erase, Keyspace.read_eraseAll]
    have hother : playerIndexKey drivers p ∉ old.map tokenKey := by
      intro hmem
      obtain ⟨t, -, hkey⟩ := List.mem_map.mp hmem
      exact tokenKey_ne_index drivers t p hkey
    rw [if_neg hother]
    by_cases hp : p = player
    · rw [if_pos hp, if_pos (by rw [hp])]
    · rw [if_neg hp, if_neg fun hkey => hp (index_inj hparse hkey)]
  have hkeep : ∀ p grant, Function.update g player none p = some grant → p ≠ player ∧ g p = some grant := by
    intro p grant hg
    by_cases hp : p = player
    · rw [hp, Function.update_self] at hg
      cases hg
    · rw [Function.update_of_ne hp] at hg
      exact ⟨hp, hg⟩
  refine ⟨fun p grant hg => h.whole p grant (hkeep p grant hg).2, fun t slot hread => ?_, fun p t deadline hg hlt => ?_,
    fun p => ?_⟩
  · rw [htoken] at hread
    split_ifs at hread with hmem
    obtain ⟨p, deadline, hg, hlt, rfl⟩ := h.sound t slot hread
    have hp : p ≠ player := by
      rintro rfl
      exact hmem ((hold t).mpr ⟨deadline, hg, hlt⟩)
    exact ⟨p, deadline, by rw [Function.update_of_ne hp]; exact hg, hlt, rfl⟩
  · obtain ⟨hp, hg⟩ := hkeep p _ hg
    rw [htoken, if_neg, h.complete p t deadline hg hlt]
    intro hmem
    obtain ⟨deadline', hg', -⟩ := (hold t).mp hmem
    exact hp (hdistinct p player _ _ hg hg' rfl)
  · rw [hindex]
    split_ifs with hp
    · rw [hp, Function.update_self]
      rfl
    · rw [Function.update_of_ne hp, h.index]

theorem Mirrors.insert (h : Mirrors drivers db g now) (hparse : ∀ uuid, drivers.parseStr (drivers.toText uuid) = .ok uuid)
    {player : PlayerId} (hnone : g player = none) {token : String} (hfresh : ∀ p grant, g p = some grant → grant.token ≠ token)
    {ttl : Nat} (hnow : Whole now) (httl : Whole ttl) (hpos : 0 < ttl) :
    ∃ db', db.sadd (millis now) (playerIndexKey drivers player) token = .ok db' ∧
      Mirrors drivers ((db'.pexpire (millis now) (playerIndexKey drivers player) (millis ttl)).setPx (millis now)
        (tokenKey token) (drivers.toText player.uuid) (millis ttl))
        (Function.update g player (some ⟨token, now + ttl⟩)) now := by
  have habsent : db.read (millis now) (playerIndexKey drivers player) = none := by
    rw [h.index, hnone]
    rfl
  have hmillis := millis_pos httl hpos
  obtain ⟨db', hadd, hread⟩ := Keyspace.sadd_pexpire token habsent hmillis.ne'
  refine ⟨db', hadd, ?_⟩
  have hlast : now < now + ttl := Nat.lt_add_of_pos_right hpos
  have hlive : ∀ value, (some (⟨value, some (millis now + millis ttl)⟩ : Slot)).filter (Slot.live (millis now)) =
      some ⟨value, some (millis (now + ttl))⟩ := by
    intro value
    rw [millis_add hnow]
    exact Option.filter_eq_some_iff.mpr ⟨rfl, decide_eq_true (Nat.lt_add_of_pos_right hmillis)⟩
  have hcases : ∀ p grant, Function.update g player (some ⟨token, now + ttl⟩) p = some grant →
      p = player ∧ grant = ⟨token, now + ttl⟩ ∨ p ≠ player ∧ g p = some grant := by
    intro p grant hg
    by_cases hp : p = player
    · rw [hp, Function.update_self] at hg
      exact Or.inl ⟨hp, (Option.some.inj hg).symm⟩
    · rw [Function.update_of_ne hp] at hg
      exact Or.inr ⟨hp, hg⟩
  refine ⟨fun p grant hg => ?_, fun t slot hslot => ?_, fun p t deadline hg hlt => ?_, fun p => ?_⟩
  · rcases hcases p grant hg with ⟨-, rfl⟩ | ⟨-, hg⟩
    · exact Nat.dvd_add hnow httl
    · exact h.whole p grant hg
  · rw [Keyspace.setPx, Keyspace.read_insert, hread] at hslot
    by_cases ht : t = token
    · rw [if_pos (tokenKey_inj.mpr ht), hlive] at hslot
      obtain rfl := Option.some.inj hslot
      exact ⟨player, now + ttl, by rw [Function.update_self, ht], hlast, rfl⟩
    · rw [if_neg (fun hkey => ht (tokenKey_inj.mp hkey)), if_neg (tokenKey_ne_index drivers t player)] at hslot
      obtain ⟨p, deadline, hg, hlt, rfl⟩ := h.sound t slot hslot
      have hp : p ≠ player := by
        rintro rfl
        rw [hnone] at hg
        cases hg
      exact ⟨p, deadline, by rw [Function.update_of_ne hp, hg], hlt, rfl⟩
  · rw [Keyspace.setPx, Keyspace.read_insert, hread]
    rcases hcases p _ hg with ⟨rfl, hgrant⟩ | ⟨hp, hg⟩
    · obtain ⟨rfl, rfl⟩ := Grant.mk.inj hgrant
      rw [if_pos rfl, hlive]
      rfl
    · have ht : t ≠ token := hfresh p _ hg
      rw [if_neg (fun hkey => ht (tokenKey_inj.mp hkey)), if_neg (tokenKey_ne_index drivers t player)]
      exact h.complete p t deadline hg hlt
  · rw [Keyspace.setPx, Keyspace.read_insert, hread, if_neg (tokenKey_ne_index drivers token p).symm]
    by_cases hp : p = player
    · have hgrant : lasts now ⟨token, now + ttl⟩ = true := decide_eq_true hlast
      rw [hp, if_pos rfl, hlive, Function.update_self, Option.filter_some, if_pos hgrant]
      rfl
    · rw [if_neg (fun hkey => hp (index_inj hparse hkey)), Function.update_of_ne hp]
      exact h.index p

theorem Mirrors.create (h : Mirrors drivers db g now) (hparse : ∀ uuid, drivers.parseStr (drivers.toText uuid) = .ok uuid)
    (hdistinct : ∀ p q a b, g p = some a → g q = some b → a.token = b.token → p = q) (player : PlayerId) {token : String}
    (hfresh : ∀ p grant, g p = some grant → grant.token ≠ token) {ttl : Nat} (hnow : Whole now) (httl : Whole ttl)
    (hpos : 0 < ttl) (hmax : millis ttl ≤ maxTtl) :
    Mirrors drivers (RedisTokenStore.create drivers db player ttl token now).2
      (Function.update g player (some ⟨token, now + ttl⟩)) now := by
  obtain ⟨removed, hremove, hmirrors⟩ := h.removePlayer hparse hdistinct player
  have hfresh' : ∀ p grant, Function.update g player none p = some grant → grant.token ≠ token := by
    intro p grant hg
    by_cases hp : p = player
    · rw [hp, Function.update_self] at hg
      cases hg
    · rw [Function.update_of_ne hp] at hg
      exact hfresh p grant hg
  obtain ⟨added, hadd, hinsert⟩ := hmirrors.insert hparse (Function.update_self ..) hfresh' hnow httl hpos
  have hmillis : max (millis ttl) 1 = millis ttl := Nat.max_eq_left (millis_pos httl hpos)
  rw [Function.update_idem] at hinsert
  unfold RedisTokenStore.create createScript
  rw [if_pos hmax, hremove, hmillis]
  dsimp only
  rw [hadd]
  exact hinsert

theorem Mirrors.resolve (h : Mirrors drivers db g now) (hparse : ∀ uuid, drivers.parseStr (drivers.toText uuid) = .ok uuid)
    (token : String) : ∃ answer, RedisTokenStore.resolve drivers db token now = .ok answer ∧
      ∀ p, answer = some p ↔ ∃ deadline, g p = some ⟨token, deadline⟩ ∧ now < deadline := by
  unfold RedisTokenStore.resolve Keyspace.get
  cases hread : db.read (millis now) (tokenKey token) with
  | none =>
      refine ⟨none, rfl, fun p => iff_of_false (by simp) ?_⟩
      rintro ⟨deadline, hg, hlt⟩
      rw [h.complete p token deadline hg hlt] at hread
      cases hread
  | some slot =>
      obtain ⟨owner, deadline, hg, hlt, rfl⟩ := h.sound token slot hread
      refine ⟨some owner, by simp [tokenSlot, hparse], fun p => ?_⟩
      constructor
      · intro hp
        obtain rfl := Option.some.inj hp
        exact ⟨deadline, hg, hlt⟩
      · rintro ⟨deadline', hg', hlt'⟩
        rw [h.complete p token deadline' hg' hlt'] at hread
        have htext : drivers.toText p.uuid = drivers.toText owner.uuid :=
          Value.string.inj (Slot.mk.inj (Option.some.inj hread)).1
        have huuid := hparse p.uuid
        rw [htext, hparse] at huuid
        exact congrArg (fun uuid => some (PlayerId.mk uuid)) (Except.ok.inj huuid)

end

/-! ## Histories -/

/-- The event happens on a whole millisecond; a create has a lifetime of whole milliseconds, at least one, that both stores
accept. -/
def Event.Accepted (instantMax : Nat) (e : Event) : Prop :=
  Whole e.time ∧ ∀ player ttl token, e.op = .create player ttl token →
    Whole ttl ∧ 0 < ttl ∧ e.time + ttl ≤ instantMax ∧ millis ttl ≤ maxTtl

section
variable {drivers : Drivers} {instantMax now : Nat} {h : List Event}

theorem run_concat (drivers : Drivers) (h : List Event) (e : Event) :
    run drivers (h ++ [e]) = step drivers (run drivers h) e := by
  simp only [run, List.foldl_append, List.foldl_cons, List.foldl_nil]

/-- **The key space mirrors the grants** after every history. -/
theorem run_mirrors (hparse : ∀ uuid, drivers.parseStr (drivers.toText uuid) = .ok uuid) (hclock : Clock h now)
    (hfresh : (h.filterMap (Event.returned instantMax)).Nodup) (haccepted : ∀ e ∈ h, Event.Accepted instantMax e)
    (hnow : Whole now) : Mirrors drivers (run drivers h) (grants instantMax h) now := by
  induction h using List.reverseRecOn generalizing now with
  | nil => exact mirrors_empty now
  | append_singleton h e ih =>
      obtain ⟨hpast, hle⟩ := hclock.concat
      obtain ⟨htime, hcreate⟩ := haccepted e (List.mem_append_right _ (List.mem_singleton_self e))
      rw [List.filterMap_append, List.nodup_append] at hfresh
      obtain ⟨hnodup, -, hdisjoint⟩ := hfresh
      have hbefore := ih hpast hnodup (fun e' he' => haccepted e' (List.mem_append_left _ he')) htime
      have hrefines := run_refines hpast hnodup
      rw [run_concat, grants_concat]
      refine Mirrors.later ?_ hnow hle
      obtain ⟨time, op⟩ := e
      cases op with
      | create player ttl token =>
          obtain ⟨httl, hpos, hfits, hmax⟩ := hcreate player ttl token rfl
          have hnew : ∀ p grant, grants instantMax h p = some grant → grant.token ≠ token := by
            intro p grant hg heq
            have hissued := hrefines.issued p grant hg
            rw [heq, issuedBy, List.mem_reverse] at hissued
            exact hdisjoint token hissued token (by simp [Event.returned, hfits]) rfl
          simp only [step, grantStep, if_pos hfits]
          exact hbefore.create hparse hrefines.distinct player hnew htime httl hpos hmax
      | resolve token => exact hbefore
      | revokePlayer player =>
          obtain ⟨removed, hremove, hmirrors⟩ := hbefore.removePlayer hparse hrefines.distinct player
          simp only [step, revokePlayer, hremove]
          exact hmirrors
      | liveTokens => exact hbefore

/-- **The Redis and the in-memory token stores are observationally equal.** Whatever the drivers print, as long as parsing a
printed id gives it back: for every history on a clock that never goes back, with tokens that never repeat and lifetimes that
both stores accept, every `resolve` of the history, with whatever token, is answered alike by both. -/
theorem stores_agree (hparse : ∀ uuid, drivers.parseStr (drivers.toText uuid) = .ok uuid)
    (hclock : (h.map Event.time).Pairwise (· ≤ ·)) (hfresh : (h.filterMap (Event.returned instantMax)).Nodup)
    (haccepted : ∀ e ∈ h, Event.Accepted instantMax e) (pre post : List Event) (time : Nat) (token : String)
    (hsplit : h = pre ++ ⟨time, .resolve token⟩ :: post) :
    resolve drivers (run drivers pre) token time = (Session.run instantMax pre).resolve token time := by
  subst hsplit
  have hpast : Clock pre time := by
    rw [List.map_append, List.map_cons] at hclock
    exact hclock.sublist ((List.singleton_sublist.mpr List.mem_cons_self).append_left _)
  have hpre : (pre.filterMap (Event.returned instantMax)).Nodup := by
    rw [List.filterMap_append, List.nodup_append] at hfresh
    exact hfresh.1
  have hmillis : Whole time := (haccepted ⟨time, .resolve token⟩ (by simp)).1
  have hmirrors : Mirrors drivers (run drivers pre) (grants instantMax pre) time :=
    run_mirrors hparse hpast hpre (fun e he => haccepted e (List.mem_append_left _ he)) hmillis
  obtain ⟨answer, hanswer, hredis⟩ := hmirrors.resolve hparse token
  have hmemory : ∀ p, (Session.run instantMax pre).resolve token time = .ok (some p) ↔ _ := fun p =>
    resolve_run_iff hpast hpre
  rw [hanswer]
  unfold State.resolve at hmemory ⊢
  simp only [Except.ok.injEq] at hmemory ⊢
  exact Option.ext fun p => (hredis p).trans (hmemory p).symm

end

/-! ### A replaced token -/

/-- The text of player 1, and for the rest of the ids any text that can be read back. -/
def somePrinter : Drivers where
  parseStr text :=
    if text = "00000000-0000-0000-0000-000000000001" then .ok 1 else .ok (BitVec.ofNat 128 text.toList.length)
  toText uuid :=
    if uuid = 1 then "00000000-0000-0000-0000-000000000001" else String.ofList (List.replicate uuid.toNat 'x')
  redisText _ := "WRONGTYPE"

theorem somePrinter_parse (uuid : Uuid) : somePrinter.parseStr (somePrinter.toText uuid) = .ok uuid := by
  by_cases hone : uuid = 1
  · rw [hone]
    decide
  · have hother : String.ofList (List.replicate uuid.toNat 'x') ≠ "00000000-0000-0000-0000-000000000001" := by
      intro h
      have hlist := congrArg String.toList h
      rw [String.toList_ofList] at hlist
      cases hlength : uuid.toNat with
      | zero =>
          rw [hlength] at hlist
          exact absurd hlist (by decide)
      | succ n =>
          rw [hlength, List.replicate_succ] at hlist
          exact absurd (List.cons.inj hlist).1 (by decide)
    simp only [somePrinter, if_neg hone, if_neg hother, String.toList_ofList, List.length_replicate, BitVec.ofNat_toNat,
      BitVec.setWidth_eq]

/-- Two creates for player 1 and a look at both tokens. -/
def replaced : List Event :=
  [⟨0, .create ⟨1⟩ 60000000 "a"⟩, ⟨5000000, .create ⟨1⟩ 60000000 "b"⟩, ⟨7000000, .resolve "a"⟩, ⟨7000000, .resolve "b"⟩]

theorem stores_agree_replaced : resolve somePrinter (run somePrinter (replaced.take 3)) "b" 7000000 =
    (Session.run (10 ^ 9) (replaced.take 3)).resolve "b" 7000000 := by
  refine stores_agree (h := replaced) somePrinter_parse (by decide) (by decide) ?_ _ [] 7000000 "b" rfl
  intro e he
  simp only [replaced, List.mem_cons, List.not_mem_nil, or_false] at he
  rcases he with rfl | rfl | rfl | rfl
  all_goals
    refine ⟨by decide, ?_⟩
    rintro player ttl token ⟨⟩
  all_goals exact ⟨by decide, by decide, by decide, by decide⟩


end LongshipX.RedisTokenStore
