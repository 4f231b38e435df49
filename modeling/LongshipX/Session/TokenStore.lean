import LongshipX.Domain.Types
import LongshipX.Lib.AssocMap

/-!
# The in-memory session-token store

`InMemoryTokenStore` keeps two indexes: `byToken` answers `resolve`, `byPlayer` tells `create` and
`revokePlayer` what to remove. Only `byToken` is pruned by `liveTokens`, so the two drift apart.

* `Grant`, `grants` : the abstract store, one grant at most for each player, no index at all;
* `Refines` : the two indexes against the grants; `step_refines`, `run_refines`;
* `resolve_run_iff` : `resolve` after a history reads the grants;
* `grants_eq_some_iff` : the grants against the history itself.
-/

namespace LongshipX.Session

/-! ## The store -/

/-- `Entry`; an `Instant` is a number of nanoseconds. -/
structure Entry where
  playerId : PlayerId
  expiresAt : Nat
  deriving DecidableEq, Repr

/-- `State`. -/
structure State where
  byToken : AList (fun _ : String => Entry)
  byPlayer : AList (fun _ : PlayerId => List String)

/-- `InMemoryTokenStore::new`. -/
def State.new : State := ⟨∅, ∅⟩

/-- The common part of `create` and `revoke_player`: drop the tokens filed under the player. -/
def State.removePlayer (s : State) (player : PlayerId) : State :=
  match s.byPlayer.lookup player with
  | some tokens => ⟨s.byToken.eraseAll tokens, s.byPlayer.erase player⟩
  | none => s

/-- `create`; `token` is what `random_token` drew and `instantMax` the last instant the clock can represent. -/
def State.create (instantMax : Nat) (s : State) (player : PlayerId) (ttl : Nat) (token : String) (now : Nat) :
    Except AppError String × State :=
  if now + ttl ≤ instantMax then
    let s := s.removePlayer player
    let tokens := (s.byPlayer.lookup player).getD [] ++ [token]
    (.ok token, ⟨s.byToken.insert token ⟨player, now + ttl⟩, s.byPlayer.insert player tokens⟩)
  else (.error (.validation "token TTL 过大"), s)

/-- `resolve`. -/
def State.resolve (s : State) (token : String) (now : Nat) : Except AppError (Option PlayerId) :=
  .ok (((s.byToken.lookup token).filter (fun entry => decide (entry.expiresAt > now))).map Entry.playerId)

/-- `revoke_player`. -/
def State.revokePlayer (s : State) (player : PlayerId) : Except AppError Unit × State :=
  (.ok (), s.removePlayer player)

/-- `live_tokens`. -/
def State.liveTokens (s : State) (now : Nat) : Nat × State :=
  let byToken := s.byToken.retain (fun _ entry => decide (entry.expiresAt > now))
  (byToken.keys.length, { s with byToken := byToken })

/-! ## Histories -/

inductive Op where
  | create (player : PlayerId) (ttl : Nat) (token : String)
  | resolve (token : String)
  | revokePlayer (player : PlayerId)
  | liveTokens
  deriving DecidableEq, Repr

/-- One operation and the instant it reads from the clock. -/
structure Event where
  time : Nat
  op : Op
  deriving DecidableEq, Repr

def step (instantMax : Nat) (s : State) (e : Event) : State :=
  match e.op with
  | .create player ttl token => (s.create instantMax player ttl token e.time).2
  | .resolve _ => s
  | .revokePlayer player => (s.revokePlayer player).2
  | .liveTokens => (s.liveTokens e.time).2

def run (instantMax : Nat) (h : List Event) : State := h.foldl (step instantMax) .new

/-- The create was answered `Ok`: its deadline is an instant the clock can represent. -/
def Event.CreatesFor (instantMax : Nat) (player : PlayerId) (e : Event) : Prop :=
  ∃ ttl token, e.op = .create player ttl token ∧ e.time + ttl ≤ instantMax

/-- The event neither grants the player a token nor revokes it. -/
def Event.Quiet (instantMax : Nat) (player : PlayerId) (e : Event) : Prop :=
  ¬ e.CreatesFor instantMax player ∧ e.op ≠ .revokePlayer player

/-- The token a history's event returned. -/
def Event.returned (instantMax : Nat) (e : Event) : Option String :=
  match e.op with
  | .create _ ttl token => if e.time + ttl ≤ instantMax then some token else none
  | _ => none

/-- **The latest grant**: `token` is what the player's most recent successful create returned, with this
deadline, and the player was not revoked since. -/
def LatestGrant (instantMax : Nat) (h : List Event) (player : PlayerId) (token : String) (deadline : Nat) : Prop :=
  ∃ pre time ttl post, h = pre ++ ⟨time, .create player ttl token⟩ :: post ∧ time + ttl ≤ instantMax ∧
    deadline = time + ttl ∧ ∀ e ∈ post, e.Quiet instantMax player

/-! ## The abstract store -/

structure Grant where
  token : String
  deadline : Nat
  deriving DecidableEq, Repr

/-- One step of the abstract store: a create replaces the player's grant, a revocation removes it. -/
def grantStep (instantMax : Nat) (g : PlayerId → Option Grant) (e : Event) : PlayerId → Option Grant :=
  match e.op with
  | .create player ttl token =>
    if e.time + ttl ≤ instantMax then Function.update g player (some ⟨token, e.time + ttl⟩) else g
  | .revokePlayer player => Function.update g player none
  | .resolve _ => g
  | .liveTokens => g

def grants (instantMax : Nat) (h : List Event) : PlayerId → Option Grant :=
  h.foldl (grantStep instantMax) (fun _ => none)

variable {instantMax : Nat}

theorem run_concat (h : List Event) (e : Event) : run instantMax (h ++ [e]) = step instantMax (run instantMax h) e := by
  simp only [run, List.foldl_append, List.foldl_cons, List.foldl_nil]

theorem grants_concat (h : List Event) (e : Event) :
    grants instantMax (h ++ [e]) = grantStep instantMax (grants instantMax h) e := by
  simp only [grants, List.foldl_append, List.foldl_cons, List.foldl_nil]

/-- The indexes against the grants, at time `now` and after `issued` was returned. -/
structure Refines (s : State) (g : PlayerId → Option Grant) (issued : List String) (now : Nat) : Prop where
  byPlayer : ∀ p, s.byPlayer.lookup p = (g p).map (fun grant => [grant.token])
  sound : ∀ t e, s.byToken.lookup t = some e → g e.playerId = some ⟨t, e.expiresAt⟩
  complete : ∀ p grant, g p = some grant → now < grant.deadline →
    s.byToken.lookup grant.token = some ⟨p, grant.deadline⟩
  issued : ∀ p grant, g p = some grant → grant.token ∈ issued
  distinct : ∀ p q a b, g p = some a → g q = some b → a.token = b.token → p = q

theorem refines_new (now : Nat) : Refines .new (fun _ => none) [] now where
  byPlayer p := rfl
  sound t e h := by simp [State.new] at h
  complete p grant h := by cases h
  issued p grant h := by cases h
  distinct p q a b h := by cases h

theorem Refines.later {s : State} {g : PlayerId → Option Grant} {issued : List String} {now later : Nat}
    (h : Refines s g issued now) (hle : now ≤ later) : Refines s g issued later :=
  { h with complete := fun p grant hg hlt => h.complete p grant hg (by omega) }

theorem Refines.removePlayer {s : State} {g : PlayerId → Option Grant} {issued : List String} {now : Nat}
    (h : Refines s g issued now) (player : PlayerId) :
    Refines (s.removePlayer player) (Function.update g player none) issued now := by
  have hkeep : ∀ p grant, Function.update g player none p = some grant → p ≠ player ∧ g p = some grant := by
    intro p grant hg
    by_cases hp : p = player
    · subst hp
      rw [Function.update_self] at hg
      cases hg
    · rw [Function.update_of_ne hp] at hg
      exact ⟨hp, hg⟩
  have hfiled := h.byPlayer player
  unfold State.removePlayer
  cases hgrant : g player with
  | none =>
      rw [hgrant, Option.map_none] at hfiled
      have hsame : Function.update g player none = g := by
        rw [← hgrant]
        exact Function.update_eq_self player g
      rw [hfiled, hsame]
      exact h
  | some old =>
      rw [hgrant, Option.map_some] at hfiled
      rw [hfiled]
      refine ⟨fun p => ?_, fun t e ht => ?_, fun p grant hg hlt => ?_, fun p grant hg => ?_,
        fun p q a b hp hq hab => ?_⟩
      · by_cases hp : p = player
        · subst hp
          rw [Function.update_self, Option.map_none]
          exact AList.lookup_erase _ _
        · rw [Function.update_of_ne hp]
          exact (AList.lookup_erase_ne hp).trans (h.byPlayer p)
      · rw [AList.lookup_eraseAll] at ht
        split_ifs at ht with hold
        have hsound := h.sound t e ht
        have hne : e.playerId ≠ player := by
          intro he
          rw [he, hgrant] at hsound
          exact hold (by rw [Option.some.inj hsound]; exact List.mem_singleton_self t)
        rw [Function.update_of_ne hne]
        exact hsound
      · obtain ⟨hne, hg⟩ := hkeep p grant hg
        have hother : grant.token ∉ [old.token] := fun hmem =>
          hne (h.distinct p player grant old hg hgrant (List.mem_singleton.mp hmem))
        rw [AList.lookup_eraseAll, if_neg hother]
        exact h.complete p grant hg hlt
      · exact h.issued p grant (hkeep p grant hg).2
      · exact h.distinct p q a b (hkeep p a hp).2 (hkeep q b hq).2 hab

theorem Refines.insert {s : State} {g : PlayerId → Option Grant} {issued : List String} {now : Nat}
    (h : Refines s g issued now) {player : PlayerId} (hnone : g player = none) {token : String}
    (hfresh : token ∉ issued) (deadline : Nat) :
    Refines ⟨s.byToken.insert token ⟨player, deadline⟩,
        s.byPlayer.insert player ((s.byPlayer.lookup player).getD [] ++ [token])⟩
      (Function.update g player (some ⟨token, deadline⟩)) (token :: issued) now := by
  have hother : ∀ p grant, Function.update g player (some ⟨token, deadline⟩) p = some grant →
      (p = player ∧ grant = ⟨token, deadline⟩) ∨ (p ≠ player ∧ g p = some grant ∧ grant.token ≠ token) := by
    intro p grant hg
    by_cases hp : p = player
    · subst hp
      rw [Function.update_self] at hg
      exact Or.inl ⟨rfl, (Option.some.inj hg).symm⟩
    · rw [Function.update_of_ne hp] at hg
      exact Or.inr ⟨hp, hg, fun he => hfresh (he ▸ h.issued p grant hg)⟩
  have hempty : s.byPlayer.lookup player = none := by rw [h.byPlayer, hnone, Option.map_none]
  refine ⟨fun p => ?_, fun t e ht => ?_, fun p grant hg hlt => ?_, fun p grant hg => ?_,
    fun p q a b hp hq hab => ?_⟩
  · by_cases hp : p = player
    · subst hp
      rw [Function.update_self, hempty, Option.getD_none, List.nil_append]
      exact AList.lookup_insert _
    · rw [Function.update_of_ne hp]
      exact (AList.lookup_insert_ne hp).trans (h.byPlayer p)
  · by_cases htoken : t = token
    · subst htoken
      rw [AList.lookup_insert] at ht
      obtain rfl := Option.some.inj ht
      rw [Function.update_self]
    · rw [AList.lookup_insert_ne htoken] at ht
      have hsound := h.sound t e ht
      have hne : e.playerId ≠ player := by
        intro he
        rw [he, hnone] at hsound
        cases hsound
      rw [Function.update_of_ne hne]
      exact hsound
  · rcases hother p grant hg with ⟨rfl, rfl⟩ | ⟨-, hg, hne⟩
    · exact AList.lookup_insert _
    · exact (AList.lookup_insert_ne hne).trans (h.complete p grant hg hlt)
  · rcases hother p grant hg with ⟨-, rfl⟩ | ⟨-, hg, -⟩
    · exact List.mem_cons_self
    · exact List.mem_cons_of_mem _ (h.issued p grant hg)
  · rcases hother p a hp with ⟨rfl, rfl⟩ | ⟨-, hp, hpne⟩ <;> rcases hother q b hq with ⟨rfl, rfl⟩ | ⟨-, hq, hqne⟩
    · rfl
    · exact absurd hab.symm hqne
    · exact absurd hab hpne
    · exact h.distinct p q a b hp hq hab

theorem Refines.liveTokens {s : State} {g : PlayerId → Option Grant} {issued : List String} {now : Nat}
    (h : Refines s g issued now) : Refines (s.liveTokens now).2 g issued now := by
  refine { h with sound := fun t e ht => ?_, complete := fun p grant hg hlt => ?_ }
  · rw [State.liveTokens, AList.lookup_retain, Option.filter_eq_some_iff] at ht
    exact h.sound t e ht.1
  · rw [State.liveTokens, AList.lookup_retain, Option.filter_eq_some_iff]
    exact ⟨h.complete p grant hg hlt, decide_eq_true hlt⟩

theorem create_token {s s' : State} {player : PlayerId} {ttl time : Nat} {token returned : String}
    (h : s.create instantMax player ttl token time = (.ok returned, s')) : returned = token := by
  unfold State.create at h
  split_ifs at h
  · exact (Except.ok.inj (Prod.mk.inj h).1).symm
  · cases (Prod.mk.inj h).1

theorem create_of_fits (s : State) (player : PlayerId) {ttl time : Nat} (token : String) (hfits : time + ttl ≤ instantMax) :
    ∃ s', s.create instantMax player ttl token time = (.ok token, s') := ⟨_, if_pos hfits⟩

/-- A create that was answered `Ok` replaces the player's grant in the abstract store. -/
theorem Refines.create {s s' : State} {g : PlayerId → Option Grant} {issued : List String} {now : Nat}
    (h : Refines s g issued now) {player : PlayerId} {ttl time : Nat} {token returned : String} (hfresh : token ∉ issued)
    (hok : s.create instantMax player ttl token time = (.ok returned, s')) :
    Refines s' (Function.update g player (some ⟨token, time + ttl⟩)) (token :: issued) now := by
  unfold State.create at hok
  split_ifs at hok
  · obtain ⟨-, rfl⟩ := Prod.mk.inj hok
    have hinsert := (h.removePlayer player).insert (Function.update_self ..) hfresh (time + ttl)
    rw [Function.update_idem] at hinsert
    exact hinsert
  · cases (Prod.mk.inj hok).1

/-- **One operation refines one abstract step.** -/
theorem step_refines {s : State} {g : PlayerId → Option Grant} {issued : List String} {e : Event}
    (h : Refines s g issued e.time) (hfresh : ∀ t, e.returned instantMax = some t → t ∉ issued) :
    Refines (step instantMax s e) (grantStep instantMax g e) ((e.returned instantMax).toList ++ issued) e.time := by
  obtain ⟨time, op⟩ := e
  cases op with
  | create player ttl token =>
      simp only [step, grantStep, State.create, Event.returned] at hfresh ⊢
      split_ifs with hfits
      · rw [if_pos hfits] at hfresh
        have hcreate : s.create instantMax player ttl token time = (.ok token, _) := if_pos hfits
        exact h.create (hfresh token rfl) hcreate
      · exact h
  | resolve token => exact h
  | revokePlayer player => exact h.removePlayer player
  | liveTokens => exact h.liveTokens

/-- The tokens a history returned, latest first. -/
def issuedBy (instantMax : Nat) (h : List Event) : List String := (h.filterMap (Event.returned instantMax)).reverse

theorem issuedBy_concat (h : List Event) (e : Event) :
    issuedBy instantMax (h ++ [e]) = (e.returned instantMax).toList ++ issuedBy instantMax h := by
  unfold issuedBy
  rw [List.filterMap_append, List.reverse_append]
  cases hr : e.returned instantMax with
  | none => simp [hr]
  | some t => simp [hr]

/-- The clock never goes back, up to `now`. -/
def Clock (h : List Event) (now : Nat) : Prop := (h.map Event.time ++ [now]).Pairwise (· ≤ ·)

instance (h : List Event) (now : Nat) : Decidable (Clock h now) :=
  inferInstanceAs (Decidable (List.Pairwise _ _))

theorem Clock.concat {h : List Event} {e : Event} {now : Nat} (hc : Clock (h ++ [e]) now) :
    Clock h e.time ∧ e.time ≤ now := by
  unfold Clock at hc ⊢
  rw [List.map_append, List.map_singleton] at hc
  obtain ⟨hleft, -, hcross⟩ := List.pairwise_append.mp hc
  exact ⟨hleft, hcross e.time (by simp) now (by simp)⟩

/-- **A whole history refines the abstract one.** -/
theorem run_refines {h : List Event} {now : Nat} (hclock : Clock h now)
    (hfresh : (h.filterMap (Event.returned instantMax)).Nodup) :
    Refines (run instantMax h) (grants instantMax h) (issuedBy instantMax h) now := by
  induction h using List.reverseRecOn generalizing now with
  | nil => exact refines_new now
  | append_singleton h e ih =>
      obtain ⟨hpast, hle⟩ := hclock.concat
      rw [List.filterMap_append, List.nodup_append] at hfresh
      obtain ⟨hnodup, -, hdisjoint⟩ := hfresh
      rw [run_concat, grants_concat, issuedBy_concat]
      refine Refines.later (step_refines (ih hpast hnodup) fun t ht hmem => ?_) hle
      unfold issuedBy at hmem
      exact hdisjoint t (List.mem_reverse.mp hmem) t (by simp [ht]) rfl

/-! ## What `resolve` reads -/

theorem resolve_eq_some_iff {s : State} {g : PlayerId → Option Grant} {issued : List String} {now : Nat}
    (h : Refines s g issued now) {token : String} {p : PlayerId} :
    s.resolve token now = .ok (some p) ↔ ∃ deadline, g p = some ⟨token, deadline⟩ ∧ now < deadline := by
  unfold State.resolve
  rw [Except.ok.injEq, Option.map_eq_some_iff]
  constructor
  · rintro ⟨entry, hentry, rfl⟩
    obtain ⟨hlookup, hlive⟩ := Option.filter_eq_some_iff.mp hentry
    exact ⟨entry.expiresAt, h.sound token entry hlookup, of_decide_eq_true hlive⟩
  · rintro ⟨deadline, hg, hlt⟩
    exact ⟨⟨p, deadline⟩, Option.filter_eq_some_iff.mpr ⟨h.complete p _ hg hlt, decide_eq_true hlt⟩, rfl⟩

theorem resolve_eq_of_refines {s s' : State} {g : PlayerId → Option Grant} {issued issued' : List String} {now : Nat}
    (h : Refines s g issued now) (h' : Refines s' g issued' now) (token : String) :
    s.resolve token now = s'.resolve token now := by
  have hsome : ∀ p, s.resolve token now = .ok (some p) ↔ s'.resolve token now = .ok (some p) := fun p =>
    (resolve_eq_some_iff h).trans (resolve_eq_some_iff h').symm
  unfold State.resolve at hsome ⊢
  simp only [Except.ok.injEq] at hsome ⊢
  exact Option.ext hsome

theorem resolve_run_iff {h : List Event} {now : Nat} (hclock : Clock h now)
    (hfresh : (h.filterMap (Event.returned instantMax)).Nodup) {token : String} {p : PlayerId} :
    (run instantMax h).resolve token now = .ok (some p) ↔
      ∃ deadline, grants instantMax h p = some ⟨token, deadline⟩ ∧ now < deadline :=
  resolve_eq_some_iff (run_refines hclock hfresh)

/-! ## The grants and the history -/

/-- The event is a successful create for the player, returning `token` with this deadline. -/
def Event.Grants (instantMax : Nat) (player : PlayerId) (token : String) (deadline : Nat) (e : Event) : Prop :=
  ∃ ttl, e.op = .create player ttl token ∧ e.time + ttl ≤ instantMax ∧ deadline = e.time + ttl

theorem grantStep_eq_some_iff {g : PlayerId → Option Grant} {e : Event} {p : PlayerId} {token : String}
    {deadline : Nat} : grantStep instantMax g e p = some ⟨token, deadline⟩ ↔
      e.Grants instantMax p token deadline ∨ e.Quiet instantMax p ∧ g p = some ⟨token, deadline⟩ := by
  obtain ⟨time, op⟩ := e
  unfold Event.Grants Event.Quiet Event.CreatesFor
  cases op with
  | create player ttl issued =>
      simp only [grantStep, Op.create.injEq, reduceCtorEq, ne_eq, not_false_eq_true, and_true]
      by_cases hp : p = player
      · subst hp
        split_ifs with hfits
        · simp only [Function.update_self, Option.some.injEq, Grant.mk.injEq, true_and]
          grind
        · grind
      · split_ifs with hfits
        · rw [Function.update_of_ne hp]
          grind
        · grind
  | revokePlayer player =>
      simp only [grantStep]
      by_cases hp : p = player
      · subst hp
        simp
      · rw [Function.update_of_ne hp]
        grind
  | resolve token => simp [grantStep]
  | liveTokens => simp [grantStep]

theorem latestGrant_concat_iff {h : List Event} {e : Event} {p : PlayerId} {token : String} {deadline : Nat} :
    LatestGrant instantMax (h ++ [e]) p token deadline ↔
      e.Grants instantMax p token deadline ∨ e.Quiet instantMax p ∧ LatestGrant instantMax h p token deadline := by
  constructor
  · rintro ⟨pre, time, ttl, post, hsplit, hfits, hdeadline, hquiet⟩
    cases post using List.reverseRecOn with
    | nil =>
        obtain ⟨-, hlast⟩ := List.append_inj' hsplit rfl
        obtain rfl := List.singleton_inj.mp hlast
        exact Or.inl ⟨ttl, rfl, hfits, hdeadline⟩
    | append_singleton post last =>
        rw [← List.cons_append, ← List.append_assoc] at hsplit
        obtain ⟨rfl, hlast⟩ := List.append_inj' hsplit rfl
        obtain rfl := List.singleton_inj.mp hlast
        exact Or.inr ⟨hquiet e (by simp), pre, time, ttl, post, rfl, hfits, hdeadline,
          fun e' he' => hquiet e' (by simp [he'])⟩
  · rintro (⟨ttl, hop, hfits, hdeadline⟩ | ⟨hlast, pre, time, ttl, post, rfl, hfits, hdeadline, hquiet⟩)
    · obtain ⟨time, op⟩ := e
      subst hop
      exact ⟨h, time, ttl, [], rfl, hfits, hdeadline, fun e' he' => absurd he' List.not_mem_nil⟩
    · refine ⟨pre, time, ttl, post ++ [e], by simp, hfits, hdeadline, fun e' he' => ?_⟩
      rcases List.mem_append.mp he' with he' | he'
      · exact hquiet e' he'
      · obtain rfl := List.mem_singleton.mp he'
        exact hlast

theorem grants_eq_some_iff {h : List Event} {p : PlayerId} {token : String} {deadline : Nat} :
    grants instantMax h p = some ⟨token, deadline⟩ ↔ LatestGrant instantMax h p token deadline := by
  induction h using List.reverseRecOn with
  | nil =>
      constructor
      · intro hg
        cases hg
      · rintro ⟨pre, time, ttl, post, hsplit, -⟩
        simp at hsplit
  | append_singleton h e ih => rw [grants_concat, grantStep_eq_some_iff, latestGrant_concat_iff, ih]

/-- The player an operation is about, for those that change the store on purpose. -/
def Op.subject : Op → Option PlayerId
  | .create player _ _ => some player
  | .revokePlayer player => some player
  | .resolve _ => none
  | .liveTokens => none

theorem grantStep_of_subject_ne {g : PlayerId → Option Grant} {e : Event} {p q : PlayerId}
    (hsubject : e.op.subject = some p) (hne : q ≠ p) : grantStep instantMax g e q = g q := by
  obtain ⟨time, op⟩ := e
  cases op with
  | create player ttl token =>
      obtain rfl := Option.some.inj hsubject
      simp only [grantStep]
      split_ifs
      · exact Function.update_of_ne hne _ _
      · rfl
  | revokePlayer player =>
      obtain rfl := Option.some.inj hsubject
      exact Function.update_of_ne hne _ _
  | resolve token => cases hsubject
  | liveTokens => cases hsubject

/-! ## The specification -/

section Spec
variable {h : List Event} {now : Nat}

theorem Clock.drop_middle {pre post : List Event} {e : Event} (hc : Clock (pre ++ e :: post) now) :
    Clock (pre ++ post) now := by
  unfold Clock at hc ⊢
  refine hc.sublist ?_
  simp only [List.map_append, List.map_cons, List.append_assoc]
  exact (List.sublist_cons_self _ _).append_left _

theorem returned_drop_middle {pre post : List Event} {e : Event}
    (hfresh : ((pre ++ e :: post).filterMap (Event.returned instantMax)).Nodup) :
    ((pre ++ post).filterMap (Event.returned instantMax)).Nodup :=
  hfresh.sublist (((List.sublist_cons_self e post).append_left pre).filterMap _)

theorem grants_drop_liveTokens (pre post : List Event) (time : Nat) :
    grants instantMax (pre ++ ⟨time, .liveTokens⟩ :: post) = grants instantMax (pre ++ post) := by
  simp only [grants, List.foldl_append, List.foldl_cons, grantStep]

/-- **The session-token store.** Under a clock that never goes back and tokens that never repeat:
`resolve` answers the player whose latest grant the token is, while it lasts, and nothing else; so one
token at most resolves to a player, a create or a revocation touches no other player's token,
`live_tokens` changes no later answer, and a create that failed changed none. -/
theorem token_store_spec (hclock : Clock h now) (hfresh : (h.filterMap (Event.returned instantMax)).Nodup) :
    (∀ token p, (run instantMax h).resolve token now = .ok (some p) ↔
      ∃ deadline, LatestGrant instantMax h p token deadline ∧ now < deadline) ∧
    (∀ token, (¬ ∃ p deadline, LatestGrant instantMax h p token deadline ∧ now < deadline) →
      (run instantMax h).resolve token now = .ok none) ∧
    (∀ token token' p, (run instantMax h).resolve token now = .ok (some p) →
      (run instantMax h).resolve token' now = .ok (some p) → token = token') ∧
    (∀ pre e p, h = pre ++ [e] → e.op.subject = some p → ∀ token q, q ≠ p →
      ((run instantMax h).resolve token now = .ok (some q) ↔ (run instantMax pre).resolve token now = .ok (some q))) ∧
    (∀ pre time post, h = pre ++ ⟨time, .liveTokens⟩ :: post → ∀ token,
      (run instantMax h).resolve token now = (run instantMax (pre ++ post)).resolve token now) ∧
    (∀ pre time player ttl token, h = pre ++ [⟨time, .create player ttl token⟩] →
      ((run instantMax pre).create instantMax player ttl token time).1.isOk = false →
      ∀ t, (run instantMax h).resolve t now = (run instantMax pre).resolve t now) := by
  have hspec : ∀ token p, (run instantMax h).resolve token now = .ok (some p) ↔
      ∃ deadline, LatestGrant instantMax h p token deadline ∧ now < deadline := by
    intro token p
    rw [resolve_run_iff hclock hfresh]
    simp only [grants_eq_some_iff]
  refine ⟨hspec, fun token hnone => ?_, fun token token' p ht ht' => ?_, ?_, ?_, ?_⟩
  · cases hanswer : (run instantMax h).resolve token now with
    | error err => cases hanswer
    | ok answer =>
        cases answer with
        | none => rfl
        | some p => exact absurd ⟨p, (hspec token p).mp hanswer⟩ hnone
  · obtain ⟨deadline, hg, -⟩ := (resolve_run_iff hclock hfresh).mp ht
    obtain ⟨deadline', hg', -⟩ := (resolve_run_iff hclock hfresh).mp ht'
    rw [hg] at hg'
    exact (Grant.mk.inj (Option.some.inj hg')).1
  · rintro pre e p rfl hsubject token q hne
    have hpre : Clock pre now := (List.append_nil pre) ▸ hclock.drop_middle
    rw [resolve_run_iff hclock hfresh,
      resolve_run_iff hpre ((List.append_nil pre) ▸ returned_drop_middle hfresh), grants_concat,
      grantStep_of_subject_ne hsubject hne]
  · rintro pre time post rfl token
    have hrest := run_refines hclock.drop_middle (returned_drop_middle hfresh)
    rw [← grants_drop_liveTokens pre post time] at hrest
    exact resolve_eq_of_refines (run_refines hclock hfresh) hrest token
  · rintro pre time player ttl token rfl hfailed t
    rw [run_concat]
    simp only [step, State.create] at hfailed ⊢
    split_ifs at hfailed ⊢
    · cases hfailed
    · rfl

end Spec

/-- Player 1 is granted `d` after `a`, the token of player 2 is revoked, and `c` lasts until 7. -/
def threePlayers : List Event :=
  [⟨0, .create ⟨1⟩ 20 "a"⟩, ⟨1, .create ⟨2⟩ 20 "b"⟩, ⟨2, .create ⟨3⟩ 5 "c"⟩, ⟨3, .create ⟨1⟩ 20 "d"⟩,
    ⟨4, .revokePlayer ⟨2⟩⟩, ⟨8, .liveTokens⟩]

theorem threePlayers_latestGrant {p : PlayerId} {token : String} {deadline : Nat}
    (h : LatestGrant 100 threePlayers p token deadline) :
    p = ⟨1⟩ ∧ token = "d" ∧ deadline = 23 ∨ p = ⟨3⟩ ∧ token = "c" ∧ deadline = 7 := by
  have hgrants := grants_eq_some_iff.mpr h
  simp [grants, threePlayers, grantStep, Function.update_apply] at hgrants
  obtain ⟨hrevoked, hgrants⟩ := hgrants
  split_ifs at hgrants with hfirst hthird
  · simp_all
  · simp_all

theorem token_store_spec_three_players :
    (run 100 threePlayers).resolve "d" 12 = .ok (some ⟨1⟩) ∧ (run 100 threePlayers).resolve "a" 12 = .ok none ∧
    (run 100 threePlayers).resolve "b" 12 = .ok none ∧ (run 100 threePlayers).resolve "c" 12 = .ok none ∧
    ∀ token, (run 100 threePlayers).resolve token 12 = (run 100 (threePlayers.take 5)).resolve token 12 := by
  obtain ⟨hsome, hnone, -, -, hlive, -⟩ := @token_store_spec 100 threePlayers 12 (by decide) (by decide)
  have hgone {token : String} (hne : token ≠ "d") :
      ¬ ∃ p deadline, LatestGrant 100 threePlayers p token deadline ∧ 12 < deadline := by
    rintro ⟨p, deadline, hgrant, hlasts⟩
    obtain ⟨-, rfl, -⟩ | ⟨-, -, rfl⟩ := threePlayers_latestGrant hgrant
    · exact hne rfl
    · exact absurd hlasts (by decide)
  refine ⟨(hsome "d" ⟨1⟩).mpr ⟨23, grants_eq_some_iff.mp (by decide), by decide⟩, hnone _ (hgone (by decide)),
    hnone _ (hgone (by decide)), hnone _ (hgone (by decide)), ?_⟩
  exact hlive (threePlayers.take 5) 8 [] rfl

end LongshipX.Session
