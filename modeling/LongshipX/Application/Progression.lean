import LongshipX.Application.UseCases
import LongshipX.Lib.Quiescence

/-!
# Concurrent experience gains

Any number of `GainExpUseCase` and `LoginUseCase` executions (and registrations) side by side, over the in-memory
repositories and a publisher that may fail at any call.

* `Outcome` : what a finished gain did, in this order, and what it returned; `run_outcome` : every one has such an
  outcome;
* `Progress` : a stored player against the gains that reached the repository; `step_progress` : every step keeps it;
* `no_lost_experience` : the final level and experience are those of one gain of the sum, and each level that was
  announced was announced once.
-/

namespace LongshipX.Application
open Persistence Player

/-! ## What one gain does -/

def GainExp.Pc.reached : Pc → Bool
  | .publish _ _ => true
  | .done (.ok _) => true
  | .done (.error (.postCommit _)) => true
  | _ => false

/-- **What a finished gain did** and returned: nothing at all, or one commit, followed by one announcement exactly when
that commit raised the level. -/
inductive Outcome (playerId : PlayerId) (amount : Nat) : Except AppError PlayerProfile → List Mark → Prop
  | invalid (message : String) : Outcome playerId amount (.error (.validation message)) []
  | notFound (message : String) : Outcome playerId amount (.error (.notFound message)) []
  | kept (before : Player) (h : (before.gainExp amount).2.level = before.level) :
      Outcome playerId amount (.ok (.of (before.gainExp amount).2)) [.gained playerId amount before (before.gainExp amount).2]
  | announced (before : Player) (h : before.level < (before.gainExp amount).2.level) :
      Outcome playerId amount (.ok (.of (before.gainExp amount).2))
        [.gained playerId amount before (before.gainExp amount).2,
          .published playerId (before.gainExp amount).2.level (.ok ())]
  | unannounced (before : Player) (err : AppError) (h : before.level < (before.gainExp amount).2.level) :
      Outcome playerId amount (.error (.postCommit err.toText))
        [.gained playerId amount before (before.gainExp amount).2,
          .published playerId (before.gainExp amount).2.level (.error err)]

def GainExp.Traces (playerId : PlayerId) (amount : Nat) (marks : List Mark) : Pc → Prop
  | .start => marks = []
  | .repository => marks = []
  | .publish player newLevel => ∃ before, player = (before.gainExp amount).2 ∧ newLevel = player.level ∧
      before.level < player.level ∧ marks = [.gained playerId amount before player]
  | .done result => Outcome playerId amount result marks

def Mark.ofGain : Mark → Bool
  | .gained _ _ _ _ => true
  | .published _ _ _ => true
  | _ => false

def Mark.announces : Mark → Bool
  | .published _ _ _ => true
  | _ => false

/-- The marks of an execution: those of a gain, or none that a gain would leave. -/
def Exec.GainTraces (marks : List Mark) : Exec → Prop
  | .gainExp playerId amount pc => GainExp.Traces playerId amount marks pc
  | _ => ∀ mark ∈ marks, mark.ofGain = false

theorem GainExp.moved_traces {stores stores' : Stores} {playerId : PlayerId} {amount : Nat} {pc pc' : Pc}
    {mark : Option Mark} {marks : List Mark} (h : Moved stores playerId amount pc stores' pc' mark)
    (hmarks : Traces playerId amount marks pc) : Traces playerId amount (marks ++ mark.toList) pc' := by
  cases h with
  | zero =>
      obtain rfl : marks = [] := hmarks
      exact .invalid _
  | positive => exact (List.append_nil marks).trans hmarks
  | missing =>
      obtain rfl : marks = [] := hmarks
      exact .notFound _
  | @raised player newLevel _ hnew =>
      obtain rfl : marks = [] := hmarks
      obtain ⟨hraised, rfl⟩ := gainExp_some hnew
      exact ⟨player, rfl, rfl, hraised, rfl⟩
  | @kept player _ hnew =>
      obtain rfl : marks = [] := hmarks
      exact .kept player (gainExp_none hnew)
  | announced =>
      obtain ⟨before, rfl, rfl, hraised, rfl⟩ := hmarks
      exact .announced before hraised
  | unannounced err =>
      obtain ⟨before, rfl, rfl, hraised, rfl⟩ := hmarks
      exact .unannounced before err hraised

theorem Exec.GainTraces.announces {marks : List Mark} {exec : Exec} (h : exec.GainTraces marks) :
    marks.countP Mark.announces ≤ 1 := by
  have hnone (hmarks : ∀ mark ∈ marks, mark.ofGain = false) : marks.countP Mark.announces ≤ 1 := by
    rw [List.countP_eq_zero.mpr]
    · exact Nat.zero_le _
    · intro mark hmark hannounces
      have hgain := hmarks mark hmark
      cases mark with
      | published => cases hgain
      | gained | loggedIn | tokenCreated | registered => cases hannounces
  cases exec with
  | gainExp playerId amount pc =>
      cases pc with
      | start | repository =>
          rw [show marks = [] from h]
          exact Nat.zero_le _
      | publish player newLevel =>
          obtain ⟨before, -, -, -, rfl⟩ := h
          exact Nat.zero_le _
      | done result =>
          cases (show Outcome playerId amount result marks from h) with
          | invalid | notFound | kept => exact Nat.zero_le _
          | announced | unannounced => exact le_refl _
  | login | register => exact hnone h

section
variable {config : Config} {stores : Stores} {s s' : State} {labels : List Label}

theorem run_loggedIn (hrun : (system config stores).run (system config stores).init labels = some s) :
    ∀ k playerId before after, (k, .loggedIn playerId before after) ∈ s.log →
      after.level = before.level ∧ after.exp = before.exp := by
  refine TransitionSystem.run_invariant (I := fun s => ∀ k playerId before after,
    (k, .loggedIn playerId before after) ∈ s.log → after.level = before.level ∧ after.exp = before.exp) ?_
    (by simp [system]) hrun
  intro s label s' hs hstep k playerId before after hmem
  obtain ⟨call, -, rfl⟩ | ⟨j, env, exec, stores', exec', mark, -, -, hadvance, rfl⟩ := step_cases hstep
  · exact hs k playerId before after hmem
  · rcases List.mem_append.mp hmem with hold | hnew
    · exact hs k playerId before after hold
    · obtain ⟨_, hmark, heq⟩ := Option.map_eq_some_iff.mp (Option.mem_toList.mp hnew)
      obtain ⟨-, rfl⟩ := Prod.mk.inj heq
      subst hmark
      obtain ⟨_, _, _, _, -, -, hmoved⟩ | ⟨_, _, _, -, -, heffect⟩ | ⟨_, _, _, -, -, hmoved⟩ :=
        Exec.advance_cases hadvance
      · cases hmoved
      · cases heffect
        exact ⟨rfl, rfl⟩
      · cases hmoved

theorem run_gainTraces (hrun : (system config stores).run (system config stores).init labels = some s) :
    ∀ (k : Nat) (exec : Exec), s.execs[k]? = some exec → exec.GainTraces (s.trace k) := by
  refine run_traces (P := fun (exec : Exec) marks => exec.GainTraces marks) ?_ ?_
    (steps_of_forall (fun _ _ => True) fun _ _ => trivial) hrun
  · intro call
    cases call with
    | gainExp => rfl
    | login | register => exact fun mark hmark => nomatch hmark
  · intro env stores exec stores' exec' mark marks _ hadvance hmarks
    obtain ⟨playerId, amount, pc, pc', rfl, rfl, hmoved⟩ | ⟨cmd, pc, pc', rfl, rfl, heffect⟩ |
      ⟨cmd, pc, pc', rfl, rfl, hmoved⟩ := Exec.advance_cases hadvance
    · exact GainExp.moved_traces hmoved hmarks
    · refine List.forall_mem_append.mpr ⟨hmarks, ?_⟩
      cases heffect with
      | quiet => simp
      | loggedIn | tokenCreated => simp [Mark.ofGain]
    · refine List.forall_mem_append.mpr ⟨hmarks, ?_⟩
      cases hmoved with
      | stored => simp [Mark.ofGain]
      | refused | validated | free | hashed | audited => simp

end

/-! ## Sums over the executions -/

def offered (playerId : PlayerId) : Exec → Nat
  | .gainExp p amount _ => if p = playerId then amount else 0
  | _ => 0

/-- What an execution that has reached the repository added to the player. -/
def committed (playerId : PlayerId) : Exec → Nat
  | .gainExp p amount pc => if p = playerId ∧ pc.reached = true then amount else 0
  | _ => 0

def total (f : Exec → Nat) (execs : List Exec) : Nat := (execs.map f).sum

theorem committed_le_offered (q : PlayerId) (exec : Exec) : committed q exec ≤ offered q exec := by
  cases exec with
  | gainExp p amount pc =>
      by_cases hp : p = q
      · simp only [committed, offered, hp, true_and, if_true]
        split_ifs <;> omega
      · simp [committed, hp]
  | login | register => exact le_refl _

theorem total_committed_le (q : PlayerId) (execs : List Exec) : total (committed q) execs ≤ total (offered q) execs :=
  List.sum_le_sum fun exec _ => committed_le_offered q exec

theorem total_concat (f : Exec → Nat) (execs : List Exec) (exec : Exec) :
    total f (execs ++ [exec]) = total f execs + f exec := by
  simp [total]

theorem total_set (f : Exec → Nat) {execs : List Exec} {k : Nat} {exec : Exec} (h : execs[k]? = some exec) (exec' : Exec) :
    total f (execs.set k exec') + f exec = total f execs + f exec' := Sums.set h exec' f

/-! ## Climbing -/

/-- A commit for the player: the execution, the level before and the level after. -/
structure Climb where
  exec : Nat
  before : Nat
  after : Nat

def climbs (q : PlayerId) (log : List (Nat × Mark)) : List Climb :=
  log.filterMap fun
    | (k, .gained p _ before after) => if p = q then some ⟨k, before.level, after.level⟩ else none
    | _ => none

/-- The announcements for the player, oldest first: the execution and the level. -/
def announcements (q : PlayerId) (log : List (Nat × Mark)) : List (Nat × Nat) :=
  log.filterMap fun
    | (k, .published p newLevel _) => if p = q then some (k, newLevel) else none
    | _ => none

/-- The stored player against the gains that have reached the repository: nothing is lost, and each commit started where
the commits before it had led. -/
structure Progress (q : PlayerId) (initial player : Player) (s : State) : Prop where
  stored : s.stores.players.lookup q.uuid = some player
  settled : Settled player.level player.exp
  points : points player.level player.exp = Player.points initial.level initial.exp + total (committed q) s.execs
  exp : player.exp ≤ initial.exp + total (committed q) s.execs
  chained : (climbs q s.log).Pairwise fun climb later => climb.after ≤ later.before
  bounds : ∀ climb ∈ climbs q s.log, initial.level ≤ climb.before ∧ climb.before ≤ climb.after ∧ climb.after ≤ player.level
  top : player.level = initial.level ∨ ∃ climb ∈ climbs q s.log, climb.before < climb.after ∧ climb.after = player.level
  above : initial.level ≤ player.level

section
variable {q : PlayerId} {initial player player' : Player} {s s' : State} {config : Config}

/-- A step that leaves the player's level and experience alone and commits nothing for it. -/
theorem Progress.keep (h : Progress q initial player s) (hstored : s'.stores.players.lookup q.uuid = some player')
    (hlevel : player'.level = player.level) (hexp : player'.exp = player.exp) (hlog : climbs q s'.log = climbs q s.log)
    (htotal : total (committed q) s'.execs = total (committed q) s.execs) : Progress q initial player' s' where
  stored := hstored
  settled := by
    rw [hlevel, hexp]
    exact h.settled
  points := by
    rw [hlevel, hexp, htotal]
    exact h.points
  exp := by
    rw [hexp, htotal]
    exact h.exp
  chained := by
    rw [hlog]
    exact h.chained
  bounds := by
    rw [hlog, hlevel]
    exact h.bounds
  top := by
    rw [hlog, hlevel]
    exact h.top
  above := by
    rw [hlevel]
    exact h.above

theorem Progress.gain (h : Progress q initial player s) {amount k : Nat} (hfits : player.exp + amount ≤ u64Max)
    (hstored : s'.stores.players.lookup q.uuid = some (player.gainExp amount).2)
    (hlog : climbs q s'.log = climbs q s.log ++ [⟨k, player.level, (player.gainExp amount).2.level⟩])
    (htotal : total (committed q) s'.execs = total (committed q) s.execs + amount) :
    Progress q initial (player.gainExp amount).2 s' where
  stored := hstored
  settled := gainExp_settled h.settled amount
  points := by
    rw [gainExp_points h.settled hfits, h.points, htotal]
    omega
  exp := by
    have hle := gainExp_exp_le h.settled amount
    have hbefore := h.exp
    rw [htotal]
    omega
  chained := by
    rw [hlog]
    refine List.pairwise_append.mpr ⟨h.chained, List.pairwise_singleton _ _, fun climb hclimb later hlater => ?_⟩
    rw [List.mem_singleton.mp hlater]
    exact (h.bounds climb hclimb).2.2
  bounds := by
    have hup := (player.gainExp_report amount).1
    rw [hlog]
    intro climb hclimb
    rcases List.mem_append.mp hclimb with hold | hnew
    · obtain ⟨hlow, hmid, hhigh⟩ := h.bounds climb hold
      exact ⟨hlow, hmid, by omega⟩
    · rw [List.mem_singleton.mp hnew]
      exact ⟨h.above, hup, le_refl _⟩
  top := by
    have hup := (player.gainExp_report amount).1
    rw [hlog]
    by_cases hraised : player.level < (player.gainExp amount).2.level
    · exact Or.inr ⟨_, List.mem_append_right _ (List.mem_singleton_self _), hraised, rfl⟩
    · have hsame : (player.gainExp amount).2.level = player.level := by omega
      rw [hsame]
      rcases h.top with hinitial | ⟨climb, hclimb, hlt, htop⟩
      · exact Or.inl hinitial
      · exact Or.inr ⟨climb, List.mem_append_left _ hclimb, hlt, htop⟩
  above := by
    have hup := (player.gainExp_report amount).1
    have hlow := h.above
    omega

theorem climbs_append (q : PlayerId) (log : List (Nat × Mark)) (mark : Option Mark) (k : Nat) :
    climbs q (log ++ (mark.map fun mark => (k, mark)).toList) =
      climbs q log ++ climbs q (mark.map fun mark => (k, mark)).toList := List.filterMap_append

theorem ne_of_uuid {p q : PlayerId} (h : p ≠ q) : q.uuid ≠ p.uuid := by
  intro heq
  cases p
  cases q
  simp_all

/-- **Every step keeps the progress** of a stored player, as long as its experience fits. -/
theorem step_progress {label : Label} (h : Progress q initial player s) (hstep : s.step config label = some s')
    (hfits : initial.exp + total (offered q) s'.execs ≤ u64Max) : ∃ player', Progress q initial player' s' := by
  obtain ⟨call, -, rfl⟩ | ⟨k, env, exec, stores', exec', mark, -, hexec, hadvance, rfl⟩ := step_cases hstep
  · refine ⟨player, h.keep h.stored rfl rfl rfl ?_⟩
    have hstart : committed q call.start = 0 := by
      cases call with
      | gainExp => simp [Call.start, committed, GainExp.Pc.reached]
      | login | register => rfl
    rw [total_concat, hstart, Nat.add_zero]
  · have hcommitted := total_set (committed q) hexec exec'
    have hoffered := total_set (offered q) hexec exec'
    obtain ⟨p, amount, pc, pc', rfl, rfl, hmoved⟩ | ⟨cmd, pc, pc', rfl, rfl, heffect⟩ | ⟨cmd, pc, pc', rfl, rfl, hmoved⟩ :=
      Exec.advance_cases hadvance
    · have hsame (hreached : pc'.reached = pc.reached) :
          total (committed q) (s.execs.set k (.gainExp p amount pc')) = total (committed q) s.execs := by
        simp only [committed, hreached] at hcommitted
        omega
      have hgain {before : Player} (hstored : s.stores.players.lookup p.uuid = some before) (hpc : pc.reached = false)
          (hpc' : pc'.reached = true) : ∃ player', Progress q initial player'
            ⟨{ s.stores with players := s.stores.players.insert p.uuid (before.gainExp amount).2 },
              s.execs.set k (.gainExp p amount pc'), s.log ++ [(k, .gained p amount before (before.gainExp amount).2)]⟩ := by
        by_cases hp : p = q
        · subst hp
          obtain rfl := Option.some.inj (h.stored.symm.trans hstored)
          have htotal : total (committed p) (s.execs.set k (.gainExp p amount pc')) = total (committed p) s.execs + amount := by
            simpa [committed, hpc, hpc'] using hcommitted
          have hle := total_committed_le p (s.execs.set k (.gainExp p amount pc'))
          have hexp := h.exp
          have hroom : player.exp + amount ≤ u64Max := by
            dsimp only at hfits
            omega
          exact ⟨_, h.gain (k := k) hroom (AList.lookup_insert _) (by simp [climbs]) htotal⟩
        · refine ⟨player, h.keep ((AList.lookup_insert_ne (ne_of_uuid hp)).trans h.stored) rfl rfl ?_ ?_⟩
          · simp [climbs, hp]
          · simpa [committed, hp] using hcommitted
      cases hmoved with
      | zero | positive | missing => exact ⟨player, h.keep h.stored rfl rfl (by simp) (hsame rfl)⟩
      | raised hstored hnew => exact hgain hstored rfl rfl
      | kept hstored hnew => exact hgain hstored rfl rfl
      | announced | unannounced =>
          refine ⟨player, h.keep h.stored rfl rfl ?_ (hsame rfl)⟩
          rw [climbs_append]
          exact List.append_nil _
    · have hsame : total (committed q) (s.execs.set k (.login cmd pc')) = total (committed q) s.execs := by
        simpa [committed] using hcommitted
      cases heffect with
      | quiet => exact ⟨player, h.keep h.stored rfl rfl (by simp) hsame⟩
      | @loggedIn p stored hstored =>
          by_cases hp : p = q
          · subst hp
            obtain rfl := Option.some.inj (h.stored.symm.trans hstored)
            refine ⟨_, h.keep (AList.lookup_insert _) rfl rfl ?_ hsame⟩
            rw [climbs_append]
            exact List.append_nil _
          · refine ⟨player, h.keep ((AList.lookup_insert_ne (ne_of_uuid hp)).trans h.stored) rfl rfl ?_ hsame⟩
            rw [climbs_append]
            exact List.append_nil _
      | tokenCreated =>
          refine ⟨player, h.keep h.stored rfl rfl ?_ hsame⟩
          rw [climbs_append]
          exact List.append_nil _
    · have hsame : total (committed q) (s.execs.set k (.register cmd pc')) = total (committed q) s.execs := by
        simpa [committed] using hcommitted
      cases hmoved with
      | refused | validated | free | hashed | audited => exact ⟨player, h.keep h.stored rfl rfl (by simp) hsame⟩
      | @stored account created accounts players hregister =>
          obtain ⟨-, -, hfree, -, -, rfl⟩ := register_ok hregister
          have hne : q.uuid ≠ created.id.uuid := by
            intro heq
            rw [← heq] at hfree
            exact hfree (AList.lookup_isSome.mp (by rw [h.stored]; rfl))
          refine ⟨player, h.keep ((AList.lookup_insert_ne hne).trans h.stored) rfl rfl ?_ hsame⟩
          rw [climbs_append]
          exact List.append_nil _

theorem offered_mono {label : Label} (q : PlayerId) (hstep : s.step config label = some s') :
    total (offered q) s.execs ≤ total (offered q) s'.execs := by
  obtain ⟨call, -, rfl⟩ | ⟨k, env, exec, stores', exec', mark, -, hexec, hadvance, rfl⟩ := step_cases hstep
  · rw [total_concat]
    omega
  · have hoffered := total_set (offered q) hexec exec'
    have hsame : offered q exec' = offered q exec := by
      obtain ⟨p, amount, pc, pc', rfl, rfl, -⟩ | ⟨cmd, pc, pc', rfl, rfl, -⟩ | ⟨cmd, pc, pc', rfl, rfl, -⟩ :=
        Exec.advance_cases hadvance
      · rfl
      · rfl
      · rfl
    dsimp only
    omega

variable {stores : Stores} {labels : List Label}

theorem run_progress (hplayer : stores.players.lookup q.uuid = some initial) (hreachable : initial.Reachable)
    (hrun : (system config stores).run (system config stores).init labels = some s)
    (hfits : initial.exp + total (offered q) s.execs ≤ u64Max) : ∃ player, Progress q initial player s := by
  refine TransitionSystem.run_invariant
    (I := fun s => initial.exp + total (offered q) s.execs ≤ u64Max → ∃ player, Progress q initial player s) ?_ ?_ hrun hfits
  · intro s label s' hs hstep hfits
    have hmono := offered_mono q hstep
    obtain ⟨player, hprogress⟩ := hs (by omega)
    exact step_progress hprogress hstep hfits
  · intro _
    exact ⟨initial, hplayer, hreachable.settled, rfl, le_refl _, List.Pairwise.nil, by simp [system, climbs], Or.inl rfl,
      le_refl _⟩

/-! ## Announcements -/

theorem mem_climbs {log : List (Nat × Mark)} {climb : Climb} : climb ∈ climbs q log ↔
    ∃ amount before after, (climb.exec, .gained q amount before after) ∈ log ∧ climb.before = before.level ∧
      climb.after = after.level := by
  simp only [climbs, List.mem_filterMap]
  constructor
  · rintro ⟨⟨k, mark⟩, hmem, hsome⟩
    cases mark with
    | gained p amount before after =>
        dsimp only at hsome
        split_ifs at hsome with hp
        obtain rfl := Option.some.inj hsome
        exact ⟨amount, before, after, hp ▸ hmem, rfl, rfl⟩
    | loggedIn | tokenCreated | registered | published => cases hsome
  · rintro ⟨amount, before, after, hmem, hbefore, hafter⟩
    obtain ⟨k, b, a⟩ := climb
    dsimp only at hbefore hafter hmem
    subst hbefore hafter
    exact ⟨_, hmem, if_pos rfl⟩

theorem mem_announcements {log : List (Nat × Mark)} {k level : Nat} :
    (k, level) ∈ announcements q log ↔ ∃ result, (k, .published q level result) ∈ log := by
  simp only [announcements, List.mem_filterMap]
  constructor
  · rintro ⟨⟨j, mark⟩, hmem, hsome⟩
    cases mark with
    | published p newLevel result =>
        dsimp only at hsome
        split_ifs at hsome with hp
        obtain ⟨rfl, rfl⟩ := Prod.mk.inj (Option.some.inj hsome)
        exact ⟨result, hp ▸ hmem⟩
    | gained | loggedIn | tokenCreated | registered => cases hsome
  · rintro ⟨result, hmem⟩
    exact ⟨_, hmem, if_pos rfl⟩

theorem gain_of_mem (hrun : (system config stores).run (system config stores).init labels = some s) {k : Nat} {mark : Mark}
    (hmem : (k, mark) ∈ s.log) (hgain : mark.ofGain = true) : ∃ playerId amount pc,
      s.execs[k]? = some (.gainExp playerId amount pc) ∧ GainExp.Traces playerId amount (s.trace k) pc := by
  have hlt : k < s.execs.length := run_logged hrun (k, mark) hmem
  have hexec : s.execs[k]? = some s.execs[k] := List.getElem?_eq_getElem hlt
  have htraces := run_gainTraces hrun k _ hexec
  cases hkind : s.execs[k] with
  | gainExp playerId amount pc =>
      rw [hkind] at hexec htraces
      exact ⟨playerId, amount, pc, hexec, htraces⟩
  | login | register =>
      rw [hkind] at htraces
      have hnot := htraces mark (mem_trace.mpr hmem)
      rw [hgain] at hnot
      cases hnot

/-- An announcement follows a commit of the same execution that raised the level to what is announced. -/
theorem announced_climb (hrun : (system config stores).run (system config stores).init labels = some s) {k level : Nat}
    (h : (k, level) ∈ announcements q s.log) : ∃ before, ⟨k, before, level⟩ ∈ climbs q s.log ∧ before < level := by
  obtain ⟨result, hmem⟩ := mem_announcements.mp h
  obtain ⟨playerId, amount, pc, -, htraces⟩ := gain_of_mem hrun hmem rfl
  have hmark := mem_trace.mpr hmem
  have hcommit : ∀ before, s.trace k = .gained playerId amount before (before.gainExp amount).2 :: (s.trace k).tail →
      before.level < (before.gainExp amount).2.level → level = (before.gainExp amount).2.level → playerId = q →
      ∃ before, ⟨k, before, level⟩ ∈ climbs q s.log ∧ before < level := by
    rintro before htrace hraised rfl rfl
    refine ⟨before.level, mem_climbs.mpr ⟨amount, before, _, mem_trace.mp ?_, rfl, rfl⟩, hraised⟩
    rw [htrace]
    exact List.mem_cons_self
  cases pc with
  | start | repository =>
      rw [show s.trace k = [] from htraces] at hmark
      cases hmark
  | publish player newLevel =>
      obtain ⟨before, -, -, -, htrace⟩ := htraces
      rw [htrace] at hmark
      simp at hmark
  | done outcome =>
      have houtcome : Outcome playerId amount outcome (s.trace k) := htraces
      generalize htrace : s.trace k = marks at houtcome hmark
      cases houtcome with
      | invalid | notFound => cases hmark
      | kept => simp at hmark
      | announced before hraised | unannounced before err hraised =>
          simp only [List.mem_cons, reduceCtorEq, Mark.published.injEq, List.not_mem_nil, or_false, false_or] at hmark
          exact hcommit before (by rw [htrace]; rfl) hraised hmark.2.1 hmark.1.symm

theorem climb_announced (hrun : (system config stores).run (system config stores).init labels = some s)
    (hover : ∀ exec ∈ s.execs, exec.over = true) {climb : Climb} (h : climb ∈ climbs q s.log)
    (hraised : climb.before < climb.after) : (climb.exec, climb.after) ∈ announcements q s.log := by
  obtain ⟨amount', before', after', hmem, hbefore, hafter⟩ := mem_climbs.mp h
  obtain ⟨playerId, amount, pc, hexec, htraces⟩ := gain_of_mem hrun hmem rfl
  have hmark := mem_trace.mpr hmem
  have hdone := hover _ (List.mem_of_getElem? hexec)
  cases pc with
  | start | repository | publish => cases hdone
  | done outcome =>
      have houtcome : Outcome playerId amount outcome (s.trace climb.exec) := htraces
      generalize htrace : s.trace climb.exec = marks at houtcome hmark
      cases houtcome with
      | invalid | notFound => cases hmark
      | kept before hkept =>
          simp only [List.mem_cons, Mark.gained.injEq, List.not_mem_nil, or_false] at hmark
          obtain ⟨-, -, rfl, rfl⟩ := hmark
          omega
      | announced before _ =>
          simp only [List.mem_cons, Mark.gained.injEq, reduceCtorEq, List.not_mem_nil, or_false] at hmark
          obtain ⟨rfl, -, -, rfl⟩ := hmark
          refine mem_announcements.mpr ⟨.ok (), mem_trace.mp ?_⟩
          rw [htrace, hafter]
          exact List.mem_cons_of_mem _ List.mem_cons_self
      | unannounced before err _ =>
          simp only [List.mem_cons, Mark.gained.injEq, reduceCtorEq, List.not_mem_nil, or_false] at hmark
          obtain ⟨rfl, -, -, rfl⟩ := hmark
          refine mem_announcements.mpr ⟨.error err, mem_trace.mp ?_⟩
          rw [htrace, hafter]
          exact List.mem_cons_of_mem _ List.mem_cons_self

theorem count_announcements (q : PlayerId) (k : Nat) (stores : Stores) (execs : List Exec) (log : List (Nat × Mark)) :
    ((announcements q log).map Prod.fst).count k ≤ (State.trace ⟨stores, execs, log⟩ k).countP Mark.announces := by
  induction log with
  | nil => exact Nat.zero_le _
  | cons entry log ih =>
      obtain ⟨j, mark⟩ := entry
      cases mark with
      | published p newLevel result =>
          have hcount : ∀ rest, List.countP Mark.announces (.published p newLevel result :: rest) =
              List.countP Mark.announces rest + 1 := fun rest => List.countP_cons_of_pos rfl
          by_cases hp : p = q <;> by_cases hj : j = k <;> simp_all [announcements, State.trace]
          omega
      | gained | loggedIn | tokenCreated | registered =>
          by_cases hj : j = k <;> simp_all [announcements, State.trace, Mark.announces]

theorem announcements_once (hrun : (system config stores).run (system config stores).init labels = some s) :
    ((announcements q s.log).map Prod.fst).Nodup := by
  refine List.nodup_iff_count_le_one.mpr fun k => (count_announcements q k s.stores s.execs s.log).trans ?_
  change (s.trace k).countP Mark.announces ≤ 1
  by_cases hlt : k < s.execs.length
  · exact (run_gainTraces hrun k _ (List.getElem?_eq_getElem hlt)).announces
  · have hempty : s.trace k = [] := by
      refine List.filterMap_eq_nil_iff.mpr fun entry hentry => if_neg ?_
      have := run_logged hrun entry hentry
      omega
    rw [hempty]
    exact Nat.zero_le _

/-- **No level is announced twice.** -/
theorem announcements_nodup (hrun : (system config stores).run (system config stores).init labels = some s)
    (h : Progress q initial player s) : ((announcements q s.log).map Prod.snd).Nodup := by
  refine List.Nodup.map_on ?_ (List.Nodup.of_map _ (announcements_once hrun))
  rintro ⟨k, level⟩ hk ⟨k', level'⟩ hk' heq
  obtain rfl : level = level' := heq
  obtain ⟨before, hclimb, hlt⟩ := announced_climb hrun hk
  obtain ⟨before', hclimb', hlt'⟩ := announced_climb hrun hk'
  by_contra hne
  -- of two commits one started where the other had led, or above
  have hapart : ∀ a ∈ climbs q s.log, ∀ b ∈ climbs q s.log, a ≠ b → a.after ≤ b.before ∨ b.after ≤ a.before := by
    have hsymm : (climbs q s.log).Pairwise fun a b => a.after ≤ b.before ∨ b.after ≤ a.before := h.chained.imp Or.inl
    have : Std.Symm fun a b : Climb => a.after ≤ b.before ∨ b.after ≤ a.before := ⟨fun _ _ => Or.symm⟩
    exact fun a ha b hb => hsymm.forall ha hb
  have hclimbs : (⟨k, before, level⟩ : Climb) ≠ ⟨k', before', level⟩ := by
    intro hsame
    obtain ⟨rfl, -, -⟩ := Climb.mk.inj hsame
    exact hne rfl
  rcases hapart _ hclimb _ hclimb' hclimbs with hle | hle
  · dsimp only at hle
    omega
  · dsimp only at hle
    omega

/-- **No lost experience.** A player that came from `Player::create` is stored; any number of gains, logins and
registrations run side by side, and what the gains for this player offer fits. Then, at every moment:

* the stored level and experience are those of one gain of what the executions that reached the repository added;
* no level is announced twice, and once all executions are over the highest announced level, if any, is the stored one;
* a gain that is over did what its outcome says: nothing if it was refused, else one commit, announced afterwards exactly
  if it raised the level, with the level it committed;
* a login changed neither level nor experience. -/
theorem no_lost_experience (hplayer : stores.players.lookup q.uuid = some initial) (hreachable : initial.Reachable)
    (hrun : (system config stores).run (system config stores).init labels = some s)
    (hfits : initial.exp + total (offered q) s.execs ≤ u64Max) :
    (∃ player, s.stores.players.lookup q.uuid = some player ∧
      player.level = (initial.gainExp (total (committed q) s.execs)).2.level ∧
      player.exp = (initial.gainExp (total (committed q) s.execs)).2.exp ∧
      ((∀ exec ∈ s.execs, exec.over = true) → announcements q s.log ≠ [] →
        player.level ∈ (announcements q s.log).map Prod.snd ∧
        ∀ level ∈ (announcements q s.log).map Prod.snd, level ≤ player.level)) ∧
    ((announcements q s.log).map Prod.snd).Nodup ∧
    (∀ k playerId amount result, s.execs[k]? = some (.gainExp playerId amount (.done result)) →
      Outcome playerId amount result (s.trace k)) ∧
    (∀ k playerId before after, (k, .loggedIn playerId before after) ∈ s.log →
      after.level = before.level ∧ after.exp = before.exp) := by
  obtain ⟨player, h⟩ := run_progress hplayer hreachable hrun hfits
  have hle := total_committed_le q s.execs
  obtain ⟨hlevel, hexp⟩ := eq_gainExp_of_points hreachable.settled h.settled (by omega) h.points
  refine ⟨⟨player, h.stored, hlevel, hexp, fun hover hsome => ⟨?_, ?_⟩⟩, announcements_nodup hrun h, ?_, ?_⟩
  · -- whoever raised the level last has announced it
    obtain ⟨⟨k, level⟩, hk⟩ := List.exists_mem_of_ne_nil _ hsome
    obtain ⟨before, hclimb, hlt⟩ := announced_climb hrun hk
    have hbounds := h.bounds _ hclimb
    rcases h.top with hinitial | ⟨climb, hmem, hraised, htop⟩
    · dsimp only at hbounds
      omega
    · exact List.mem_map.mpr ⟨_, climb_announced hrun hover hmem hraised, htop⟩
  · intro level hlevel
    obtain ⟨⟨k, level⟩, hk, rfl⟩ := List.mem_map.mp hlevel
    obtain ⟨before, hclimb, -⟩ := announced_climb hrun hk
    exact (h.bounds _ hclimb).2.2
  · intro k playerId amount result hk
    exact run_gainTraces hrun k _ hk
  · exact run_loggedIn hrun

end

/-! ### Two gains of sixty -/

def newcomer : Player :=
  .create ⟨1⟩ ⟨1⟩ ⟨"a", by decide +kernel, by decide +kernel, by decide +kernel⟩ 0

def unpublished : Env :=
  ⟨0, 0, .ok "", .ok true, .error (.internal "down"), .ok (), ⟨7⟩, ⟨7⟩, "t"⟩

/-- Two gains that overtake each other; the second commit raises the level, and its announcement fails. -/
def twoGains : List Label :=
  [.call (.gainExp ⟨1⟩ 60), .call (.gainExp ⟨1⟩ 60), .next 0 unpublished, .next 1 unpublished, .next 1 unpublished,
    .next 0 unpublished, .next 0 unpublished]

def newcomerSystem : TransitionSystem State Label := system ⟨10, 100⟩ ⟨∅, AList.singleton (1 : Uuid) newcomer, .new⟩

theorem twoGains_isSome : (newcomerSystem.run newcomerSystem.init twoGains).isSome = true := by decide +kernel

theorem no_lost_experience_two_gains :
    ∃ s player, newcomerSystem.run newcomerSystem.init twoGains = some s ∧ s.stores.players.lookup (1 : Uuid) = some player ∧
      player.level = 2 ∧ player.exp = 20 := by
  have hrun := (Option.some_get twoGains_isSome).symm
  have hlost := @no_lost_experience ⟨1⟩ newcomer _ _ _ _ rfl (.create ⟨1⟩ ⟨1⟩ _ 0) hrun (by decide +kernel)
  obtain ⟨⟨player, hstored, hlevel, hexp, -⟩, -⟩ := hlost
  exact ⟨_, player, hrun, hstored, hlevel.trans (by decide +kernel), hexp.trans (by decide +kernel)⟩

end LongshipX.Application
