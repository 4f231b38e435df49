import LongshipX.Gateway.Exchange
import LongshipX.Gateway.Gate
import LongshipX.Gateway.RateLimit

/-!
# The rate of a connection

The token bucket inside the read loop: whatever the tasks of a connection do, how often its handlers are called.

* `times`, `handlers` : the frames and the handler calls in a log;
* `Spends` : a piece of `admit_frame` calls at most as many handlers as the frame has paid for;
* `Step`, `Paced` : one step, and what holds in every run;
* `handlers_within_rate` : in any stretch of time, no more calls than the burst and the rate allow.
-/

namespace LongshipX.ReadLoop.Pace
open Protocol Gateway
open Net (Frame)

/-- The times at which a frame was handed to `admit_frame`. -/
def times (log : List Event) : List Instant := log.filterMap fun
  | .admitted time => some time
  | _ => none

def handlers (log : List Event) : ℕ := log.countP fun
  | .dispatched _ => true
  | _ => false

theorem times_append (log events : List Event) : times (log ++ events) = times log ++ times events :=
  List.filterMap_append

theorem handlers_append (log events : List Event) : handlers (log ++ events) = handlers log + handlers events :=
  List.countP_append

theorem handlers_eq (log : List Event) : handlers log = (called log).length := by
  rw [called, List.length_filterMap_eq_countP]
  refine List.countP_congr fun event _ => ?_
  cases event <;> simp

@[simp] theorem times_admitted (time : Instant) (events : List Event) :
    times (.admitted time :: events) = time :: times events := rfl

@[simp] theorem handlers_admitted (time : Instant) (events : List Event) :
    handlers (.admitted time :: events) = handlers events := rfl

theorem split_before {log events before rest : List Event} {time : Instant} (hnone : times events = [])
    (h : log ++ events = before ++ .admitted time :: rest) :
    ∃ rest', log = before ++ .admitted time :: rest' ∧ rest = rest' ++ events := by
  obtain ⟨between, -, hevents⟩ | ⟨after, hlog, hafter⟩ := List.append_eq_append_iff.mp h
  · rw [hevents, times_append, times_admitted] at hnone
    exact absurd hnone (by simp)
  · cases after with
    | nil =>
        rw [List.nil_append] at hafter
        rw [← hafter, times_admitted] at hnone
        cases hnone
    | cons event rest' =>
        obtain ⟨rfl, hrest⟩ := List.cons.inj hafter
        exact ⟨rest', hlog, hrest⟩

/-! ## What a frame may still call -/

/-- A frame that waits for its session check has its handler before it. -/
def ofAwait : Await → ℕ
  | .session _ _ _ _ => 1
  | _ => 0

def ofProgress : Progress → ℕ
  | .done _ => 0
  | .awaits await => ofAwait await

def ofReader : Reader → ℕ
  | .admitting _ await => ofAwait await
  | _ => 0

section
variable {β : Type} {setup : Setup β} {c c' : Conn β} {budget : ℕ} {r : Conn β × Progress}

/-- **A piece of `admit_frame`** with this budget of handler calls. -/
structure Spends (budget : ℕ) (c : Conn β) (r : Conn β × Progress) : Prop where
  log : ∃ events, r.1.log = c.log ++ events ∧ times events = [] ∧ handlers events + ofProgress r.2 ≤ budget
  bucket : r.1.bucket = c.bucket
  now : r.1.now = c.now

theorem Spends.of_log (hlog : r.1.log = c.log) (hprogress : ofProgress r.2 ≤ budget) (hbucket : r.1.bucket = c.bucket)
    (hnow : r.1.now = c.now) : Spends budget c r :=
  ⟨⟨[], by rw [hlog, List.append_nil], rfl, by simpa [handlers] using hprogress⟩, hbucket, hnow⟩

theorem serves_credit {uuids : Uuids} {request : InboundMessage} {before : List Handler} {await : Await}
    (h : await.Serves uuids request before) : before.length + ofAwait await = 1 := by
  cases await with
  | session =>
      obtain ⟨-, rfl⟩ := h
      rfl
  | bindToken | bindPlayer | profile =>
      obtain ⟨-, rfl⟩ := h
      rfl
  | rooms =>
      obtain ⟨handler, -, rfl⟩ := h
      rfl

/-- **A piece of the work on a request** calls what is left of one handler. -/
theorem spends_piece {uuids : Uuids} {auth : AuthState} {request : InboundMessage} {before : List Handler}
    {outcomes : List Outcome} (h : Piece uuids auth request before outcomes c r) : Spends (1 - before.length) c r := by
  obtain ⟨acts, hconn, hinner, -, hleads⟩ := h
  obtain ⟨auth, heq⟩ := acts_eq c acts
  have hone : (before ++ called (notes acts)).length + ofProgress r.2 ≤ 1 := by
    generalize r.2 = progress, said acts = messages, r.1.auth = stored at hleads
    cases hleads with
    | waits hserves => exact (serves_credit hserves).le
    | answered hsound => exact hsound.called.length_le
    | unsent hsound => exact hsound.called.length_le
    | refused hnone => rw [hnone]; exact Nat.zero_le 1
  rw [← hconn] at heq
  refine ⟨⟨notes acts, by rw [heq], ?_, ?_⟩, by rw [heq], by rw [heq]⟩
  · exact List.filterMap_eq_nil_iff.mpr fun event hevent => by cases event <;> first | rfl | exact (hinner _ hevent).elim
  · rw [List.length_append] at hone
    rw [handlers_eq]
    omega

theorem spends_admitFrame (frame : Frame) :
    Spends (if (c.acquire setup).1 then 1 else 0) (c.acquire setup).2 (c.admitFrame setup frame) ∧
      ((c.acquire setup).1 = false → (c.admitFrame setup frame).2 = .done false) := by
  obtain ⟨code, message, hreject⟩ | ⟨hpaid, request, -, hpiece⟩ := @piece_admitFrame β setup c frame
  · rw [hreject]
    exact ⟨.of_log rfl (Nat.zero_le _) rfl rfl, fun _ => rfl⟩
  · rw [hpaid]
    exact ⟨spends_piece hpiece, fun hno => by cases hno⟩

theorem spends_resume {await : Await} {label : ReadLoop.Label} (h : c.resume setup await label = some r) :
    Spends (ofAwait await) c r := by
  obtain ⟨uuids, request, before, hserves, hpiece⟩ := exists_piece h
  have hcredit := serves_credit hserves
  have hspends := spends_piece hpiece
  rwa [show 1 - before.length = ofAwait await by omega] at hspends

/-! ## A step of a connection -/

/-- **A step of a connection**: it goes on with what has been paid for, or takes a frame. -/
inductive Step (setup : Setup β) (c c' : Conn β) : Prop where
  | goes (events : List Event) (log : c'.log = c.log ++ events) (quiet : times events = [])
      (spent : handlers events + ofReader c'.reader ≤ ofReader c.reader) (bucket : c'.bucket = c.bucket)
      (now : c.now ≤ c'.now) (returned : c.reader = .returned → c'.reader = .returned)
  | takes (events : List Event) (log : c'.log = c.log ++ .admitted c.now :: events) (quiet : times events = [])
      (spent : handlers events + ofReader c'.reader ≤ if (c.acquire setup).1 then 1 else 0)
      (bucket : c'.bucket = (c.acquire setup).2.bucket) (now : c'.now = c.now) (running : c.reader ≠ .returned)
      (refused : (c.acquire setup).1 = false → c'.reader = .returned)

theorem Step.of_log (hlog : c'.log = c.log) (hreader : c'.reader = c.reader ∨ c'.reader = .returned)
    (hbucket : c'.bucket = c.bucket) (hnow : c.now ≤ c'.now) : Step setup c c' := by
  refine .goes [] (by rw [hlog, List.append_nil]) rfl ?_ hbucket hnow fun hreturned => ?_
  · rcases hreader with hreader | hreader
    · rw [hreader]
      exact (Nat.zero_add _).le
    · rw [hreader]
      exact Nat.zero_le _
  · rcases hreader with hreader | hreader
    · rw [hreader, hreturned]
    · exact hreader

theorem proceed_fields (limit : Option Instant) (r : Conn β × Progress) : (Conn.proceed limit r).log = r.1.log ∧
    (Conn.proceed limit r).bucket = r.1.bucket ∧ (Conn.proceed limit r).now = r.1.now ∧
    ofReader (Conn.proceed limit r).reader = ofProgress r.2 := by
  obtain ⟨c, _ | _⟩ := r
  · next proceed => cases proceed <;> exact ⟨rfl, rfl, rfl, rfl⟩
  · exact ⟨rfl, rfl, rfl, rfl⟩

theorem acquire_noted (event : Event) : ((c.note event).acquire setup).2.log = c.log ++ [event] ∧
    ((c.note event).acquire setup).2.bucket = (c.acquire setup).2.bucket ∧ ((c.note event).acquire setup).2.now = c.now := by
  obtain ⟨_, _, _, _, _, bucket, _, _, _, _⟩ := c
  cases bucket <;> exact ⟨rfl, rfl, rfl⟩

theorem takes_step {deadline : Instant} (hreader : c.reader = .selecting deadline) (frame : Frame) (limit : Option Instant) :
    Step setup c (Conn.proceed limit ((c.note (.admitted c.now)).admitFrame setup frame)) := by
  obtain ⟨hspends, hrefused⟩ := @spends_admitFrame β setup (c.note (.admitted c.now)) frame
  obtain ⟨hlog, hbucket, hnow⟩ := @acquire_noted β setup c (.admitted c.now)
  rw [acquire_note] at hspends hrefused
  obtain ⟨hlog', hbucket', hnow', hcredit⟩ := proceed_fields limit ((c.note (.admitted c.now)).admitFrame setup frame)
  obtain ⟨events, hevents, hquiet, hspent⟩ := hspends.log
  refine .takes events ?_ hquiet ?_ (hbucket'.trans (hspends.bucket.trans hbucket)) (hnow'.trans (hspends.now.trans hnow)) ?_ ?_
  · rw [hlog', hevents, hlog, List.append_assoc, List.singleton_append]
  · rw [hcredit]
    exact hspent
  · rw [hreader]
    exact fun hno => by cases hno
  · intro hno
    rw [show (c.note (.admitted c.now)).admitFrame setup frame =
      (((c.note (.admitted c.now)).admitFrame setup frame).1, .done false) from Prod.ext rfl (hrefused hno)]
    rfl

theorem select_step {deadline : Instant} {label : ReadLoop.Label} (hreader : c.reader = .selecting deadline)
    (h : c.stepSelect setup deadline label = some c') : Step setup c c' := by
  unfold Conn.stepSelect at h
  split at h
  · split_ifs at h
    obtain rfl := Option.some.inj h
    exact .of_log rfl (.inr rfl) rfl (Nat.le_refl _)
  · obtain rfl := Option.some.inj h
    exact .of_log rfl (.inr rfl) rfl (Nat.le_refl _)
  · obtain rfl := Option.some.inj h
    exact .of_log rfl (.inr rfl) rfl (Nat.le_refl _)
  · next frame =>
    split_ifs at h
    · obtain rfl := Option.some.inj h
      exact .of_log rfl (.inr rfl) rfl (Nat.le_refl _)
    · obtain rfl := Option.some.inj h
      exact takes_step hreader frame (c.limit deadline)
  · obtain rfl := Option.some.inj h
    exact .of_log rfl (.inr rfl) rfl (Nat.le_refl _)
  · split_ifs at h
    · obtain rfl := Option.some.inj h
      exact .of_log rfl (.inr rfl) rfl (Nat.le_refl _)
    · split at h
      · obtain rfl := Option.some.inj h
        exact .of_log rfl (.inr rfl) rfl (Nat.le_refl _)
      · obtain rfl := Option.some.inj h
        exact .of_log rfl (.inr rfl) rfl (Nat.le_refl _)
  · split_ifs at h
    obtain rfl := Option.some.inj h
    exact .of_log rfl (.inr rfl) rfl (Nat.le_refl _)
  · cases h

theorem reader_step {label : ReadLoop.Label} (h : c.stepReader setup label = some c') : Step setup c c' := by
  unfold Conn.stepReader at h
  split at h
  · next hreader =>
    obtain rfl := Option.some.inj h
    refine .goes [] (List.append_nil _).symm rfl (Nat.zero_le _) rfl (Nat.le_refl _) fun hreturned => ?_
    rw [hreader] at hreturned
    cases hreturned
  · next hreader => exact select_step hreader h
  · split_ifs at h
    obtain rfl := Option.some.inj h
    exact .of_log rfl (.inr rfl) rfl (Nat.le_refl _)
  · next limit await hreader _ =>
    obtain ⟨r, hresume, rfl⟩ := Option.map_eq_some_iff.mp h
    have hspends := spends_resume hresume
    obtain ⟨hlog, hbucket, hnow, hcredit⟩ := proceed_fields limit r
    obtain ⟨events, hevents, hquiet, hspent⟩ := hspends.log
    refine .goes events (hlog.trans hevents) hquiet ?_ (hbucket.trans hspends.bucket) ?_ fun hreturned => ?_
    · rw [hcredit, hreader]
      exact hspent
    · rw [hnow, hspends.now]
    · rw [hreader] at hreturned
      cases hreturned
  · cases h

theorem Step.translated {events : List Event} (hlog : c'.log = c.log ++ events) (hquiet : times events = [])
    (hnone : handlers events = 0) (hreader : c'.reader = c.reader) (hbucket : c'.bucket = c.bucket)
    (hnow : c'.now = c.now) : Step setup c c' := by
  refine .goes events hlog hquiet ?_ hbucket hnow.ge fun hreturned => hreader.trans hreturned
  rw [hnone, hreader, Nat.zero_add]

theorem translator_step {label : ReadLoop.Label} (h : c.stepTranslator setup label = some c') : Step setup c c' := by
  unfold Conn.stepTranslator at h
  split at h
  · next event _ =>
    dsimp only at h
    split at h
    · obtain rfl := Option.some.inj h
      exact .translated (rfl : _ = c.log ++ [.dequeued event]) rfl rfl rfl rfl rfl
    · next token _ =>
      obtain rfl := Option.some.inj h
      exact .translated (List.append_assoc c.log [.dequeued event] [.resolve .translator token]) rfl rfl rfl rfl rfl
  · obtain rfl := Option.some.inj h
    exact .of_log rfl (.inl rfl) rfl (Nat.le_refl _)
  · next event _ _ _ answer _ =>
    obtain rfl := Option.some.inj h
    split_ifs
    · unfold Conn.forward
      dsimp only
      split_ifs
      · exact .translated (List.append_assoc c.log [.resolved .translator answer] [.forwarded event]) rfl rfl rfl rfl rfl
      · exact .translated (rfl : _ = c.log ++ [.resolved .translator answer]) rfl rfl rfl rfl rfl
    · exact .translated (rfl : _ = c.log ++ [.resolved .translator answer]) rfl rfl rfl rfl rfl
  · split_ifs at h
    obtain rfl := Option.some.inj h
    exact .of_log rfl (.inl rfl) rfl (Nat.le_refl _)
  · cases h

/-- **Every step** goes on or takes a frame. -/
theorem step_cases {label : ReadLoop.Label} (h : c.step setup label = some c') : Step setup c c' := by
  unfold ReadLoop.Conn.step at h
  split at h
  · obtain rfl := Option.some.inj h
    exact .of_log rfl (.inl rfl) rfl (Nat.le_add_right _ _)
  · obtain rfl := Option.some.inj h
    exact .of_log rfl (.inr rfl) rfl (Nat.le_refl _)
  · obtain rfl := Option.some.inj h
    exact .of_log rfl (.inl rfl) rfl (Nat.le_refl _)
  · obtain ⟨x, -, rfl⟩ := Option.map_eq_some_iff.mp h
    exact .of_log rfl (.inl rfl) rfl (Nat.le_refl _)
  · obtain rfl := Option.some.inj h
    exact .of_log rfl (.inl rfl) rfl (Nat.le_refl _)
  · obtain rfl := Option.some.inj h
    exact .of_log rfl (.inl rfl) rfl (Nat.le_refl _)
  · obtain rfl := Option.some.inj h
    exact .of_log rfl (.inl rfl) rfl (Nat.le_refl _)
  · exact translator_step h
  · exact translator_step h
  · exact translator_step h
  · exact translator_step h
  · exact reader_step h

end

/-! ## Every run -/

section
variable {setup : Setup TokenBucket} {fresh : TokenBucket} {c c' : Conn TokenBucket}

theorem serve_append (bucket : TokenBucket) (earlier later : List Instant) : bucket.serve (earlier ++ later) =
    ((bucket.serve earlier).1 ++ ((bucket.serve earlier).2.serve later).1, ((bucket.serve earlier).2.serve later).2) := by
  induction earlier generalizing bucket with
  | nil => rfl
  | cons now earlier ih => simp only [List.cons_append, TokenBucket.serve, ih]

theorem serve_length (bucket : TokenBucket) (times : List Instant) : (bucket.serve times).1.length = times.length := by
  induction times generalizing bucket with
  | nil => rfl
  | cons now later ih => rw [TokenBucket.serve, List.length_cons, List.length_cons, ih]

def paid (bucket : TokenBucket) (times : List Instant) : ℕ := (bucket.serve times).1.count true

theorem paid_append (bucket : TokenBucket) (earlier later : List Instant) :
    paid bucket (earlier ++ later) = paid bucket earlier + paid (bucket.serve earlier).2 later := by
  unfold paid
  rw [serve_append, List.count_append]

theorem paid_singleton (bucket : TokenBucket) (now : Instant) :
    paid bucket [now] = if (bucket.tryAcquire now).1 then 1 else 0 := by
  unfold paid TokenBucket.serve
  cases (bucket.tryAcquire now).1 <;> rfl

/-- **What holds in every run**: the bucket has served the frames of the log, every frame has paid for the handler that
it calls, and only the last frame may have been refused. -/
structure Paced (fresh : TokenBucket) (c : Conn TokenBucket) : Prop where
  bucket : c.bucket = some (fresh.serve (times c.log)).2
  sorted : (times c.log ++ [c.now]).Pairwise (· ≤ ·)
  spent : ∀ before time rest, c.log = before ++ .admitted time :: rest →
    handlers rest + ofReader c.reader ≤ paid (fresh.serve (times before)).2 (time :: times rest)
  running : c.reader ≠ .returned → ∀ answer ∈ (fresh.serve (times c.log)).1, answer = true

theorem Paced.goes (h : Paced fresh c) {events : List Event} (hlog : c'.log = c.log ++ events)
    (hquiet : times events = []) (hspent : handlers events + ofReader c'.reader ≤ ofReader c.reader)
    (hbucket : c'.bucket = c.bucket) (hnow : c.now ≤ c'.now) (hreturned : c.reader = .returned → c'.reader = .returned) :
    Paced fresh c' := by
  have htimes : times c'.log = times c.log := by rw [hlog, times_append, hquiet, List.append_nil]
  refine ⟨?_, ?_, fun before time rest hsplit => ?_, fun hrunning => ?_⟩
  · rw [hbucket, htimes, h.bucket]
  · obtain ⟨hsorted, -, hle⟩ := List.pairwise_append.mp h.sorted
    rw [htimes]
    refine List.pairwise_append.mpr ⟨hsorted, List.pairwise_singleton _ _, fun time htime now hmem => ?_⟩
    rw [List.mem_singleton.mp hmem]
    exact (hle time htime c.now (List.mem_singleton_self _)).trans hnow
  · rw [hlog] at hsplit
    obtain ⟨earlier, hbefore, rfl⟩ := split_before hquiet hsplit
    have hpaid := h.spent before time earlier hbefore
    rw [handlers_append, times_append, hquiet, List.append_nil]
    omega
  · rw [htimes]
    exact h.running fun hended => hrunning (hreturned hended)

theorem Paced.takes (h : Paced fresh c) (hacquire : setup.tryAcquire = TokenBucket.tryAcquire) {events : List Event}
    (hlog : c'.log = c.log ++ .admitted c.now :: events) (hquiet : times events = [])
    (hspent : handlers events + ofReader c'.reader ≤ if (c.acquire setup).1 then 1 else 0)
    (hbucket : c'.bucket = (c.acquire setup).2.bucket) (hnow : c'.now = c.now) (hrunning : c.reader ≠ .returned)
    (hrefused : (c.acquire setup).1 = false → c'.reader = .returned) : Paced fresh c' := by
  have htimes : times c'.log = times c.log ++ [c.now] := by rw [hlog, times_append, times_admitted, hquiet]
  obtain ⟨hanswer, hbucket'⟩ : (c.acquire setup).1 = ((fresh.serve (times c.log)).2.tryAcquire c.now).1 ∧
      (c.acquire setup).2.bucket = some ((fresh.serve (times c.log)).2.tryAcquire c.now).2 := by
    unfold Conn.acquire
    rw [h.bucket, hacquire]
    exact ⟨rfl, rfl⟩
  rw [hanswer] at hspent hrefused
  refine ⟨?_, ?_, fun before time rest hsplit => ?_, fun hgoes => ?_⟩
  · rw [hbucket, hbucket', htimes, serve_append]
    rfl
  · rw [htimes, hnow]
    refine List.pairwise_append.mpr ⟨h.sorted, List.pairwise_singleton _ _, fun time htime now hmem => ?_⟩
    rw [List.mem_singleton.mp hmem]
    rcases List.mem_append.mp htime with htime | htime
    · exact (List.pairwise_append.mp h.sorted).2.2 time htime c.now (List.mem_singleton_self _)
    · exact (List.mem_singleton.mp htime).le
  · -- the frame that was taken last, or one before it
    rw [hlog, ← List.singleton_append, ← List.append_assoc] at hsplit
    obtain ⟨between, hbefore, rfl⟩ := split_before hquiet hsplit
    rw [handlers_append, times_append, hquiet, List.append_nil]
    rcases List.eq_nil_or_concat between with rfl | ⟨earlier, last, rfl⟩
    · obtain ⟨rfl, hlast⟩ := List.append_inj' hbefore rfl
      obtain ⟨rfl⟩ := Event.admitted.inj (List.cons.inj hlast).1
      rw [show handlers [] = 0 from rfl, Nat.zero_add, show times [] = [] from rfl, paid_singleton]
      exact hspent
    · rw [List.concat_eq_append, ← List.cons_append, ← List.append_assoc] at hbefore
      obtain ⟨hearlier, hlast⟩ := List.append_inj' hbefore rfl
      obtain rfl := (List.cons.inj hlast).1
      have hpaid := h.spent before time earlier hearlier
      have hserved : (fresh.serve (times c.log)).2 = ((fresh.serve (times before)).2.serve (time :: times earlier)).2 := by
        rw [hearlier, times_append, times_admitted, serve_append]
      rw [hserved, ← paid_singleton] at hspent
      rw [List.concat_eq_append, handlers_append, times_append, times_admitted, ← List.cons_append, paid_append]
      have hnone : handlers [.admitted c.now] = 0 := rfl
      have htimes' : times ([] : List Event) = [] := rfl
      rw [htimes']
      omega
  · have hgranted : ((fresh.serve (times c.log)).2.tryAcquire c.now).1 = true := by
      by_contra hno
      exact hgoes (hrefused (by simpa using hno))
    rw [htimes, serve_append]
    refine List.forall_mem_append.mpr ⟨h.running hrunning, fun answer hanswer => ?_⟩
    rw [TokenBucket.serve, TokenBucket.serve, List.mem_singleton] at hanswer
    rw [hanswer, hgranted]

theorem Paced.step (hacquire : setup.tryAcquire = TokenBucket.tryAcquire) {label : ReadLoop.Label} (h : Paced fresh c)
    (hstep : c.step setup label = some c') : Paced fresh c' := by
  cases step_cases hstep with
  | goes events hlog hquiet hspent hbucket hnow hreturned => exact h.goes hlog hquiet hspent hbucket hnow hreturned
  | takes events hlog hquiet hspent hbucket hnow hrunning hrefused =>
      exact h.takes hacquire hlog hquiet hspent hbucket hnow hrunning hrefused

theorem paced_accept (fresh : TokenBucket) (now deadline : Instant) (utcNow : Int) (capacity : ℕ) :
    Paced fresh (Conn.accept now deadline utcNow (some fresh) capacity) := by
  refine ⟨rfl, List.pairwise_singleton _ _, fun before time rest hsplit => ?_, fun _ answer hanswer => by cases hanswer⟩
  exact absurd hsplit.symm (List.append_ne_nil_of_right_ne_nil before (List.cons_ne_nil _ _))

theorem new_fields {settings : RateLimitSettings} {created : Instant} (h : TokenBucket.new settings created = some fresh) :
    fresh.Inv ∧ fresh.capacity = settings.burst.toNat ∧ fresh.refillPerSec = settings.perSecond.toNat := by
  unfold TokenBucket.new at h
  split_ifs at h
  obtain rfl := Option.some.inj h
  exact ⟨⟨Nat.cast_nonneg _, Nat.cast_nonneg _, le_refl _⟩, rfl, rfl⟩

/-- **The rate of a connection.** With the `f64` arithmetic of the bucket taken as exact, and however the connection's tasks,
its client and the services interleave: since any frame that it handed to `admit_frame`, the connection has called no more
handlers than the burst and what the rate refills in the time since; and while its read loop runs, it has taken no more
frames than that, this one included. -/
theorem handlers_within_rate {settings : RateLimitSettings} {created now deadline : Instant} {utcNow : Int} {capacity : ℕ}
    {labels : List ReadLoop.Label} (hacquire : setup.tryAcquire = TokenBucket.tryAcquire)
    (hnew : TokenBucket.new settings created = some fresh)
    (hrun : (system setup (Conn.accept now deadline utcNow (some fresh) capacity)).run
      (Conn.accept now deadline utcNow (some fresh) capacity) labels = some c) :
    ∀ before time rest, c.log = before ++ .admitted time :: rest →
      (handlers rest : ℚ) ≤ settings.burst.toNat + settings.perSecond.toNat * (asSecs c.now - asSecs time) ∧
      (c.reader ≠ .returned → ((times rest).length + 1 : ℚ) ≤
        settings.burst.toNat + settings.perSecond.toNat * (asSecs c.now - asSecs time)) := by
  intro before time rest hsplit
  have hpaced : Paced fresh c :=
    TransitionSystem.run_invariant (fun _ _ _ h hstep => h.step hacquire hstep) (paced_accept fresh now deadline utcNow capacity) hrun
  obtain ⟨hinv, hcapacity, hrate⟩ := new_fields hnew
  have htimes : times c.log = times before ++ time :: times rest := by rw [hsplit, times_append, times_admitted]
  obtain ⟨hsorted, -, huntil⟩ := List.pairwise_append.mp hpaced.sorted
  have hpaid : (paid (fresh.serve (times before)).2 (time :: times rest) : ℚ) ≤
      settings.burst.toNat + settings.perSecond.toNat * (asSecs c.now - asSecs time) := by
    rw [htimes] at hsorted huntil
    have hcount := TokenBucket.serve_count_from (hinv.serve (times before)) (List.pairwise_append.mp hsorted).2.1
      fun t ht => huntil t (List.mem_append_right _ ht) c.now (List.mem_singleton_self _)
    rw [(TokenBucket.serve_capacity _ _).1, (TokenBucket.serve_capacity _ _).2, hcapacity, hrate] at hcount
    exact hcount
  refine ⟨(Nat.cast_le.mpr ?_).trans hpaid, fun hrunning => ?_⟩
  · exact (Nat.le_add_right _ _).trans (hpaced.spent before time rest hsplit)
  · have hall : ∀ answer ∈ ((fresh.serve (times before)).2.serve (time :: times rest)).1, answer = true := by
      have hgranted := hpaced.running hrunning
      rw [htimes, serve_append] at hgranted
      exact (List.forall_mem_append.mp hgranted).2
    have hlength : paid (fresh.serve (times before)).2 (time :: times rest) = (times rest).length + 1 := by
      unfold paid
      rw [List.count_eq_length.mpr fun answer hanswer => (hall answer hanswer).symm, serve_length, List.length_cons]
    rw [hlength, Nat.cast_add_one] at hpaid
    exact hpaid

def burstSetup : Setup TokenBucket where
  prost := tokProst
  uuids := tokSetup.uuids
  tryAcquire := TokenBucket.tryAcquire
  heartbeatTimeout := 45
  roomTx := 7

def burstLabels : List ReadLoop.Label :=
  [.loop, .frame ⟨opC2sBind, tokPayload⟩, .resolved (.ok none), .loop, .frame ⟨opC2sBind, tokPayload⟩, .resolved (.ok none),
    .loop, .frame ⟨opC2sBind, tokPayload⟩]

/-- Two frames in a burst of two call a handler, the third is refused. -/
theorem handlers_within_rate_burst : ∃ fresh c, TokenBucket.new ⟨true, 10, 2⟩ 0 = some fresh ∧
    (system burstSetup (Conn.accept 0 10 0 (some fresh) 4)).run (Conn.accept 0 10 0 (some fresh) 4) burstLabels = some c ∧
      times c.log = [0, 0, 0] ∧ handlers c.log = 2 ∧ c.reader = .returned ∧
      ∀ before time rest, c.log = before ++ .admitted time :: rest →
        (handlers rest : ℚ) ≤ 2 + 10 * (asSecs c.now - asSecs time) := by
  let fresh := (TokenBucket.new ⟨true, 10, 2⟩ 0).get (by decide +kernel)
  have hnew : TokenBucket.new ⟨true, 10, 2⟩ 0 = some fresh := (Option.some_get _).symm
  let c := ((system burstSetup (Conn.accept 0 10 0 (some fresh) 4)).run (Conn.accept 0 10 0 (some fresh) 4)
    burstLabels).get (by decide +kernel)
  have hrun : (system burstSetup (Conn.accept 0 10 0 (some fresh) 4)).run (Conn.accept 0 10 0 (some fresh) 4)
    burstLabels = some c := (Option.some_get _).symm
  refine ⟨fresh, c, hnew, hrun, by decide +kernel, by decide +kernel, by decide +kernel, fun before time rest hsplit => ?_⟩
  exact (handlers_within_rate rfl hnew hrun before time rest hsplit).1

end

end LongshipX.ReadLoop.Pace
