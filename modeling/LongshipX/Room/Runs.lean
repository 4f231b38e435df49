import LongshipX.Lib.Indexed
import LongshipX.Room.CallSteps

/-!
# Every run of the service

New calls, new rooms and the steps of the actors keep the invariant too; so it holds in every reachable state,
and what is true for good is true in every later state.

* `Inv.actor_step`, `Inv.answer` : the rules for actors and for the replies they send;
* `step_stepped` : what a step checks and does, label by label;
* `Inv.step` : one step of anything;
* `run_leads` : every run.
-/

namespace LongshipX.Service
open RoomActor

/-! ## New calls and new rooms -/

section
variable {config : RoomServiceConfig} {s : State} {k : CallId} {r : RoomId}

theorem fact_start (s : State) (k : CallId) (op : Op) : Fact s k ⟨op, op.start, []⟩ := by
  cases op with
  | joinOrCreate room player nickname sink =>
      cases room with
      | none => exact ⟨rfl, rfl⟩
      | some r => exact ⟨rfl, fun hop => by cases hop⟩
  | leave room player reason => exact ⟨List.nodup_singleton _, fun _ _ => List.not_mem_nil⟩
  | leaveAll player reason => exact (rfl : ([] : List RoomId) = [])
  | chat room player text => exact trivial
  | closeAll reason => exact ⟨reason, rfl⟩

theorem Inv.start (h : Inv s) (op : Op) : Leads s { s with calls := s.calls ++ [⟨op, op.start, []⟩] } := by
  have g : Grows s { s with calls := s.calls ++ [⟨op, op.start, []⟩] } :=
    ⟨fun r t ht => ⟨t, ht, RoomTask.Grows.refl t⟩, fun _ hr => hr, fun j c hc => ⟨c, Indexed.append_old hc, rfl, fun _ hx => hx⟩⟩
  refine ⟨g, h.rooms, fun r t ht command hcommand j hj => g.sent (h.asked r t ht command hcommand j hj), fun r t ht => ?_,
    fun r hr => g.at (fun _ _ hg => hg.inserted) (h.registry r hr), h.nodup, fun j c hc => ?_,
    fun j c hc hcreates r hr => ?_⟩
  · obtain ⟨c, hc, hop, htends⟩ := h.created r t ht
    exact ⟨c, Indexed.append_old hc, hop, htends.mono g⟩
  · obtain hold | ⟨-, rfl⟩ := Indexed.append_cases hc
    · obtain ⟨hf, hp⟩ := h.calls j c hold
      exact ⟨hf.mono g, hp.mono g⟩
    · exact ⟨fact_start _ j op, fun _ _ x hx => absurd hx List.not_mem_nil⟩
  · obtain hold | ⟨-, rfl⟩ := Indexed.append_cases hc
    · exact g.at (fun _ _ hg ht => hg.creator.trans ht) (h.owns j c hold hcreates r hr)
    · cases op with
      | joinOrCreate room player nickname sink =>
          cases room with
          | none => cases hr
          | some r => cases hcreates
      | leave | leaveAll | chat | closeAll => cases hcreates

theorem Inv.openRoom (h : Inv s) {op : Op} {sent : List RoomId} (hc : s.calls[k]? = some ⟨op, .create, sent⟩)
    (hfree : s.rooms r = none) :
    Leads s (s.opened config k r) := by
  obtain ⟨hcreates, hsent⟩ : op.creates = true ∧ sent = [] := (h.calls k _ hc).1
  subst hsent
  have hother : ∀ r' t, s.rooms r' = some t →
      Function.update s.rooms r (some (RoomTask.spawn config r k)) r' = some t := by
    intro r' t ht
    have hne : r' ≠ r := fun he => by rw [he, hfree] at ht; cases ht
    rw [Function.update_of_ne hne]
    exact ht
  have g : Grows s (s.opened config k r) := by
    refine ⟨fun r' t ht => ⟨t, hother r' t ht, RoomTask.Grows.refl t⟩, fun r' hr' => ?_, fun j c hj => ?_⟩
    · obtain ⟨⟨t, ht, hinserted⟩, hnot⟩ := hr'
      exact ⟨⟨t, hother r' t ht, hinserted⟩, hnot⟩
    · by_cases hjk : j = k
      · subst hjk
        exact ⟨_, modify_self hj, rfl, fun _ hx => hx⟩
      · exact ⟨c, (modify_of_ne hjk).trans hj, rfl, fun _ hx => hx⟩
  have hcases : ∀ r' t, Function.update s.rooms r (some (RoomTask.spawn config r k)) r' = some t →
      (r' = r ∧ t = RoomTask.spawn config r k) ∨ s.rooms r' = some t := by
    intro r' t ht
    by_cases hr : r' = r
    · subst hr
      rw [Function.update_self] at ht
      exact Or.inl ⟨rfl, (Option.some.inj ht).symm⟩
    · rw [Function.update_of_ne hr] at ht
      exact Or.inr ht
  refine ⟨g, fun r' t ht => ?_, fun r' t ht command hcommand j hj => ?_, fun r' t ht => ?_,
    fun r' hr' => g.at (fun _ _ hg => hg.inserted) (h.registry r' hr'), h.nodup, fun j c hj => ?_,
    fun j c hj hop r' hr' => ?_⟩
  · obtain ⟨rfl, rfl⟩ | ht := hcases r' t ht
    · exact RoomInv.spawn config r' k
    · exact h.rooms r' t ht
  · obtain ⟨rfl, rfl⟩ | ht := hcases r' t ht
    · cases hcommand
    · exact g.sent (h.asked r' t ht command hcommand j hj)
  · obtain ⟨rfl, rfl⟩ | ht := hcases r' t ht
    · exact ⟨_, modify_self hc, hcreates, rfl, rfl⟩
    · obtain ⟨c, hc', hop, htends⟩ := h.created r' t ht
      have hne : t.creator ≠ k := by
        intro he
        rw [he, hc, Option.some.injEq] at hc'
        rw [← hc'] at htends
        exact htends
      exact ⟨c, (modify_of_ne hne).trans hc', hop, htends.mono g⟩
  · obtain ⟨c0, rfl, hc0, rfl⟩ | ⟨-, hc0⟩ := modify_cases hj
    · obtain rfl := Option.some.inj (hc0.symm.trans hc)
      exact ⟨⟨hcreates, rfl, _, Function.update_self _ _ _, rfl⟩, fun _ _ x hx => absurd hx List.not_mem_nil⟩
    · obtain ⟨hf, hp⟩ := h.calls j c hc0
      exact ⟨hf.mono g, hp.mono g⟩
  · obtain ⟨c0, rfl, hc0, rfl⟩ | ⟨-, hc0⟩ := modify_cases hj
    · cases hr'
    · exact g.at (fun _ _ hg ht => hg.creator.trans ht) (h.owns j c hc0 hop r' hr')

end

/-! ## The actors -/

section
variable {s s' : State} {r : RoomId}

/-- **The rule for a step of an actor**: tasks keep their invariant and grow, the registry stays, and calls
change at most by the reply they get. -/
theorem Inv.actor_step (h : Inv s) (g : Grows s s') (hregistry : s'.registry = s.registry)
    (hrooms : ∀ r t', s'.rooms r = some t' → ∃ t, s.rooms r = some t ∧ t'.inserted = t.inserted ∧
      t'.creator = t.creator ∧ RoomInv r t' ∧ ∀ command ∈ t'.accepted, command ∈ t.accepted)
    (hcalls : ∀ (k : CallId) (c : Call), s.calls[k]? = some c → ∃ c', s'.calls[k]? = some c' ∧ c'.op = c.op ∧
      (∀ r inserted, c.pc.Tends s r inserted → c'.pc.Tends s r inserted) ∧ c'.pc.tending = c.pc.tending ∧
      Fact s' k c' ∧ Past s' k c')
    (hlength : s'.calls.length = s.calls.length) : Inv s' := by
  refine ⟨fun r t' ht' => ?_, fun r t' ht' command hcommand j hj => ?_, fun r t' ht' => ?_, fun r hr => ?_, ?_,
    fun k c' hc' => ?_, fun k c' hc' hop r hr => ?_⟩
  · obtain ⟨t, -, -, -, hinv, -⟩ := hrooms r t' ht'
    exact hinv
  · obtain ⟨t, ht, -, -, -, hsub⟩ := hrooms r t' ht'
    exact g.sent (h.asked r t ht command (hsub command hcommand) j hj)
  · obtain ⟨t, ht, hinserted, hcreator, -, -⟩ := hrooms r t' ht'
    obtain ⟨c, hc, hop, htends⟩ := h.created r t ht
    obtain ⟨c', hc', hop', htends', -⟩ := hcalls _ c hc
    refine ⟨c', hcreator ▸ hc', hop' ▸ hop, ?_⟩
    rw [hinserted]
    exact (htends' r _ htends).mono g
  · rw [hregistry] at hr
    exact g.at (fun _ _ hg => hg.inserted) (h.registry r hr)
  · rw [hregistry]
    exact h.nodup
  · have hk : k < s.calls.length := hlength ▸ (List.getElem?_eq_some_iff.mp hc').1
    obtain ⟨c'', hc'', -, -, -, hf, hp⟩ := hcalls k _ (List.getElem?_eq_getElem hk)
    obtain rfl := Option.some.inj (hc'.symm.trans hc'')
    exact ⟨hf, hp⟩
  · have hk : k < s.calls.length := hlength ▸ (List.getElem?_eq_some_iff.mp hc').1
    obtain ⟨c'', hc'', hop', -, htending, -⟩ := hcalls k _ (List.getElem?_eq_getElem hk)
    obtain rfl := Option.some.inj (hc'.symm.trans hc'')
    exact g.at (fun _ _ hg ht => hg.creator.trans ht)
      (h.owns k _ (List.getElem?_eq_getElem hk) (hop' ▸ hop) r (htending ▸ hr))

theorem Inv.update (h : Inv s) {f : RoomTask → RoomTask} {t : RoomTask} (ht : s.rooms r = some t)
    (hinserted : (f t).inserted = t.inserted) (hgrow : t.Grows (f t)) (hinv : RoomInv r (f t))
    (haccepted : ∀ command ∈ (f t).accepted, command ∈ t.accepted) :
    Leads s (s.update r f) := by
  have g : Grows s (s.update r f) := by
    have hrooms : ∀ r' t', s.rooms r' = some t' → ∃ t'', (s.update r f).rooms r' = some t'' ∧ t'.Grows t'' :=
      fun r' t' ht' => State.update_grows (fun t0 ht0 => Option.some.inj (ht.symm.trans ht0) ▸ hgrow) ht'
    refine ⟨hrooms, fun r' hr' => ?_, fun k c hc => ⟨c, hc, rfl, fun _ hx => hx⟩⟩
    obtain ⟨⟨t', ht', hins⟩, hnot⟩ := hr'
    obtain ⟨t'', ht'', hg⟩ := hrooms r' t' ht'
    exact ⟨⟨t'', ht'', hg.inserted hins⟩, hnot⟩
  refine ⟨g, h.actor_step g rfl (fun r' t' ht' => ?_) (fun k c hc => ?_) rfl⟩
  · obtain ⟨t0, rfl, ht0, rfl⟩ | ⟨-, ht0⟩ := State.update_cases ht'
    · obtain rfl := Option.some.inj (ht.symm.trans ht0)
      exact ⟨t, ht, hinserted, hgrow.creator, hinv, haccepted⟩
    · exact ⟨t', ht0, rfl, rfl, h.rooms r' t' ht0, fun _ hx => hx⟩
  · obtain ⟨hf, hp⟩ := h.calls k c hc
    exact ⟨c, hc, rfl, fun _ _ htends => htends, rfl, hf.mono g, hp.mono g⟩

/-- A call that gets a reply from a room, or none. -/
inductive Answered (r : RoomId) (c : Call) : Call → Prop where
  | same : Answered r c c
  | join (reply : Reply Unit) (hpc : c.pc = .joinWait r none) : Answered r c { c with pc := .joinWait r (some reply) }
  | leave (reply : Reply Bool) (todo : List RoomId) (hpc : c.pc = .leaveWait r none todo) :
      Answered r c { c with pc := .leaveWait r (some reply) todo }

theorem answerJoin_cases (r : RoomId) (reply : Reply Unit) (c : Call) : c.answerJoin r reply = c ∨
    (c.pc = .joinWait r none ∧ c.answerJoin r reply = { c with pc := .joinWait r (some reply) }) := by
  obtain ⟨op, pc, sent⟩ := c
  unfold Call.answerJoin
  split
  · next r' hpc =>
      dsimp only at hpc
      subst hpc
      by_cases hr : r' = r
      · subst hr
        exact Or.inr ⟨rfl, if_pos rfl⟩
      · exact Or.inl (if_neg hr)
  · exact Or.inl rfl

theorem answerLeave_cases (r : RoomId) (reply : Reply Bool) (c : Call) : c.answerLeave r reply = c ∨
    ∃ todo, c.pc = .leaveWait r none todo ∧ c.answerLeave r reply = { c with pc := .leaveWait r (some reply) todo } := by
  obtain ⟨op, pc, sent⟩ := c
  unfold Call.answerLeave
  split
  · next r' todo hpc =>
      dsimp only at hpc
      subst hpc
      by_cases hr : r' = r
      · subst hr
        exact Or.inr ⟨todo, rfl, if_pos rfl⟩
      · exact Or.inl (if_neg hr)
  · exact Or.inl rfl

/-- **Replies arrive**: each call that gets one has a true position after it. -/
theorem Inv.answer (h : Inv s) {calls : List Call} (hlength : calls.length = s.calls.length)
    (hcalls : ∀ (k : CallId) (c c' : Call), s.calls[k]? = some c → calls[k]? = some c' →
      Answered r c c' ∧ (Fact s k c → Fact s k c')) :
    Leads s { s with calls := calls } := by
  have hget : ∀ (k : CallId) (c : Call), s.calls[k]? = some c → ∃ c', calls[k]? = some c' := by
    intro k c hc
    have hk : k < calls.length := hlength ▸ (List.getElem?_eq_some_iff.mp hc).1
    exact ⟨_, List.getElem?_eq_getElem hk⟩
  have g : Grows s { s with calls := calls } := by
    refine ⟨fun r t ht => ⟨t, ht, RoomTask.Grows.refl t⟩, fun _ hr => hr, fun k c hc => ?_⟩
    obtain ⟨c', hc'⟩ := hget k c hc
    refine ⟨c', hc', ?_⟩
    cases (hcalls k c c' hc hc').1 with
    | same | join | leave => exact ⟨rfl, fun _ hx => hx⟩
  refine ⟨g, h.actor_step g rfl (fun r t ht => ⟨t, ht, rfl, rfl, h.rooms r t ht, fun _ hx => hx⟩) (fun k c hc => ?_) hlength⟩
  obtain ⟨c', hc'⟩ := hget k c hc
  obtain ⟨hanswered, hfact⟩ := hcalls k c c' hc hc'
  obtain ⟨hf, hp⟩ := h.calls k c hc
  refine ⟨c', hc', ?_⟩
  have hf' := (hfact hf).mono g
  cases hanswered with
  | same => exact ⟨rfl, fun _ _ htends => htends, rfl, hf', hp.mono g⟩
  | join reply hpc =>
      refine ⟨rfl, fun _ _ htends => by rw [hpc] at htends; exact htends, by rw [hpc]; rfl, hf', fun hop _ x hx _ => ?_⟩
      exact g.leaveDone (hp hop (by rw [hpc]; simp) x hx (by rw [hpc]; simp [Pc.leaving]))
  | leave reply todo hpc =>
      refine ⟨rfl, fun _ _ htends => by rw [hpc] at htends; exact htends, by rw [hpc]; rfl, hf', fun hop _ x hx hne => ?_⟩
      exact g.leaveDone (hp hop (by rw [hpc]; simp) x hx (by rw [hpc]; exact hne))

theorem Inv.perform (h : Inv s) {t : RoomTask} (ht : s.rooms r = some t) {e : Effect CallId}
    (hbacked : t.Backs e) : Leads s (s.perform r e) := by
  cases e with
  | broadcast targets event =>
      exact ⟨⟨fun r t ht => ⟨t, ht, RoomTask.Grows.refl t⟩, fun _ hr => hr, fun _ c hc => ⟨c, hc, rfl, fun _ hx => hx⟩⟩, h⟩
  | replyJoin j outcome =>
      refine h.answer (r := r) (List.length_modify _ _ _) fun k c c' hc hc' => ?_
      obtain ⟨c0, rfl, hc0, rfl⟩ | ⟨-, hc0⟩ := modify_cases hc'
      · obtain rfl := Option.some.inj (hc.symm.trans hc0)
        obtain hsame | ⟨hpc, hnew⟩ := answerJoin_cases r (.answer outcome) c
        · rw [hsame]
          exact ⟨.same, fun hf => hf⟩
        · rw [hnew]
          refine ⟨.join _ hpc, fun _ => ?_⟩
          cases outcome with
          | ok _ => exact ⟨t, ht, hbacked⟩
          | error err => exact ⟨t, ht, hbacked⟩
      · obtain rfl := Option.some.inj (hc.symm.trans hc0)
        exact ⟨.same, fun hf => hf⟩
  | replyLeave j outcome =>
      obtain ⟨hleft, left, rfl⟩ := hbacked
      refine h.answer (r := r) (List.length_modify _ _ _) fun k c c' hc hc' => ?_
      obtain ⟨c0, rfl, hc0, rfl⟩ | ⟨-, hc0⟩ := modify_cases hc'
      · obtain rfl := Option.some.inj (hc.symm.trans hc0)
        obtain hsame | ⟨todo, hpc, hnew⟩ := answerLeave_cases r (.answer (.ok left)) c
        · rw [hsame]
          exact ⟨.same, fun hf => hf⟩
        · rw [hnew]
          refine ⟨.leave _ todo hpc, fun hf => ?_⟩
          unfold Fact at hf
          rw [hpc] at hf
          exact ⟨hf, t, ht, hleft⟩
      · obtain rfl := Option.some.inj (hc.symm.trans hc0)
        exact ⟨.same, fun hf => hf⟩

theorem Inv.lose (h : Inv s) {t : RoomTask} (ht : s.rooms r = some t) (hreceiver : t.receiver = false)
    {waiting : List CallId} (hwaiting : ∀ k ∈ waiting, t.inserted = true) :
    Leads s { s with calls := s.calls.mapIdx fun k c => if k ∈ waiting then c.lose r else c } := by
  have hclosed := ((h.rooms r t ht).dropped hreceiver).1
  refine h.answer (r := r) List.length_mapIdx fun k c c' hc hc' => ?_
  rw [List.getElem?_mapIdx, hc, Option.map_some, Option.some.injEq] at hc'
  subst hc'
  split_ifs with hk
  · have hinserted := hwaiting k hk
    unfold Call.lose
    obtain hsame | ⟨hpc, hnew⟩ := answerJoin_cases r .lost c
    · rw [hsame]
      obtain hsame | ⟨todo, hpc, hnew⟩ := answerLeave_cases r .lost c
      · rw [hsame]
        exact ⟨.same, fun hf => hf⟩
      · rw [hnew]
        refine ⟨.leave _ todo hpc, fun hf => ?_⟩
        unfold Fact at hf
        rw [hpc] at hf
        exact ⟨hf, t, ht, hreceiver, hinserted⟩
    · rw [hnew]
      exact ⟨.join .lost hpc, fun _ => ⟨t, ht, hclosed⟩⟩
  · exact ⟨.same, fun hf => hf⟩

end

/-! ## Every step -/

section
variable {config : RoomServiceConfig} {s s' : State}

theorem RoomTask.Grows.trans {t₁ t₂ t₃ : RoomTask} (g : t₁.Grows t₂) (g' : t₂.Grows t₃) : t₁.Grows t₃ where
  creator := g'.creator.trans g.creator
  inserted h := g'.inserted (g.inserted h)
  closed h := g'.closed (g.closed h)
  receiver h := g'.receiver (g.receiver h)
  had h := g'.had (g.had h)
  handled x hx := g'.handled x (g.handled x hx)
  firstJoin k hk := g'.firstJoin k (g.firstJoin k hk)
  alive h := g'.alive (g.alive h)
  emptied k hk he := g.emptied k hk (g'.emptied k (g.settled hk) he)

theorem Grows.refl (s : State) : Grows s s :=
  ⟨fun _ t ht => ⟨t, ht, RoomTask.Grows.refl t⟩, fun _ hr => hr, fun _ c hc => ⟨c, hc, rfl, fun _ hx => hx⟩⟩

theorem Grows.trans {s₁ s₂ s₃ : State} (g : Grows s₁ s₂) (g' : Grows s₂ s₃) : Grows s₁ s₃ := by
  refine ⟨fun r t ht => ?_, fun r hr => g'.gone r (g.gone r hr), fun k c hc => ?_⟩
  · obtain ⟨t', ht', hg⟩ := g.rooms r t ht
    obtain ⟨t'', ht'', hg'⟩ := g'.rooms r t' ht'
    exact ⟨t'', ht'', hg.trans hg'⟩
  · obtain ⟨c', hc', hop, hsent⟩ := g.calls k c hc
    obtain ⟨c'', hc'', hop', hsent'⟩ := g'.calls k c' hc'
    exact ⟨c'', hc'', hop'.trans hop, fun r hr => hsent' r (hsent r hr)⟩

theorem Leads.trans {s₁ s₂ s₃ : State} (l : Leads s₁ s₂) (l' : Leads s₂ s₃) : Leads s₁ s₃ :=
  ⟨l.grows.trans l'.grows, l'.inv⟩

/-- **What one step does**: one case for each label, with what the step checks first. -/
inductive Stepped (config : RoomServiceConfig) (s : State) : Label → State → Prop where
  | start (op : Op) : Stepped config s (.start op) { s with calls := s.calls ++ [⟨op, op.start, []⟩] }
  | openRoom (k : CallId) (r : RoomId) (op : Op) (sent : List RoomId) (hc : s.calls[k]? = some ⟨op, .create, sent⟩)
      (hfree : s.rooms r = none) : Stepped config s (.openRoom k r) (s.opened config k r)
  | next (k : CallId) (c : Call) (act : Act) (pc : Pc) (hc : s.calls[k]? = some c)
      (hadvance : advance config s k c = some (act, pc)) : Stepped config s (.next k) (s.move k act pc)
  | liveHandles (k : CallId) (order : List RoomId) (op : Op) (sent : List RoomId)
      (hc : s.calls[k]? = some ⟨op, .liveHandles, sent⟩) (horder : order.Perm (s.apply .retain).registry) :
      Stepped config s (.liveHandles k order) (s.move k .retain (leaveNext order))
  | drain (k : CallId) (order : List RoomId) (op : Op) (sent : List RoomId) (hc : s.calls[k]? = some ⟨op, .drain, sent⟩)
      (horder : order.Perm s.registry) : Stepped config s (.drain k order) (s.move k .drain (closeNext order))
  | cancel (k : CallId) (c : Call) (hc : s.calls[k]? = some c) (hover : c.pc.over = false) :
      Stepped config s (.cancel k) (s.move k .skip .cancelled)
  | process (r : RoomId) (t : RoomTask) (command : RoomCommand CallId) (rest : List (RoomCommand CallId))
      (ht : s.rooms r = some t) (hidle : t.idle = true) (hqueue : t.queue = command :: rest) :
      Stepped config s (.process r) (s.update r fun t => t.process command rest)
  | perform (r : RoomId) (t : RoomTask) (e : Effect CallId) (rest : List (Effect CallId)) (ht : s.rooms r = some t)
      (houtbox : t.outbox = e :: rest) :
      Stepped config s (.perform r) ((s.update r fun t => { t with outbox := rest }).perform r e)
  | hangup (r : RoomId) (t : RoomTask) (ht : s.rooms r = some t) (hidle : t.idle = true) :
      Stepped config s (.hangup r) (s.update r fun t =>
        { t with actor := (t.actor.finish (ρ := CallId) "房间通道已关闭").1,
                 outbox := (t.actor.finish "房间通道已关闭").2, stopping := true })
  | terminate (r : RoomId) (t : RoomTask) (ht : s.rooms r = some t) (hstopping : t.stopping = true)
      (houtbox : t.outbox = []) :
      Stepped config s (.terminate r)
        { s.update r RoomTask.terminated with
          calls := s.calls.mapIdx fun k c => if k ∈ t.queue.filterMap replyOf then c.lose r else c }

theorem step_stepped {label : Label} (hstep : s.step config label = some s') : Stepped config s label s' := by
  cases label with
  | start op =>
      obtain rfl := Option.some.inj hstep
      exact .start op
  | openRoom k r =>
      simp only [State.step] at hstep
      split at hstep
      · next op sent hc =>
          split_ifs at hstep with hfree
          obtain rfl := Option.some.inj hstep
          exact .openRoom k r op sent hc (Option.isNone_iff_eq_none.mp hfree)
      · cases hstep
  | next k =>
      simp only [State.step] at hstep
      split at hstep
      · next c hc =>
          obtain ⟨⟨act, pc⟩, hadvance, rfl⟩ := Option.map_eq_some_iff.mp hstep
          exact .next k c act pc hc hadvance
      · cases hstep
  | liveHandles k order =>
      simp only [State.step] at hstep
      split at hstep
      · next op sent hc =>
          split_ifs at hstep with horder
          obtain rfl := Option.some.inj hstep
          exact .liveHandles k order op sent hc horder
      · cases hstep
  | drain k order =>
      simp only [State.step] at hstep
      split at hstep
      · next op sent hc =>
          split_ifs at hstep with horder
          obtain rfl := Option.some.inj hstep
          exact .drain k order op sent hc horder
      · cases hstep
  | cancel k =>
      simp only [State.step] at hstep
      split at hstep
      · next c hc =>
          split_ifs at hstep with hover
          obtain rfl := Option.some.inj hstep
          exact .cancel k c hc (by simpa using hover)
      · cases hstep
  | process r =>
      simp only [State.step] at hstep
      split at hstep
      · next t ht =>
          split at hstep
          · next command rest hidle hqueue =>
              obtain rfl := Option.some.inj hstep
              exact .process r t command rest ht hidle hqueue
          · cases hstep
      · cases hstep
  | perform r =>
      simp only [State.step] at hstep
      split at hstep
      · next t ht =>
          split at hstep
          · next e rest houtbox =>
              obtain rfl := Option.some.inj hstep
              exact .perform r t e rest ht houtbox
          · cases hstep
      · cases hstep
  | hangup r =>
      simp only [State.step] at hstep
      split at hstep
      · next t ht =>
          split_ifs at hstep with hguard
          obtain rfl := Option.some.inj hstep
          simp only [Bool.and_eq_true] at hguard
          exact .hangup r t ht hguard.1.1.1
      · cases hstep
  | terminate r =>
      simp only [State.step] at hstep
      split at hstep
      · next t ht =>
          split_ifs at hstep with hguard
          obtain rfl := Option.some.inj hstep
          simp only [Bool.and_eq_true, List.isEmpty_iff] at hguard
          exact .terminate r t ht hguard.1.2 hguard.2
      · cases hstep

/-- **One step of the service.** -/
theorem Inv.step (h : Inv s) {label : Label} (hstep : s.step config label = some s') : Leads s s' := by
  cases step_stepped hstep with
  | start op => exact h.start op
  | openRoom k r op sent hc hfree => exact h.openRoom hc hfree
  | next k c act pc hc hadvance => exact h.next hc hadvance
  | liveHandles k order op sent hc horder => exact h.liveHandles hc horder
  | drain k order op sent hc horder => exact h.drain hc horder
  | cancel k c hc hover => exact h.cancel hc
  | process r t command rest ht hidle hqueue =>
      have hinv := h.rooms r t ht
      exact h.update ht rfl (hinv.grows_process hidle hqueue) (hinv.process hidle hqueue)
        fun _ hx => by rwa [RoomTask.accepted_process hqueue] at hx
  | perform r t e rest ht houtbox =>
      have hinv := h.rooms r t ht
      have hpop := h.update (f := fun t => { t with outbox := rest }) ht rfl (t.grows_pop rest) (hinv.pop houtbox)
        fun _ hx => hx
      refine hpop.trans (hpop.inv.perform (State.update_self ht) ?_)
      exact (t.grows_pop rest).backs (hinv.backed e (by rw [houtbox]; exact List.mem_cons_self))
  | hangup r t ht hidle =>
      have hinv := h.rooms r t ht
      have heq := hinv.hangup_eq hidle
      refine h.update ht rfl ?_ ?_ fun _ hx => hx
      · exact heq ▸ t.grows_hungUp
      · exact heq ▸ hinv.hungUp hidle
  | terminate r t ht hstopping houtbox =>
      have hinv := h.rooms r t ht
      have hclosed : t.actor.closed = true := hinv.stopping ▸ hstopping
      have haccepted : ∀ command ∈ t.terminated.accepted, command ∈ t.accepted := by
        intro command hcommand
        exact List.mem_append_left _ (by simpa [RoomTask.accepted, RoomTask.terminated] using hcommand)
      have hdrop := h.update ht rfl (RoomTask.grows_terminated hclosed) (hinv.terminated hstopping houtbox) haccepted
      refine hdrop.trans (hdrop.inv.lose (State.update_self ht) rfl fun k hk => ?_)
      -- somebody waits, so the queue was not empty, so the room was registered
      cases hinserted : t.inserted with
      | true => exact hinserted
      | false =>
          rw [(hinv.hidden hinserted).1] at hk
          cases hk

/-- **Who takes a step**: a new call, a room being opened, a call that moves or is dropped, or an actor, which
leaves the registry and the `inserted` marks alone and changes calls by replies only. -/
inductive Taken (config : RoomServiceConfig) (s : State) : Label → State → Prop where
  | start (op : Op) : Taken config s (.start op) { s with calls := s.calls ++ [⟨op, op.start, []⟩] }
  | opened (k : CallId) (r : RoomId) (c : Call) (hc : s.calls[k]? = some c) (hpc : c.pc = .create)
      (hfree : s.rooms r = none) : Taken config s (.openRoom k r) (s.opened config k r)
  | next (k : CallId) (c : Call) (act : Act) (pc : Pc) (hc : s.calls[k]? = some c)
      (hadvance : advance config s k c = some (act, pc)) : Taken config s (.next k) (s.move k act pc)
  | retain (k : CallId) (c : Call) (order : List RoomId) (hc : s.calls[k]? = some c) (hpc : c.pc = .liveHandles)
      (horder : order.Perm (s.apply .retain).registry) :
      Taken config s (.liveHandles k order) (s.move k .retain (leaveNext order))
  | drain (k : CallId) (c : Call) (order : List RoomId) (hc : s.calls[k]? = some c) (hpc : c.pc = .drain) :
      Taken config s (.drain k order) (s.move k .drain (closeNext order))
  | cancel (k : CallId) (c : Call) (hc : s.calls[k]? = some c) (hover : c.pc.over = false) :
      Taken config s (.cancel k) (s.move k .skip .cancelled)
  | actor (label : Label) (s' : State) (hregistry : s'.registry = s.registry)
      (hrooms : ∀ r t', s'.rooms r = some t' → ∃ t, s.rooms r = some t ∧ t'.inserted = t.inserted)
      (hcalls : ∀ (k : CallId) (c' : Call), s'.calls[k]? = some c' → ∃ c r, s.calls[k]? = some c ∧ Answered r c c') :
      Taken config s label s'

theorem update_inserted {r₀ : RoomId} {f : RoomTask → RoomTask} (hf : ∀ t, (f t).inserted = t.inserted) :
    ∀ r t', (s.update r₀ f).rooms r = some t' → ∃ t, s.rooms r = some t ∧ t'.inserted = t.inserted := by
  intro r t' ht'
  obtain ⟨t, rfl, ht, rfl⟩ | ⟨-, ht⟩ := State.update_cases ht'
  · exact ⟨t, ht, hf t⟩
  · exact ⟨t', ht, rfl⟩

theorem answered_join (r : RoomId) (reply : Reply Unit) (c : Call) : Answered r c (c.answerJoin r reply) := by
  obtain hsame | ⟨hpc, hnew⟩ := answerJoin_cases r reply c
  · rw [hsame]
    exact .same
  · rw [hnew]
    exact .join reply hpc

theorem answered_leave (r : RoomId) (reply : Reply Bool) (c : Call) : Answered r c (c.answerLeave r reply) := by
  obtain hsame | ⟨todo, hpc, hnew⟩ := answerLeave_cases r reply c
  · rw [hsame]
    exact .same
  · rw [hnew]
    exact .leave reply todo hpc

theorem answered_lose (r : RoomId) (c : Call) : Answered r c (c.lose r) := by
  unfold Call.lose
  obtain hsame | ⟨hpc, hnew⟩ := answerJoin_cases r .lost c
  · rw [hsame]
    exact answered_leave r .lost c
  · rw [hnew]
    exact .join .lost hpc

theorem step_taken {label : Label} (hstep : s.step config label = some s') : Taken config s label s' := by
  have hsame : ∀ (k : CallId) (c' : Call), s.calls[k]? = some c' → ∃ c r, s.calls[k]? = some c ∧ Answered r c c' :=
    fun k c' hc' => ⟨c', ⟨0⟩, hc', .same⟩
  cases step_stepped hstep with
  | start op => exact .start op
  | openRoom k r op sent hc hfree => exact .opened k r _ hc rfl hfree
  | next k c act pc hc hadvance => exact .next k c act pc hc hadvance
  | liveHandles k order op sent hc horder => exact .retain k _ order hc rfl horder
  | drain k order op sent hc horder => exact .drain k _ order hc rfl
  | cancel k c hc hover => exact .cancel k c hc hover
  | process | hangup => exact .actor _ _ rfl (update_inserted fun _ => rfl) hsame
  | perform r t e rest =>
      cases e with
      | broadcast => exact .actor _ _ rfl (update_inserted fun _ => rfl) hsame
      | replyJoin j outcome =>
          refine .actor _ _ rfl (update_inserted fun _ => rfl) fun k c' hc' => ?_
          obtain ⟨c, rfl, hc, rfl⟩ | ⟨-, hc⟩ := modify_cases hc'
          · exact ⟨c, r, hc, answered_join r _ c⟩
          · exact hsame k c' hc
      | replyLeave j outcome =>
          refine .actor _ _ rfl (update_inserted fun _ => rfl) fun k c' hc' => ?_
          obtain ⟨c, rfl, hc, rfl⟩ | ⟨-, hc⟩ := modify_cases hc'
          · exact ⟨c, r, hc, answered_leave r _ c⟩
          · exact hsame k c' hc
  | terminate r t =>
      refine .actor _ _ rfl (update_inserted fun _ => rfl) fun k c' hc' => ?_
      obtain ⟨c, hc, rfl⟩ := Option.map_eq_some_iff.mp (List.getElem?_mapIdx.symm.trans hc')
      refine ⟨c, r, hc, ?_⟩
      split_ifs
      · exact answered_lose r c
      · exact .same

theorem step_unopened {label : Label} (hstep : s.step config label = some s') {r : RoomId}
    (hlabel : ∀ k, label ≠ .openRoom k r) (hr : s.rooms r = none) : s'.rooms r = none := by
  have hmove : ∀ {k act pc}, (s.move k act pc).rooms r = none := by
    intro k act pc
    rw [Option.eq_none_iff_forall_ne_some]
    intro t' ht'
    obtain ⟨t, ht, -⟩ := State.move_rooms ht'
    rw [hr] at ht
    cases ht
  cases step_taken hstep with
  | start op => exact hr
  | opened k r₀ =>
      refine (Function.update_of_ne ?_ _ s.rooms).trans hr
      rintro rfl
      exact hlabel k rfl
  | next | retain | drain | cancel => exact hmove
  | actor label s' hregistry hrooms =>
      rw [Option.eq_none_iff_forall_ne_some]
      intro t' ht'
      obtain ⟨t, ht, -⟩ := hrooms r t' ht'
      rw [hr] at ht
      cases ht

/-- What one step does to one call. -/
inductive CallStep (config : RoomServiceConfig) (s s' : State) (label : Label) (k : CallId) (c : Call) :
    Call → Prop where
  | same : CallStep config s s' label k c c
  | opened (r : RoomId) (hpc : c.pc = .create) : CallStep config s s' label k c { c with pc := .insert r }
  | next (act : Act) (pc : Pc) (hadvance : advance config s k c = some (act, pc)) (hs' : s' = s.move k act pc) :
      CallStep config s s' label k c (c.moved act pc)
  | retain (order : List RoomId) (hpc : c.pc = .liveHandles) (horder : order.Perm (s.apply .retain).registry) :
      CallStep config s s' label k c (c.moved .retain (leaveNext order))
  | drain (order : List RoomId) (hpc : c.pc = .drain) : CallStep config s s' label k c (c.moved .drain (closeNext order))
  | cancel (hlabel : label = .cancel k) (hover : c.pc.over = false) :
      CallStep config s s' label k c (c.moved .skip .cancelled)
  | answered (r : RoomId) (c' : Call) (h : Answered r c c') : CallStep config s s' label k c c'

theorem Taken.call {label : Label} (h : Taken config s label s') {k : CallId} {c' : Call} (hc' : s'.calls[k]? = some c') :
    (k = s.calls.length ∧ ∃ op, label = .start op ∧ c' = ⟨op, op.start, []⟩) ∨
      ∃ c, s.calls[k]? = some c ∧ CallStep config s s' label k c c' := by
  cases h with
  | start op =>
      obtain hold | ⟨hlast, rfl⟩ := Indexed.append_cases hc'
      · exact Or.inr ⟨c', hold, .same⟩
      · exact Or.inl ⟨hlast, op, rfl, rfl⟩
  | opened j r c hc hpc =>
      obtain ⟨c₀, rfl, hc₀, rfl⟩ | ⟨-, hc₀⟩ := modify_cases hc'
      · obtain rfl := Option.some.inj (hc.symm.trans hc₀)
        exact Or.inr ⟨c, hc, .opened r hpc⟩
      · exact Or.inr ⟨c', hc₀, .same⟩
  | next j c act pc hc hadvance =>
      obtain ⟨c₀, rfl, hc₀, rfl⟩ | ⟨-, hc₀⟩ := State.move_cases hc'
      · obtain rfl := Option.some.inj (hc.symm.trans hc₀)
        exact Or.inr ⟨c, hc, .next act pc hadvance rfl⟩
      · exact Or.inr ⟨c', hc₀, .same⟩
  | retain j c order hc hpc horder =>
      obtain ⟨c₀, rfl, hc₀, rfl⟩ | ⟨-, hc₀⟩ := State.move_cases hc'
      · obtain rfl := Option.some.inj (hc.symm.trans hc₀)
        exact Or.inr ⟨c, hc, .retain order hpc horder⟩
      · exact Or.inr ⟨c', hc₀, .same⟩
  | drain j c order hc hpc =>
      obtain ⟨c₀, rfl, hc₀, rfl⟩ | ⟨-, hc₀⟩ := State.move_cases hc'
      · obtain rfl := Option.some.inj (hc.symm.trans hc₀)
        exact Or.inr ⟨c, hc, .drain order hpc⟩
      · exact Or.inr ⟨c', hc₀, .same⟩
  | cancel j c hc hover =>
      obtain ⟨c₀, rfl, hc₀, rfl⟩ | ⟨-, hc₀⟩ := State.move_cases hc'
      · obtain rfl := Option.some.inj (hc.symm.trans hc₀)
        exact Or.inr ⟨c, hc, .cancel rfl hover⟩
      · exact Or.inr ⟨c', hc₀, .same⟩
  | actor label s' hregistry hrooms hcalls =>
      obtain ⟨c, r, hc, hanswered⟩ := hcalls k c' hc'
      exact Or.inr ⟨c, hc, .answered r c' hanswered⟩

/-- What one step does to one room. -/
inductive RoomStep (s : State) (r : RoomId) (t : RoomTask) : RoomTask → Prop where
  | same : RoomStep s r t t
  | inserted : RoomStep s r t { t with inserted := true }
  | push (k : CallId) (c : Call) (command : RoomCommand CallId) (hc : s.calls[k]? = some c) (hover : c.pc.over = false)
      (hsends : ∀ j, replyOf command = some j → c.op.Sends k command) : RoomStep s r t (t.push command)
  | process (command : RoomCommand CallId) (rest : List (RoomCommand CallId)) (hidle : t.idle = true)
      (hqueue : t.queue = command :: rest) : RoomStep s r t (t.process command rest)
  | pop (rest : List (Effect CallId)) : RoomStep s r t { t with outbox := rest }
  | hungUp (hidle : t.idle = true) : RoomStep s r t t.hungUp
  | terminated (hstopping : t.stopping = true) : RoomStep s r t t.terminated

theorem advance_not_over {k : CallId} {c : Call} {x : Act × Pc} (hadvance : advance config s k c = some x) :
    c.pc.over = false := by
  obtain ⟨op, pc, sent⟩ := c
  cases hover : pc.over with
  | false => rfl
  | true =>
      cases pc with
      | returned | failed | cancelled => cases op <;> cases hadvance
      | create | insert | joinLookup | joinSend | joinWait | joinPublish | undo | liveHandles | leaveLookup | leaveSend
      | leaveWait | leaveForget | leavePublish | chatLookup | chatSend | drain | closeSend => cases hover

theorem roomStep_update {r r₀ : RoomId} {f : RoomTask → RoomTask} {t₀ t' : RoomTask} (ht₀ : s.rooms r₀ = some t₀)
    (hf : RoomStep s r₀ t₀ (f t₀)) (ht' : (s.update r₀ f).rooms r = some t') :
    ∃ t, s.rooms r = some t ∧ RoomStep s r t t' := by
  obtain ⟨t, rfl, ht, rfl⟩ | ⟨-, ht⟩ := State.update_cases ht'
  · obtain rfl := Option.some.inj (ht₀.symm.trans ht)
    exact ⟨t₀, ht₀, hf⟩
  · exact ⟨t', ht, .same⟩

theorem Inv.step_room (h : Inv s) {label : Label} (hstep : s.step config label = some s') {r : RoomId} {t' : RoomTask}
    (ht' : s'.rooms r = some t') :
    (s.rooms r = none ∧ ∃ k, t' = RoomTask.spawn config r k) ∨ ∃ t, s.rooms r = some t ∧ RoomStep s r t t' := by
  cases step_stepped hstep with
  | start | liveHandles | drain | cancel => exact Or.inr ⟨t', ht', .same⟩
  | openRoom k r₀ op sent hc hfree =>
      by_cases hr : r = r₀
      · subst hr
        obtain rfl := Option.some.inj ((Function.update_self r _ s.rooms).symm.trans ht')
        exact Or.inl ⟨hfree, k, rfl⟩
      · exact Or.inr ⟨t', (Function.update_of_ne hr _ s.rooms).symm.trans ht', .same⟩
  | next k c act pc hc hadvance =>
      obtain ⟨t, ht, rfl | ⟨-, rfl⟩ | ⟨command, rfl, rfl⟩⟩ := State.move_rooms ht'
      · exact Or.inr ⟨t', ht, .same⟩
      · exact Or.inr ⟨t, ht, .inserted⟩
      · refine Or.inr ⟨t, ht, .push k c command hc (advance_not_over hadvance) ?_⟩
        cases advance_acts hadvance with
        | enqueue _ _ hsends => exact hsends
  | process r₀ t₀ command rest ht₀ hidle hqueue =>
      exact Or.inr (roomStep_update ht₀ (.process command rest hidle hqueue) ht')
  | perform r₀ t₀ e rest ht₀ houtbox =>
      have hrooms : (s.update r₀ fun task => { task with outbox := rest }).rooms r = some t' := by
        cases e with
        | replyJoin | replyLeave | broadcast => exact ht'
      exact Or.inr (roomStep_update ht₀ (.pop rest) hrooms)
  | hangup r₀ t₀ ht₀ hidle =>
      have heq := (h.rooms r₀ t₀ ht₀).hangup_eq hidle
      exact Or.inr (roomStep_update ht₀ (heq ▸ .hungUp hidle) ht')
  | terminate r₀ t₀ ht₀ hstopping houtbox =>
      exact Or.inr (roomStep_update ht₀ (.terminated hstopping) ht')

theorem init_inv (config : RoomServiceConfig) : Inv (system config).init where
  rooms _ _ h := by cases h
  asked _ _ h := by cases h
  created _ _ h := by cases h
  registry _ h := by cases h
  nodup := List.nodup_nil
  calls _ _ h := by cases h
  owns _ _ h := by cases h

/-- **Every run keeps the invariant**, and whatever state it passes grows into its last one. -/
theorem run_leads {labels : List Label} (h : Inv s) (hrun : (system config).run s labels = some s') : Leads s s' :=
  TransitionSystem.run_invariant (fun _ _ _ l hstep => l.trans (l.inv.step hstep)) ⟨Grows.refl s, h⟩ hrun

end

end LongshipX.Service
