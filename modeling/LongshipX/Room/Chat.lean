import LongshipX.Room.Runs

/-!
# The two checks of a chat text

`RoomService::chat` checks the text that the client sent, `RoomActor::handle_chat` checks the one that the service passes
on. Both trim it, and both refuse an empty one and one of more than 512 characters.

* `Passes` : the check itself; `refusesChat_iff`, `handleChat_eq` : what the service and what the actor make of it;
* `Handled.lookup` : where a member comes from; `RoomTask.InAs` : the nickname of the `Join` it came in by;
* `ChatInv` : the invariant, `ChatInv.step`, `run_chat`;
* `chat_checks_agree` : the two together, over every run of the service.
-/

namespace LongshipX

/-- A text that may be broadcast, once it is trimmed. -/
def Passes (text : String) : Prop := (Text.trim text).isEmpty = false ∧ (Text.trim text).length ≤ maxChatChars

instance (text : String) : Decidable (Passes text) :=
  inferInstanceAs (Decidable ((Text.trim text).isEmpty = false ∧ (Text.trim text).length ≤ maxChatChars))

theorem passes_trim {text : String} : Passes (Text.trim text) ↔ Passes text := by
  unfold Passes
  rw [Text.trim_trim]

namespace RoomActor
variable {ρ : Type}

/-- **What the actor makes of a text.** -/
theorem handleChat_eq (a : RoomActor) (player : PlayerId) (text : String) :
    a.handleChat (ρ := ρ) player text = match a.members.lookup player with
      | none => []
      | some member =>
        if Passes text then [.broadcast a.sinks (.chat a.room.id player member.nickname (Text.trim text))] else [] := by
  unfold handleChat
  cases a.members.lookup player with
  | none => rfl
  | some member =>
      dsimp only
      by_cases hpasses : Passes text
      · have hdiscard : ((Text.trim text).isEmpty || decide ((Text.trim text).length > maxChatChars)) = false := by
          rw [hpasses.1, Bool.false_or, decide_eq_false_iff_not]
          exact Nat.not_lt.mpr hpasses.2
        rw [if_pos hpasses, hdiscard]
        rfl
      · have hdiscard : ((Text.trim text).isEmpty || decide ((Text.trim text).length > maxChatChars)) = true := by
          rw [Bool.or_eq_true, decide_eq_true_eq]
          by_contra hboth
          rw [not_or, Bool.not_eq_true] at hboth
          exact hpasses ⟨hboth.1, Nat.not_lt.mp hboth.2⟩
        rw [if_neg hpasses, hdiscard]
        rfl

/-- **Where a member comes from**: it was there before the command, or the command is the `Join` that let it in. -/
theorem Handled.lookup {a a' : RoomActor} {command : RoomCommand ρ} {effects : List (Effect ρ)} {stop : Bool}
    (hh : Handled a command a' effects stop) {player : PlayerId} {member : Member}
    (hmember : a'.members.lookup player = some member) :
    a.members.lookup player = some member ∨
      (player ∉ a.room.members ∧ ∃ reply, command = .join player member.nickname member.sink reply) := by
  have hleft : ∀ p, (a.members.erase p).lookup player = some member → a.members.lookup player = some member := by
    intro p herase
    by_cases hp : player = p
    · rw [hp, AList.lookup_erase] at herase
      cases herase
    · rwa [AList.lookup_erase_ne hp] at herase
  cases hh with
  | joinNew p nickname sink reply hmem hplace =>
      by_cases hp : player = p
      · subst hp
        have hself : (a.members.insert player ⟨nickname, sink⟩).lookup player = some member := hmember
        rw [AList.lookup_insert] at hself
        obtain rfl := Option.some.inj hself
        exact Or.inr ⟨hmem, reply, rfl⟩
      · have hother : (a.members.insert p ⟨nickname, sink⟩).lookup player = some member := hmember
        rw [AList.lookup_insert_ne hp] at hother
        exact Or.inl hother
  | leaveOthers p => exact Or.inl (hleft p hmember)
  | leaveLast p => exact Or.inl (hleft p hmember)
  | joinAgain | joinFull | chatIgnored | chatSent | leaveOutsider | close => exact Or.inl hmember

end RoomActor

namespace Service
open RoomActor

/-! ## The check of the service -/

/-- `chat`, at its start, answers with a validation error. -/
def RefusesChat (config : RoomServiceConfig) (s : State) (room : RoomId) (player : PlayerId) (text : String) : Prop :=
  ∃ act message, advanceChat config s player text (.chatLookup room) = some (act, .failed (.validation message))

section
variable {config : RoomServiceConfig} {s s' : State} {room : RoomId} {player : PlayerId} {text : String}

/-- **What the service makes of a text.** -/
theorem refusesChat_iff : RefusesChat config s room player text ↔ ¬ Passes text := by
  unfold RefusesChat Passes
  simp only [advanceChat]
  split_ifs with hempty hlong
  · exact iff_of_true ⟨_, _, rfl⟩ fun hpasses => by simp [hempty] at hpasses
  · exact iff_of_true ⟨_, _, rfl⟩ fun hpasses => by omega
  · refine iff_of_false ?_ (not_not_intro ⟨Bool.eq_false_iff.mpr hempty, Nat.not_lt.mp hlong⟩)
    rintro ⟨act, message, hcall⟩
    split at hcall
    · cases hcall
    · cases hcall

theorem handleFor_sends_nothing {b : Bool} {command : RoomCommand CallId} {r : RoomId} :
    s.handleFor r ≠ (b, .enqueue room command) := by
  intro hfor
  obtain ⟨heq, -⟩ | ⟨heq, -⟩ | ⟨heq, -⟩ := handleFor_cases s r
  all_goals
    rw [heq] at hfor
    cases hfor

theorem advanceLeave_sends_no_chat {k : CallId} {leaver : PlayerId} {reason sent : String} {here pc : Pc} :
    advanceLeave config s k leaver reason here ≠ some (.enqueue room (.chat player sent), pc) := by
  intro hadvance
  cases here with
  | leaveLookup room' todo =>
      simp only [advanceLeave] at hadvance
      split at hadvance
      all_goals
        next hfor =>
          obtain ⟨rfl, -⟩ := Prod.mk.inj (Option.some.inj hadvance)
          exact absurd hfor handleFor_sends_nothing
  | leaveSend room' todo =>
      simp only [advanceLeave] at hadvance
      split at hadvance
      · cases hadvance
      · cases hadvance
      · split_ifs at hadvance
        all_goals cases hadvance
  | leaveWait room' reply todo =>
      obtain _ | (_ | left) | _ := reply
      · cases hadvance
      · cases hadvance
      · simp only [advanceLeave] at hadvance
        split_ifs at hadvance
        all_goals cases hadvance
      · simp only [advanceLeave] at hadvance
        split_ifs at hadvance
        all_goals cases hadvance
  | create | insert | joinLookup | joinSend | joinWait | joinPublish | undo | liveHandles | leaveForget | leavePublish
  | chatLookup | chatSend | drain | closeSend | returned | failed | cancelled => cases hadvance

/-- **Who sends a chat**: a call of `chat`, and it sends its own text, trimmed. -/
theorem advance_sends_chat {k : CallId} {c : Call} {pc : Pc} {sent : String}
    (hadvance : advance config s k c = some (.enqueue room (.chat player sent), pc)) :
    ∃ own text, c.op = .chat own player text ∧ c.pc = .chatSend room ∧ sent = Text.trim text := by
  obtain ⟨op, here, asked⟩ := c
  cases op with
  | chat own player' text =>
      cases here with
      | chatSend room' =>
          simp only [advance, advanceChat] at hadvance
          split at hadvance
          · simp only [Option.some.injEq, Prod.mk.injEq, Act.enqueue.injEq, RoomCommand.chat.injEq] at hadvance
            obtain ⟨⟨rfl, rfl, rfl⟩, -⟩ := hadvance
            exact ⟨own, text, rfl, rfl, rfl⟩
          · cases hadvance
          · cases hadvance
      | chatLookup room' =>
          simp only [advance, advanceChat] at hadvance
          split_ifs at hadvance
          · cases hadvance
          · cases hadvance
          · split at hadvance
            all_goals
              next hfor =>
                obtain ⟨rfl, -⟩ := Prod.mk.inj (Option.some.inj hadvance)
                exact absurd hfor handleFor_sends_nothing
      | create | insert | joinLookup | joinSend | joinWait | joinPublish | undo | liveHandles | leaveLookup | leaveSend
      | leaveWait | leaveForget | leavePublish | drain | closeSend | returned | failed | cancelled => cases hadvance
  | joinOrCreate own player' nickname sink =>
      cases here with
      | joinLookup room' =>
          simp only [advance, advanceJoin] at hadvance
          split at hadvance
          all_goals
            next hfor =>
              obtain ⟨rfl, -⟩ := Prod.mk.inj (Option.some.inj hadvance)
              exact absurd hfor handleFor_sends_nothing
      | joinSend room' =>
          simp only [advance, advanceJoin] at hadvance
          split at hadvance
          all_goals cases hadvance
      | joinWait room' reply =>
          obtain _ | (_ | _) | _ := reply
          all_goals cases hadvance
      | create | insert | joinPublish | undo | liveHandles | leaveLookup | leaveSend | leaveWait | leaveForget
      | leavePublish | chatLookup | chatSend | drain | closeSend | returned | failed | cancelled => cases hadvance
  | leave own player' reason => exact absurd hadvance advanceLeave_sends_no_chat
  | leaveAll player' reason => exact absurd hadvance advanceLeave_sends_no_chat
  | closeAll reason =>
      cases here with
      | closeSend room' todo =>
          simp only [advance, advanceClose] at hadvance
          split at hadvance
          all_goals cases hadvance
      | create | insert | joinLookup | joinSend | joinWait | joinPublish | undo | liveHandles | leaveLookup | leaveSend
      | leaveWait | leaveForget | leavePublish | chatLookup | chatSend | drain | returned | failed | cancelled =>
          cases hadvance

/-! ## The invariant -/

/-- The player came in with this nickname, by a `Join` that the actor handled, and has been a member ever since. -/
def RoomTask.InAs (t : RoomTask) (player : PlayerId) (nickname : String) : Prop :=
  ∃ past join since, t.handled = past ++ join :: since ∧
    (∃ sink reply, join.command = .join player nickname sink reply) ∧ player ∉ join.before.room.members ∧
    player ∈ join.after.room.members ∧ ∀ h ∈ since, player ∈ h.after.room.members

def RoomTask.Named (t : RoomTask) : Prop :=
  ∀ player member, t.actor.members.lookup player = some member → t.InAs player member.nickname

/-- A call of `chat` is about its own room, and it sends what passed the check. -/
def ChatPc (own : RoomId) (text : String) : Pc → Prop
  | .chatLookup r => r = own
  | .chatSend r => r = own ∧ Passes text
  | _ => True

/-- A call of `chat` made this text of its own one. -/
def State.Asked (s : State) (room : RoomId) (player : PlayerId) (sent : String) : Prop :=
  ∃ (k : CallId) (c : Call) (text : String), s.calls[k]? = some c ∧ c.op = .chat room player text ∧ Passes text ∧
    sent = Text.trim text

structure ChatInv (s : State) : Prop where
  named : ∀ r t, s.rooms r = some t → t.Named
  calls : ∀ (k : CallId) (c : Call) own player text, s.calls[k]? = some c → c.op = .chat own player text →
    ChatPc own text c.pc
  queued : ∀ r t player sent, s.rooms r = some t → .chat player sent ∈ t.queue → s.Asked r player sent

theorem RoomStep.named {t t' : RoomTask} (hstep : RoomStep s room t t') (hinv : RoomInv room t) (hinv' : RoomInv room t')
    (h : t.Named) : t'.Named := by
  cases hstep with
  | same | inserted | push | pop | hungUp | terminated => exact h
  | process command rest hidle hqueue =>
      obtain ⟨a, effects, stop, hh, heq⟩ := hinv.process_eq hidle command rest
      rw [heq] at hinv' ⊢
      intro player member hmember
      have hin : player ∈ a.room.members := by
        refine (hinv'.actor.keys player).mp (AList.lookup_isSome.mp ?_)
        show (a.members.lookup player).isSome = true
        rw [show a.members.lookup player = some member from hmember]
        rfl
      rcases hh.lookup hmember with hold | ⟨hnew, reply, hcommand⟩
      · obtain ⟨past, join, since, hhandled, hjoin, hbefore, hafter, hsince⟩ := h player member hold
        refine ⟨past, join, since ++ [⟨command, t.actor, a⟩], ?_, hjoin, hbefore, hafter, ?_⟩
        · show t.handled ++ [_] = _
          rw [hhandled, List.append_assoc, List.cons_append]
        · intro handling hmem
          rcases List.mem_append.mp hmem with hmem | hmem
          · exact hsince handling hmem
          · rw [List.mem_singleton.mp hmem]
            exact hin
      · refine ⟨t.handled, ⟨command, t.actor, a⟩, [], rfl, ⟨_, reply, hcommand⟩, hnew, hin, ?_⟩
        intro handling hmem
        cases hmem

theorem Stepped.queue {label : Label} (hstep : Stepped config s label s') {t' : RoomTask} (ht' : s'.rooms room = some t')
    {command : RoomCommand CallId} (hmem : command ∈ t'.queue) :
    (∃ t, s.rooms room = some t ∧ command ∈ t.queue) ∨
      ∃ k c pc, s.calls[k]? = some c ∧ advance config s k c = some (.enqueue room command, pc) := by
  have hactor : ∀ {r : RoomId} {f : RoomTask → RoomTask} {t₀ : RoomTask}, s.rooms r = some t₀ →
      (∀ x ∈ (f t₀).queue, x ∈ t₀.queue) → (s.update r f).rooms room = some t' →
      ∃ t, s.rooms room = some t ∧ command ∈ t.queue := by
    intro r f t₀ ht₀ hf hupdate
    obtain ⟨t, rfl, ht, rfl⟩ | ⟨-, ht⟩ := State.update_cases hupdate
    · obtain rfl := Option.some.inj (ht₀.symm.trans ht)
      exact ⟨t₀, ht₀, hf command hmem⟩
    · exact ⟨t', ht, hmem⟩
  cases hstep with
  | start | liveHandles | drain | cancel => exact Or.inl ⟨t', ht', hmem⟩
  | openRoom k r op sent hc hfree =>
      by_cases hr : room = r
      · subst hr
        obtain rfl := Option.some.inj ((Function.update_self room _ s.rooms).symm.trans ht')
        cases hmem
      · exact Or.inl ⟨t', (Function.update_of_ne hr _ s.rooms).symm.trans ht', hmem⟩
  | next k c act pc hc hadvance =>
      obtain ⟨t, ht, rfl | ⟨-, rfl⟩ | ⟨pushed, rfl, rfl⟩⟩ := State.move_rooms ht'
      · exact Or.inl ⟨t', ht, hmem⟩
      · exact Or.inl ⟨t, ht, hmem⟩
      · rcases List.mem_append.mp hmem with hold | hnew
        · exact Or.inl ⟨t, ht, hold⟩
        · obtain rfl := List.mem_singleton.mp hnew
          exact Or.inr ⟨k, c, pc, hc, hadvance⟩
  | process r t₀ taken rest ht₀ hidle hqueue =>
      refine Or.inl (hactor ht₀ (fun x hx => ?_) ht')
      rw [hqueue]
      exact List.mem_cons_of_mem _ hx
  | perform r t₀ e rest ht₀ houtbox =>
      have hrooms : (s.update r fun task => { task with outbox := rest }).rooms room = some t' := by
        cases e with
        | replyJoin | replyLeave | broadcast => exact ht'
      exact Or.inl (hactor ht₀ (fun x hx => hx) hrooms)
  | hangup r t₀ ht₀ hidle => exact Or.inl (hactor ht₀ (fun x hx => hx) ht')
  | terminate r t₀ ht₀ hstopping houtbox =>
      refine Or.inl (hactor (f := RoomTask.terminated) ht₀ (fun x hx => ?_) ht')
      cases hx

theorem chatPc_leaveNext (own : RoomId) (text : String) (todo : List RoomId) : ChatPc own text (leaveNext todo) := by
  cases todo with
  | nil => trivial
  | cons r todo => trivial

theorem chatPc_closeNext (own : RoomId) (text : String) (todo : List RoomId) : ChatPc own text (closeNext todo) := by
  cases todo with
  | nil => trivial
  | cons r todo => trivial

theorem chatPc_advance {own : RoomId} {here pc : Pc} {act : Act} (h : ChatPc own text here)
    (hadvance : advanceChat config s player text here = some (act, pc)) : ChatPc own text pc := by
  cases here with
  | chatLookup r =>
      simp only [advanceChat] at hadvance
      split_ifs at hadvance with hempty hlong
      · cases hadvance
        trivial
      · cases hadvance
        trivial
      · have hpasses : Passes text := ⟨Bool.eq_false_iff.mpr hempty, Nat.not_lt.mp hlong⟩
        split at hadvance
        · cases hadvance
          exact ⟨h, hpasses⟩
        · cases hadvance
          trivial
  | chatSend r =>
      simp only [advanceChat] at hadvance
      split at hadvance
      all_goals
        cases hadvance
        trivial
  | create | insert | joinLookup | joinSend | joinWait | joinPublish | undo | liveHandles | leaveLookup | leaveSend
  | leaveWait | leaveForget | leavePublish | drain | closeSend | returned | failed | cancelled => cases hadvance

theorem CallStep.chatPc {label : Label} {k : CallId} {c c' : Call} (hstep : CallStep config s s' label k c c')
    {own : RoomId} (hop : c'.op = .chat own player text)
    (h : c.op = .chat own player text → ChatPc own text c.pc) : ChatPc own text c'.pc := by
  cases hstep with
  | same => exact h hop
  | opened r hpc => trivial
  | next act pc hadvance hs' =>
      obtain ⟨op, here, asked⟩ := c
      obtain rfl : op = .chat own player text := hop
      exact chatPc_advance (h rfl) hadvance
  | retain order => exact chatPc_leaveNext own text order
  | drain order => exact chatPc_closeNext own text order
  | cancel => trivial
  | answered r c' hanswered =>
      cases hanswered with
      | same => exact h hop
      | join reply => trivial
      | leave reply todo => trivial

theorem State.Asked.mono (g : Grows s s') {sent : String} : s.Asked room player sent → s'.Asked room player sent := by
  rintro ⟨k, c, text, hc, hop, hpasses, hsent⟩
  obtain ⟨c', hc', hop', -⟩ := g.calls k c hc
  exact ⟨k, c', text, hc', hop'.trans hop, hpasses, hsent⟩

/-- **One step of the service.** -/
theorem ChatInv.step (h : ChatInv s) (hinv : Inv s) {label : Label} (hstep : s.step config label = some s') :
    ChatInv s' := by
  have hleads := hinv.step hstep
  refine ⟨fun r t' ht' => ?_, fun k c' own player text hc' hop => ?_, fun r t' player sent ht' hmem => ?_⟩
  · rcases hinv.step_room hstep ht' with ⟨-, k, rfl⟩ | ⟨t, ht, hroom⟩
    · intro player member hmember
      cases hmember
    · exact hroom.named (hinv.rooms r t ht) (hleads.inv.rooms r t' ht') (h.named r t ht)
  · rcases (step_taken hstep).call hc' with ⟨-, op, -, rfl⟩ | ⟨c, hc, hcall⟩
    · obtain rfl : op = .chat own player text := hop
      exact rfl
    · exact hcall.chatPc hop (h.calls k c own player text hc)
  · rcases (step_stepped hstep).queue ht' hmem with ⟨t, ht, hold⟩ | ⟨k, c, pc, hc, hadvance⟩
    · exact (h.queued r t player sent ht hold).mono hleads.grows
    · obtain ⟨own, text, hop, hpc, hsent⟩ := advance_sends_chat hadvance
      have hcall := h.calls k c own player text hc hop
      rw [hpc] at hcall
      obtain ⟨rfl, hpasses⟩ := hcall
      exact State.Asked.mono hleads.grows ⟨k, c, text, hc, hop, hpasses, hsent⟩

theorem run_chat {labels : List Label} (hrun : (system config).run (system config).init labels = some s) :
    Inv s ∧ ChatInv s := by
  refine TransitionSystem.run_invariant (I := fun s => Inv s ∧ ChatInv s) ?_ ⟨init_inv config, ?_⟩ hrun
  · intro s label s' h hstep
    exact ⟨(h.1.step hstep).inv, h.2.step h.1 hstep⟩
  · exact ⟨fun _ _ ht => (by cases ht), fun _ _ _ _ _ hc => (by cases hc), fun _ _ _ _ ht => (by cases ht)⟩

/-! ## The two checks -/

/-- **The two checks of a chat text agree.** In every state that a run of the service reaches, for every room:
a text that the service lets through is broadcast when the actor handles it for a member, as one `Chat` with the trimmed
text, the sender's id, and the nickname it joined with; a text that the service refuses would be discarded by the actor
too; for an outsider there is nothing to broadcast; and the actor gets only what the service let through, trimmed. -/
theorem chat_checks_agree {labels : List Label} (hrun : (system config).run (system config).init labels = some s)
    {t : RoomTask} (ht : s.rooms room = some t) :
    (∀ player text, player ∈ t.actor.room.members → ¬ RefusesChat config s room player text →
      ∃ nickname, t.InAs player nickname ∧
        (t.actor.handle (ρ := CallId) (.chat player (Text.trim text))).1 = t.actor ∧
        (t.actor.handle (ρ := CallId) (.chat player (Text.trim text))).2.1 =
          [.broadcast t.actor.sinks (.chat room player nickname (Text.trim text))] ∧
        Text.trim text ≠ "" ∧ Text.Trimmed (Text.trim text) ∧ (Text.trim text).length ≤ 512) ∧
    (∀ player text, RefusesChat config s room player text →
      t.actor.handleChat (ρ := CallId) player text = [] ∧ t.actor.handleChat (ρ := CallId) player (Text.trim text) = []) ∧
    (∀ player text, player ∉ t.actor.room.members → (t.actor.handle (ρ := CallId) (.chat player text)).2.1 = []) ∧
    (∀ player sent, .chat player sent ∈ t.queue → ∃ (k : CallId) (c : Call) (text : String), s.calls[k]? = some c ∧
      c.op = .chat room player text ∧ ¬ RefusesChat config s room player text ∧ sent = Text.trim text) := by
  obtain ⟨hinv, hchat⟩ := run_chat hrun
  have hroom := hinv.rooms room t ht
  refine ⟨fun player text hmem haccepts => ?_, fun player text hrefuses => ?_, fun player text hmem => ?_, ?_⟩
  · have hpasses : Passes text := not_not.mp fun hnot => haccepts (refusesChat_iff.mpr hnot)
    obtain ⟨member, hmember⟩ := Option.isSome_iff_exists.mp (AList.lookup_isSome.mpr ((hroom.actor.keys player).mpr hmem))
    refine ⟨member.nickname, hchat.named room t ht player member hmember, rfl, ?_, ?_, Text.trimmed_trim text, hpasses.2⟩
    · show t.actor.handleChat player (Text.trim text) = _
      rw [handleChat_eq, hmember]
      dsimp only
      rw [if_pos (passes_trim.mpr hpasses), Text.trim_trim, hroom.id]
    · intro hempty
      have hnot := hpasses.1
      rw [hempty] at hnot
      cases hnot
  · have hnot := refusesChat_iff.mp hrefuses
    constructor
    · rw [handleChat_eq]
      split
      · rfl
      · exact if_neg hnot
    · rw [handleChat_eq]
      split
      · rfl
      · exact if_neg fun hpasses => hnot (passes_trim.mp hpasses)
  · show t.actor.handleChat player text = _
    have houtside : t.actor.members.lookup player = none := by
      rw [AList.lookup_eq_none]
      exact fun hin => hmem ((hroom.actor.keys player).mp hin)
    rw [handleChat_eq, houtside]
  · intro player sent hmem
    obtain ⟨k, c, text, hc, hop, hpasses, hsent⟩ := hchat.queued room t player sent ht hmem
    exact ⟨k, c, text, hc, hop, fun hrefuses => refusesChat_iff.mp hrefuses hpasses, hsent⟩

end

def greetingLabels : List Label :=
  [.start (.joinOrCreate none ⟨1⟩ "a" 0), .openRoom 0 ⟨7⟩, .next 0, .next 0, .next 0, .process ⟨7⟩, .perform ⟨7⟩,
    .perform ⟨7⟩, .start (.chat ⟨7⟩ ⟨1⟩ " hi\n"), .next 1, .next 1]

def greeted : Option RoomTask := ((system ⟨16, 4⟩).run (system ⟨16, 4⟩).init greetingLabels).bind fun s => s.rooms ⟨7⟩

theorem chat_checks_agree_greeting : ∃ s t, (system ⟨16, 4⟩).run (system ⟨16, 4⟩).init greetingLabels = some s ∧
    s.rooms ⟨7⟩ = some t ∧ t.queue = [.chat ⟨1⟩ "hi"] ∧ ∃ nickname, t.InAs ⟨1⟩ nickname ∧
      (t.actor.handle (ρ := CallId) (.chat ⟨1⟩ (Text.trim " hi\n"))).2.1 =
        [.broadcast t.actor.sinks (.chat ⟨7⟩ ⟨1⟩ nickname (Text.trim " hi\n"))] := by
  have hqueue : greeted.map RoomTask.queue = some [.chat ⟨1⟩ "hi"] := by decide +kernel
  have hmembers : greeted.map (fun t => t.actor.room.members) = some [⟨1⟩] := by decide +kernel
  have hpasses : Passes " hi\n" := by decide +kernel
  obtain ⟨t, ht, hqueue⟩ := Option.map_eq_some_iff.mp hqueue
  rw [ht, Option.map_some, Option.some.injEq] at hmembers
  obtain ⟨s, hrun, hroom⟩ := Option.bind_eq_some_iff.mp ht
  have hmem : (⟨1⟩ : PlayerId) ∈ t.actor.room.members := by
    rw [hmembers]
    exact List.mem_singleton_self _
  obtain ⟨nickname, hin, -, hsent, -⟩ := (chat_checks_agree hrun hroom).1 ⟨1⟩ " hi\n" hmem fun hrefuses =>
    refusesChat_iff.mp hrefuses hpasses
  exact ⟨s, t, hrun, hroom, hqueue, nickname, hin, hsent⟩

end Service
end LongshipX
