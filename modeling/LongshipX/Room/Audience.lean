import LongshipX.Room.Broadcast

/-!
# Who hears a room

The players that an event is for can be read off the room's log; the actor sends it to the sinks in its map. The two agree
when every join brings a sink of its player.

* `audience`, `heard` : the players that an event is for, and the part of a log that is for one of them;
* `Owned` : the sinks in the map are those of the members; `Addressed` : each broadcast goes to one sink of every player it
  is for, and to no other;
* `after_addressed` : the actor after any inputs; `Addressed.sublist`, `Addressed.exact` : what one sink is sent;
* `Named`, `after_named` : the players and nicknames that the events tell.
-/

namespace LongshipX

/-- `RoomEvent::room_id`. -/
def RoomEvent.roomId : RoomEvent → RoomId
  | .memberJoined room _ _ => room
  | .memberLeft room _ => room
  | .chat room _ _ _ => room
  | .closed room _ => room

namespace Broadcast
open RoomActor

/-! ## Reading the audience off a log -/

def audience (members : List PlayerId) : RoomEvent → List PlayerId
  | .memberJoined _ p _ => members ++ [p]
  | _ => members

/-- The members after an event; the last one to leave stays, and hears that the room is closed. -/
def remaining (members : List PlayerId) : RoomEvent → List PlayerId
  | .memberJoined _ p _ => members ++ [p]
  | .memberLeft _ p =>
    let rest := members.filter (fun member => decide (member ≠ p))
    if rest = [] then members else rest
  | .chat _ _ _ _ => members
  | .closed _ _ => members

/-- **The part of a log that is for one player.** -/
def heard (p : PlayerId) (members : List PlayerId) : List RoomEvent → List RoomEvent
  | [] => []
  | event :: rest =>
    if p ∈ audience members event then event :: heard p (remaining members event) rest
    else heard p (remaining members event) rest

variable {ρ : Type}

/-! ## Whose sinks -/

section
variable (owner : SinkId → Option (PlayerId × String))

/-- The sinks in the actor's map are those of its members, under their nicknames. -/
def Owned (a : RoomActor) : Prop := ∀ e ∈ a.members.entries, owner e.2.sink = some (e.1, e.2.nickname)

/-- A join brings a sink of its player. -/
def JoinOwned : RoomCommand ρ → Prop
  | .join p nickname sink _ => owner sink = some (p, nickname)
  | _ => True

def InputOwned : Input ρ → Prop
  | .command command => JoinOwned owner command
  | .finish => True

/-- One sink of each of these players, and no other. -/
structure Reaches (players : List PlayerId) (targets : List SinkId) : Prop where
  nodup : targets.Nodup
  owned : ∀ s ∈ targets, ∃ p ∈ players, (owner s).map Prod.fst = some p
  all : ∀ p ∈ players, ∃ s ∈ targets, (owner s).map Prod.fst = some p

/-- **Every broadcast goes to whom it is for.** -/
def Addressed (members : List PlayerId) : List (Effect ρ) → Prop
  | [] => True
  | .broadcast targets event :: rest =>
    Reaches owner (audience members event) targets ∧ Addressed (remaining members event) rest
  | .replyJoin _ _ :: rest => Addressed members rest
  | .replyLeave _ _ :: rest => Addressed members rest

end

section
variable {owner : SinkId → Option (PlayerId × String)} {a a' : RoomActor}

theorem Owned.reaches (h : Owned owner a) (hinv : a.Inv) : Reaches owner a.room.members a.sinks where
  nodup := by
    have hkeys : a.sinks.map owner = a.members.entries.map fun e => some (e.1, e.2.nickname) := by
      rw [sinks, List.map_map]
      exact List.map_congr_left h
    have hfst : (a.sinks.map owner).map (Option.map Prod.fst) = a.members.keys.map some := by
      rw [hkeys, List.map_map]
      exact (List.map_map (f := Sigma.fst) (g := some)).symm
    have hnodup : ((a.sinks.map owner).map (Option.map Prod.fst)).Nodup :=
      hfst ▸ a.members.keys_nodup.map (Option.some_injective _)
    exact hnodup.of_map.of_map
  owned s hs := by
    obtain ⟨e, he, rfl⟩ := List.mem_map.mp hs
    exact ⟨e.1, (hinv.keys e.1).mp (List.mem_keys_of_mem he), by rw [h e he]; rfl⟩
  all p hp := by
    obtain ⟨member, hmember⟩ := AList.lookup_isSome.mpr ((hinv.keys p).mpr hp) |> Option.isSome_iff_exists.mp
    have he : (⟨p, member⟩ : Sigma fun _ : PlayerId => Member) ∈ a.members.entries := AList.mem_lookup_iff.mp hmember
    exact ⟨member.sink, mem_sinks_of_lookup hmember, by rw [h _ he]; rfl⟩

theorem Owned.joined (h : Owned owner a) {p : PlayerId} {nickname : String} {sink : SinkId}
    (hsink : owner sink = some (p, nickname)) : Owned owner (a.joined p ⟨nickname, sink⟩) := by
  intro e he
  replace he : e ∈ (a.members.insert p ⟨nickname, sink⟩).entries := he
  rw [AList.entries_insert, List.mem_cons] at he
  obtain rfl | he := he
  · exact hsink
  · exact h e ((List.kerase_sublist p a.members.entries).subset he)

theorem Owned.left (h : Owned owner a) (p : PlayerId) : Owned owner (a.left p) :=
  fun e he => h e ((List.kerase_sublist p a.members.entries).subset he)

theorem Owned.handled {command : RoomCommand ρ} {effects : List (Effect ρ)} {stop : Bool} (h : Owned owner a)
    (hcommand : JoinOwned owner command) (hh : Handled a command a' effects stop) : Owned owner a' := by
  cases hh with
  | joinNew => exact h.joined hcommand
  | joinAgain | joinFull | chatIgnored | chatSent | leaveOutsider | close => exact h
  | leaveOthers p | leaveLast p => exact h.left p

/-! ## What one sink is sent -/

theorem addressed_append {members : List PlayerId} {x y : List (Effect ρ)} : Addressed owner members (x ++ y) ↔
    Addressed owner members x ∧ Addressed owner ((x.filterMap eventOf).foldl remaining members) y := by
  induction x generalizing members with
  | nil => exact (and_iff_right trivial).symm
  | cons e x ih =>
      cases e with
      | replyJoin | replyLeave => exact ih
      | broadcast targets event => exact (and_congr_right fun _ => ih).trans and_assoc.symm

theorem events_cons (targets : List SinkId) (event : RoomEvent) (rest : List (Effect ρ)) :
    (Effect.broadcast targets event :: rest).filterMap eventOf = event :: rest.filterMap eventOf := rfl

theorem eventsTo_cons {targets : List SinkId} (hnodup : targets.Nodup) (s : SinkId) (event : RoomEvent)
    (rest : List (Effect ρ)) : eventsTo s ((Effect.broadcast targets event :: rest).flatMap sendsOf) =
      if s ∈ targets then event :: eventsTo s (rest.flatMap sendsOf) else eventsTo s (rest.flatMap sendsOf) := by
  rw [List.flatMap_cons, eventsTo_append, sendsOf, eventsTo_broadcast hnodup]
  split_ifs <;> rfl

theorem Addressed.nobody {members : List PlayerId} {effects : List (Effect ρ)} (h : Addressed owner members effects)
    {s : SinkId} (hs : owner s = none) : eventsTo s (effects.flatMap sendsOf) = [] := by
  induction effects generalizing members with
  | nil => rfl
  | cons e effects ih =>
      cases e with
      | replyJoin | replyLeave => exact ih h
      | broadcast targets event =>
          obtain ⟨hreaches, hrest⟩ := h
          have hnot : s ∉ targets := fun hmem => by
            obtain ⟨p, -, howner⟩ := hreaches.owned s hmem
            rw [hs] at howner
            cases howner
          rw [eventsTo_cons hreaches.nodup, if_neg hnot, ih hrest]

/-- **A player's sink is sent only what the player should hear**, in that order. -/
theorem Addressed.sublist {members : List PlayerId} {effects : List (Effect ρ)} (h : Addressed owner members effects)
    {s : SinkId} {p : PlayerId} (hs : (owner s).map Prod.fst = some p) :
    (eventsTo s (effects.flatMap sendsOf)).Sublist (heard p members (effects.filterMap eventOf)) := by
  induction effects generalizing members with
  | nil => exact List.Sublist.refl _
  | cons e effects ih =>
      cases e with
      | replyJoin | replyLeave => exact ih h
      | broadcast targets event =>
          obtain ⟨hreaches, hrest⟩ := h
          rw [eventsTo_cons hreaches.nodup, events_cons, heard]
          split_ifs with hmem hheard hheard
          · exact (ih hrest).cons_cons event
          · obtain ⟨q, hq, howner⟩ := hreaches.owned s hmem
            rw [hs] at howner
            exact absurd (Option.some.inj howner ▸ hq) hheard
          · exact (ih hrest).cons event
          · exact ih hrest

/-- **A player's only sink is sent all that the player should hear.** -/
theorem Addressed.exact {members : List PlayerId} {effects : List (Effect ρ)} (h : Addressed owner members effects)
    {s : SinkId} {p : PlayerId} (hs : (owner s).map Prod.fst = some p)
    (honly : ∀ t, (owner t).map Prod.fst = some p → t = s) :
    eventsTo s (effects.flatMap sendsOf) = heard p members (effects.filterMap eventOf) := by
  induction effects generalizing members with
  | nil => rfl
  | cons e effects ih =>
      cases e with
      | replyJoin | replyLeave => exact ih h
      | broadcast targets event =>
          obtain ⟨hreaches, hrest⟩ := h
          have hiff : s ∈ targets ↔ p ∈ audience members event := by
            constructor
            · intro hmem
              obtain ⟨q, hq, howner⟩ := hreaches.owned s hmem
              rw [hs] at howner
              exact Option.some.inj howner ▸ hq
            · intro hmem
              obtain ⟨t, ht, howner⟩ := hreaches.all p hmem
              exact honly t howner ▸ ht
          rw [eventsTo_cons hreaches.nodup, events_cons, heard, ih hrest]
          exact if_congr hiff rfl rfl

/-! ## The actor over its inputs -/

theorem handled_addressed {command : RoomCommand ρ} {effects : List (Effect ρ)} {stop : Bool} (h : Owned owner a)
    (hinv : a.Inv) (hopen : a.closed = false) (hcommand : JoinOwned owner command)
    (hh : Handled a command a' effects stop) : Addressed owner a.room.members effects ∧
      (stop = false → (effects.filterMap eventOf).foldl remaining a.room.members = a'.room.members) := by
  have hall := h.reaches hinv
  have hafter := h.handled hcommand hh
  obtain ⟨hinv', -⟩ := hh.inv hinv hopen
  cases hh with
  | joinNew => exact ⟨⟨hafter.reaches hinv', trivial⟩, fun _ => rfl⟩
  | joinAgain | joinFull | chatIgnored | leaveOutsider => exact ⟨trivial, fun _ => rfl⟩
  | chatSent => exact ⟨⟨hall, trivial⟩, fun _ => rfl⟩
  | leaveOthers p reason reply hmem hothers =>
      have hrest : a.room.members.filter (fun member => decide (member ≠ p)) ≠ [] := fun hnil =>
        hothers ((filter_ne_eq_nil_iff hinv.nodup hmem).mp hnil)
      exact ⟨⟨hall, trivial⟩, fun _ => if_neg hrest⟩
  | leaveLast p reason reply hlast =>
      have hstays : remaining a.room.members (.memberLeft a.room.id p) = a.room.members :=
        if_pos (by rw [hlast]; simp)
      refine ⟨⟨hall, ?_, trivial⟩, fun hstop => by cases hstop⟩
      rw [hstays]
      exact hall
  | close => exact ⟨⟨hall, trivial⟩, fun hstop => by cases hstop⟩

theorem inputOwned_handled {i : Input ρ} {command : RoomCommand ρ} (h : InputOwned owner i)
    (hi : i = .command command ∨ (i = .finish ∧ ∃ reason, command = .close reason)) : JoinOwned owner command := by
  obtain rfl | ⟨rfl, reason, rfl⟩ := hi
  · exact h
  · trivial

/-- **All broadcasts of an actor go to whom they are for**, whatever its inputs. -/
theorem after_addressed (id : RoomId) (maxPlayers : Nat) {inputs : List (Input ρ)}
    (hinputs : ∀ i ∈ inputs, InputOwned owner i) :
    Owned owner (after id maxPlayers inputs).actor ∧ Addressed owner [] (after id maxPlayers inputs).effects ∧
      ((after id maxPlayers inputs).stopped = false →
        (log (after id maxPlayers inputs)).foldl remaining [] = (after id maxPlayers inputs).actor.room.members) := by
  refine after_induction (fun inputs p => (∀ i ∈ inputs, InputOwned owner i) → Owned owner p.actor ∧
    Addressed owner [] p.effects ∧ (p.stopped = false → (log p).foldl remaining [] = p.actor.room.members)) [] ?_ ?_ ?_
    inputs hinputs
  · intro inputs i p hp ih hstop hall
    exact ih fun j hj => hall j (List.mem_append_left _ hj)
  · intro inputs i p command a effects stop hp ih hinv hrun hh hi hall
    obtain ⟨howned, haddressed, hmembers⟩ := ih fun j hj => hall j (List.mem_append_left _ hj)
    have hcommand := inputOwned_handled (hall i (by simp)) hi
    have hopen : p.actor.closed = false := by
      obtain ⟨-, hflag, -⟩ := after_inv id maxPlayers inputs
      rw [← hp] at hflag
      exact hflag.trans hrun
    obtain ⟨haddressed', hmembers'⟩ := handled_addressed howned hinv hopen hcommand hh
    refine ⟨howned.handled hcommand hh, addressed_append.mpr ⟨haddressed, ?_⟩, fun hstop => ?_⟩
    · exact (hmembers hrun).symm ▸ haddressed'
    · rw [log_append, List.foldl_append]
      exact (congrArg (List.foldl remaining · _) (hmembers hrun)).trans (hmembers' hstop)
  · intro _
    exact ⟨fun e he => absurd he List.not_mem_nil, trivial, fun _ => rfl⟩

theorem after_roomId (id : RoomId) (maxPlayers : Nat) (inputs : List (Input ρ)) :
    ∀ e ∈ log (after id maxPlayers inputs), e.roomId = id := by
  refine after_induction (fun _ p => ∀ e ∈ log p, e.roomId = id) [] (fun _ _ _ _ h _ => h) ?_
    (fun e he => absurd he List.not_mem_nil) inputs
  intro inputs i p command a effects stop hp ih hinv hrun hh hi
  have hid : p.actor.room.id = id := by
    rw [hp]
    exact (after_inv id maxPlayers inputs).2.2
  rw [log_append]
  refine List.forall_mem_append.mpr ⟨ih, ?_⟩
  cases hh <;> simp [eventOf, RoomEvent.roomId, hid]

/-! ## Who is named -/

/-- The players that an event names own sinks, and a nickname in it is one of theirs. -/
def Named (owner : SinkId → Option (PlayerId × String)) : RoomEvent → Prop
  | .memberJoined _ p nickname => ∃ s, owner s = some (p, nickname)
  | .memberLeft _ p => ∃ s nickname, owner s = some (p, nickname)
  | .chat _ p nickname _ => ∃ s, owner s = some (p, nickname)
  | .closed _ _ => True

theorem Owned.named (h : Owned owner a) {p : PlayerId} {member : Member} (hlookup : a.members.lookup p = some member) :
    ∃ s, owner s = some (p, member.nickname) :=
  ⟨member.sink, h ⟨p, member⟩ (AList.mem_lookup_iff.mp hlookup)⟩

theorem Owned.member (h : Owned owner a) (hinv : a.Inv) {p : PlayerId} (hmem : p ∈ a.room.members) :
    ∃ s nickname, owner s = some (p, nickname) := by
  obtain ⟨member, hmember⟩ := Option.isSome_iff_exists.mp (AList.lookup_isSome.mpr ((hinv.keys p).mpr hmem))
  obtain ⟨s, hs⟩ := h.named hmember
  exact ⟨s, member.nickname, hs⟩

theorem handleChat_named (h : Owned owner a) (p : PlayerId) (text : String) :
    ∀ e ∈ (a.handleChat (ρ := ρ) p text).filterMap eventOf, Named owner e := by
  unfold handleChat
  split
  · exact List.forall_mem_nil _
  · next member hlookup =>
    dsimp only
    split_ifs
    · exact List.forall_mem_nil _
    · exact List.forall_mem_singleton.mpr (h.named hlookup)

theorem handle_named (h : Owned owner a) (hinv : a.Inv) (hopen : a.closed = false) {command : RoomCommand ρ}
    (hcommand : JoinOwned owner command) : ∀ e ∈ (a.handle command).2.1.filterMap eventOf, Named owner e := by
  have hh := handle_handled hinv hopen command
  cases command with
  | chat p text => exact handleChat_named h p text
  | join p nickname sink reply =>
      generalize (a.handle _).1 = a', (a.handle _).2.1 = effects, (a.handle _).2.2 = stop at hh ⊢
      cases hh with
      | joinNew => exact List.forall_mem_singleton.mpr ⟨sink, hcommand⟩
      | joinAgain | joinFull => exact List.forall_mem_nil _
  | leave p reason reply =>
      generalize (a.handle _).1 = a', (a.handle _).2.1 = effects, (a.handle _).2.2 = stop at hh ⊢
      cases hh with
      | leaveOutsider => exact List.forall_mem_nil _
      | leaveOthers _ _ _ hmem => exact List.forall_mem_singleton.mpr (h.member hinv hmem)
      | leaveLast _ _ _ hlast =>
          refine List.forall_mem_cons.mpr ⟨h.member hinv ?_, List.forall_mem_singleton.mpr trivial⟩
          rw [hlast]
          exact List.mem_singleton_self p
  | close reason =>
      generalize (a.handle _).1 = a', (a.handle _).2.1 = effects, (a.handle _).2.2 = stop at hh ⊢
      cases hh
      exact List.forall_mem_singleton.mpr trivial

/-- **Every event of an actor names owners of sinks**, under a nickname that a join of theirs brought. -/
theorem after_named (id : RoomId) (maxPlayers : Nat) {inputs : List (Input ρ)}
    (hinputs : ∀ i ∈ inputs, InputOwned owner i) : ∀ e ∈ log (after id maxPlayers inputs), Named owner e := by
  induction inputs using List.reverseRecOn with
  | nil => exact List.forall_mem_nil _
  | append_singleton inputs i ih =>
      obtain ⟨hold, hnew⟩ := List.forall_mem_append.mp hinputs
      obtain ⟨hinv, hflag, -⟩ := after_inv id maxPlayers inputs
      obtain ⟨howned, -, -⟩ := after_addressed id maxPlayers hold
      rw [after_concat]
      cases hstop : (after id maxPlayers inputs).stopped with
      | true =>
          obtain ⟨-, heq⟩ | ⟨hrun, -⟩ := input_cases hinv hflag i
          · rw [heq]
            exact ih hold
          · rw [hrun] at hstop
            cases hstop
      | false =>
          have hopen := hflag.trans hstop
          cases i with
          | command command =>
              rw [input, Progress.feed_running hstop, log_append]
              exact List.forall_mem_append.mpr ⟨ih hold, handle_named howned hinv hopen (hnew _ (List.mem_singleton_self _))⟩
          | finish =>
              simp only [input, finish_open (ρ := ρ) (hinv.isClosed hopen)]
              rw [log_append]
              exact List.forall_mem_append.mpr ⟨ih hold, List.forall_mem_singleton.mpr trivial⟩

end

end Broadcast

end LongshipX
