import LongshipX.Gateway.Sequential

/-!
# Who is in which room

The room service as a table of memberships: `entry r p` is what the open room `r` holds for player `p`, and each
operation changes the table in its own way.

* `Rooms.Inv` : what holds between two operations;
* `join_spec`, `joinOrCreate_spec`, `leave_spec`, `leaveAll_spec`, `closeAll_spec` : the operations on the table;
* `Synced` : every connection's `current_room` tells the truth, and `State.Joined` : what a join promises.
-/

namespace LongshipX.Sequential
open Protocol Gateway RoomActor
open Service (RoomServiceConfig)

/-! ## The table of memberships -/

def entryOf (a : RoomActor) (p : PlayerId) : Option Member := if a.closed then none else a.members.lookup p

namespace Rooms

def entry (s : Rooms) (r : RoomId) (p : PlayerId) : Option Member := (s.actors r).bind fun a => entryOf a p

/-- What holds between two operations. -/
structure Inv (s : Rooms) : Prop where
  actors : ∀ r a, s.actors r = some a → a.Inv
  listed : ∀ r a, s.actors r = some a → a.closed = false → r ∈ s.registry
  known : ∀ r ∈ s.registry, ∃ a, s.actors r = some a

end Rooms

/-- What a `Leave` makes of an actor. -/
inductive Left (p : PlayerId) (a : RoomActor) : RoomActor → Prop where
  | out (hout : a.closed = true ∨ p ∉ a.room.members) : Left p a a
  | others (hopen : a.closed = false) (hmem : p ∈ a.room.members) (hothers : a.room.members ≠ [p]) : Left p a (a.left p)
  | last (hopen : a.closed = false) (hlast : a.room.members = [p]) : Left p a (a.left p).shut

section
variable {p q : PlayerId} {a a' a'' : RoomActor}

theorem Left.gone (h : Left p a a') : a'.closed = true ∨ p ∉ a'.room.members := by
  have hfilter : p ∉ a.room.members.filter (fun member => decide (member ≠ p)) := by simp
  cases h with
  | out hout => exact hout
  | others => exact Or.inr hfilter
  | last => exact Or.inl rfl

theorem Left.trans (h : Left p a a') (h' : Left p a' a'') : Left p a a'' := by
  have hgone := h.gone
  cases h' with
  | out => exact h
  | others hopen hmem =>
      obtain hclosed | hout := hgone
      · rw [hopen] at hclosed
        cases hclosed
      · exact absurd hmem hout
  | last hopen hlast =>
      obtain hclosed | hout := hgone
      · rw [hopen] at hclosed
        cases hclosed
      · rw [hlast] at hout
        exact absurd (List.mem_singleton_self p) hout

theorem Left.lookup (h : Left p a a') (hq : q ≠ p) : a'.members.lookup q = a.members.lookup q := by
  cases h with
  | out => rfl
  | others | last => exact AList.lookup_erase_ne hq

theorem Left.lookup_self (h : Left p a a') (hopen : a.closed = false) (hmem : p ∈ a.room.members) :
    a'.members.lookup p = none := by
  cases h with
  | out hout =>
      obtain hclosed | hnot := hout
      · rw [hopen] at hclosed
        cases hclosed
      · exact absurd hmem hnot
  | others | last => exact AList.lookup_erase p a.members

theorem Left.stays_open (h : Left p a a') (hopen : a.closed = false) (hq : q ∈ a.room.members) (hne : q ≠ p) :
    a'.closed = false := by
  cases h with
  | out | others => exact hopen
  | last _ hlast =>
      rw [hlast] at hq
      exact absurd (List.mem_singleton.mp hq) hne

theorem Left.stays_closed (h : Left p a a') (hclosed : a.closed = true) : a'.closed = true := by
  cases h with
  | out => exact hclosed
  | others => exact hclosed
  | last => rfl

theorem lookup_eq_none (h : a.Inv) (hp : p ∉ a.room.members) : a.members.lookup p = none := by
  rw [AList.lookup_eq_none, h.keys p]
  exact hp

theorem mem_of_entryOf (h : a.Inv) {m : Member} (he : entryOf a p = some m) :
    a.closed = false ∧ p ∈ a.room.members ∧ a.members.lookup p = some m := by
  unfold entryOf at he
  split_ifs at he with hclosed
  refine ⟨Bool.eq_false_iff.mpr hclosed, ?_, he⟩
  rw [← h.keys p, ← AList.lookup_isSome, he]
  rfl

/-- **A leave takes one entry from the table of its room.** -/
theorem Left.entryOf (h : Left p a a') (hinv : a.Inv) : entryOf a' q = if q = p then none else entryOf a q := by
  by_cases hq : q = p
  · subst hq
    rw [if_pos rfl]
    unfold Sequential.entryOf
    cases h with
    | out hout =>
        split_ifs with hclosed
        · rfl
        · obtain hclosed' | hout := hout
          · exact absurd hclosed' hclosed
          · exact lookup_eq_none hinv hout
    | others hopen => exact (if_neg (by simp [left, hopen])).trans (AList.lookup_erase q a.members)
    | last => rfl
  · rw [if_neg hq]
    cases he : Sequential.entryOf a q with
    | some m =>
        obtain ⟨hopen, hmem, hlookup⟩ := mem_of_entryOf hinv he
        unfold Sequential.entryOf
        rw [if_neg (by rw [h.stays_open hopen hmem hq]; decide), h.lookup hq, hlookup]
    | none =>
        unfold Sequential.entryOf at he ⊢
        by_cases hclosed : a.closed = true
        · exact if_pos (h.stays_closed hclosed)
        · rw [if_neg hclosed] at he
          rw [h.lookup hq, he, ite_self]

end

namespace Rooms

variable {s s' s'' : Rooms} {r x : RoomId} {p q : PlayerId} {a a' : RoomActor} {nickname reason : String} {sink : SinkId}

/-! ## Lookups and commands -/

theorem isClosed_eq (ha : s.actors r = some a) : s.isClosed r = a.closed := by
  unfold isClosed
  rw [ha]

theorem handleFor_cases (h : s.Inv) (r : RoomId) :
    (s.handleFor r = (true, s) ∧ ∃ a, s.actors r = some a ∧ a.closed = false) ∨
      ((s.handleFor r = (false, s) ∨ s.handleFor r = (false, s.forget r)) ∧ ∀ a, s.actors r = some a → a.closed = true) := by
  unfold handleFor
  by_cases hr : r ∈ s.registry
  · obtain ⟨a, ha⟩ := h.known r hr
    rw [if_pos hr, isClosed_eq ha]
    cases hclosed : a.closed with
    | true =>
        refine Or.inr ⟨Or.inr rfl, fun a' ha' => ?_⟩
        obtain rfl := Option.some.inj (ha.symm.trans ha')
        exact hclosed
    | false => exact Or.inl ⟨rfl, a, ha, hclosed⟩
  · rw [if_neg hr]
    refine Or.inr ⟨Or.inl rfl, fun a ha => ?_⟩
    cases hclosed : a.closed with
    | true => rfl
    | false => exact absurd (h.listed r a ha hclosed) hr

theorem forget_inv (h : s.Inv) (hclosed : ∀ a, s.actors r = some a → a.closed = true) : (s.forget r).Inv where
  actors := h.actors
  listed x a ha hopen := by
    refine List.mem_filter.mpr ⟨h.listed x a ha hopen, decide_eq_true ?_⟩
    rintro rfl
    rw [hclosed a ha] at hopen
    cases hopen
  known x hx := h.known x (List.mem_of_mem_filter hx)

def put (s : Rooms) (r : RoomId) (a : RoomActor) : Rooms := { s with actors := Function.update s.actors r (some a) }

theorem put_self (s : Rooms) (r : RoomId) (a : RoomActor) : (s.put r a).actors r = some a := Function.update_self r _ s.actors

theorem put_of_ne (hx : x ≠ r) : (s.put r a).actors x = s.actors x := Function.update_of_ne hx _ s.actors

theorem put_eq_self (ha : s.actors r = some a) : s.put r a = s := by
  unfold put
  rw [← ha, Function.update_eq_self]

theorem send_open (ha : s.actors r = some a) (hinv : a.Inv) (hopen : a.closed = false) (command : RoomCommand Unit) :
    ∃ a' effects stop, Handled a command a' effects stop ∧ s.send r command = some (s.put r a', effects) := by
  refine ⟨_, _, _, handle_handled hinv hopen command, ?_⟩
  unfold send
  rw [ha]
  exact if_neg (by rw [hopen]; decide)

theorem put_inv (h : s.Inv) (ha : s.actors r = some a) (hopen : a.closed = false) (ha' : a'.Inv) : (s.put r a').Inv where
  actors x b hb := by
    by_cases hx : x = r
    · subst hx
      obtain rfl := Option.some.inj ((put_self s x a').symm.trans hb)
      exact ha'
    · exact h.actors x b ((put_of_ne hx).symm.trans hb)
  listed x b hb hb_open := by
    by_cases hx : x = r
    · subst hx
      exact h.listed x a ha hopen
    · exact h.listed x b ((put_of_ne hx).symm.trans hb) hb_open
  known x hx := by
    by_cases hxr : x = r
    · subst hxr
      exact ⟨a', put_self s x a'⟩
    · obtain ⟨b, hb⟩ := h.known x hx
      exact ⟨b, (put_of_ne hxr).trans hb⟩

/-! ## Leaving -/

/-- A player has left the rooms that `touched` names, and nothing else has happened. -/
structure LeftRooms (p : PlayerId) (touched : RoomId → Prop) (s s' : Rooms) : Prop where
  inv : s'.Inv
  unopened : ∀ r, s.actors r = none → s'.actors r = none
  left : ∀ r a, s.actors r = some a → ∃ a', s'.actors r = some a' ∧ (touched r → Left p a a') ∧ (¬ touched r → a' = a)

/-- **The table after a player has left.** -/
theorem LeftRooms.entry {touched : RoomId → Prop} [DecidablePred touched] (h : LeftRooms p touched s s') (hinv : s.Inv)
    (r : RoomId) (q : PlayerId) : s'.entry r q = if q = p ∧ touched r then none else s.entry r q := by
  unfold Rooms.entry
  cases ha : s.actors r with
  | none =>
      rw [h.unopened r ha]
      exact (ite_self _).symm
  | some a =>
      obtain ⟨a', ha', hleft, hsame⟩ := h.left r a ha
      rw [ha', Option.bind_some, Option.bind_some]
      by_cases htouched : touched r
      · rw [(hleft htouched).entryOf (hinv.actors r a ha)]
        simp only [htouched, and_true]
      · rw [hsame htouched, if_neg fun hand => htouched hand.2]

theorem LeftRooms.out (hinv : s'.Inv) (hsame : s'.actors = s.actors)
    (hout : ∀ a, s.actors r = some a → a.closed = true ∨ p ∉ a.room.members) : LeftRooms p (· = r) s s' where
  inv := hinv
  unopened x hx := (congrFun hsame x).trans hx
  left x a ha := by
    refine ⟨a, (congrFun hsame x).trans ha, ?_, fun _ => rfl⟩
    rintro rfl
    exact .out (hout a ha)

theorem LeftRooms.put (hinv : s'.Inv) (hsame : s'.actors = (s.put r a').actors) (ha : s.actors r = some a)
    (hleft : Left p a a') : LeftRooms p (· = r) s s' where
  inv := hinv
  unopened x hx := by
    rw [hsame, put_of_ne, hx]
    rintro rfl
    rw [ha] at hx
    cases hx
  left x b hb := by
    by_cases hx : x = r
    · subst hx
      obtain rfl := Option.some.inj (ha.symm.trans hb)
      exact ⟨a', (congrFun hsame x).trans (put_self s x a'), fun _ => hleft, fun hne => absurd rfl hne⟩
    · exact ⟨b, (congrFun hsame x).trans ((put_of_ne hx).trans hb), fun he => absurd he hx, fun _ => rfl⟩

theorem LeftRooms.trans {first rest : RoomId → Prop} (h : LeftRooms p first s s') (h' : LeftRooms p rest s' s'') :
    LeftRooms p (fun r => first r ∨ rest r) s s'' where
  inv := h'.inv
  unopened r hr := h'.unopened r (h.unopened r hr)
  left r a ha := by
    obtain ⟨a', ha', hleft, hsame⟩ := h.left r a ha
    obtain ⟨a'', ha'', hleft', hsame'⟩ := h'.left r a' ha'
    refine ⟨a'', ha'', fun htouched => ?_, fun hnot => ?_⟩
    · by_cases hfirst : first r
      · by_cases hrest : rest r
        · exact (hleft hfirst).trans (hleft' hrest)
        · exact hsame' hrest ▸ hleft hfirst
      · obtain rfl := hsame hfirst
        exact hleft' (htouched.resolve_left hfirst)
    · exact (hsame' fun hrest => hnot (Or.inr hrest)).trans (hsame fun hfirst => hnot (Or.inl hfirst))

/-- **`leave`** succeeds, and the player is out of that room. -/
theorem leave_spec (h : s.Inv) (r : RoomId) (p : PlayerId) (reason : String) :
    (s.leave r p reason).2 = .ok () ∧ LeftRooms p (· = r) s (s.leave r p reason).1 := by
  obtain ⟨hfor, a, ha, hopen⟩ | ⟨hfor, hclosed⟩ := handleFor_cases h r
  · obtain ⟨a', effects, stop, hh, hsend⟩ := send_open ha (h.actors r a ha) hopen (.leave p reason ())
    have hinv : (s.put r a').Inv := put_inv h ha hopen (hh.inv (h.actors r a ha) hopen).1
    have hisClosed : (s.put r a').isClosed r = a'.closed := isClosed_eq (put_self s r a')
    unfold leave
    rw [hfor]
    dsimp only
    rw [hsend]
    dsimp only
    rw [hisClosed]
    cases hh with
    | leaveOutsider _ _ _ hmem =>
        refine ⟨rfl, ?_⟩
        show LeftRooms p _ s (if a.closed = true then _ else _)
        rw [if_neg (by rw [hopen]; decide)]
        exact .put hinv rfl ha (.out (Or.inr hmem))
    | leaveOthers _ _ _ hmem hothers =>
        refine ⟨rfl, ?_⟩
        show LeftRooms p _ s (if a.closed = true then _ else _)
        rw [if_neg (by rw [hopen]; decide)]
        exact .put hinv rfl ha (.others hopen hmem hothers)
    | leaveLast _ _ _ hlast =>
        refine ⟨rfl, .put (forget_inv hinv fun b hb => ?_) rfl ha (.last hopen hlast)⟩
        obtain rfl := Option.some.inj ((put_self s r _).symm.trans hb)
        rfl
  · have hout : ∀ a, s.actors r = some a → a.closed = true ∨ p ∉ a.room.members := fun a ha => Or.inl (hclosed a ha)
    unfold leave
    obtain hfor | hfor := hfor
    · rw [hfor]
      exact ⟨rfl, .out h rfl hout⟩
    · rw [hfor]
      exact ⟨rfl, .out (forget_inv h hclosed) rfl hout⟩

/-- The loop of `leave_all`, by induction on the rooms before it. -/
theorem leaveEach_spec (h : s.Inv) (p : PlayerId) (reason : String) (order : List RoomId) :
    (s.leaveEach p reason order).2 = .ok () ∧ LeftRooms p (· ∈ order) s (s.leaveEach p reason order).1 := by
  induction order generalizing s with
  | nil =>
      refine ⟨rfl, h, fun _ hr => hr, fun r a ha => ⟨a, ha, fun hr => ?_, fun _ => rfl⟩⟩
      cases hr
  | cons r order ih =>
      obtain ⟨hok, hleft⟩ := leave_spec h r p reason
      obtain ⟨hok', hleft'⟩ := ih hleft.inv
      unfold leaveEach
      cases hstep : s.leave r p reason with
      | mk s' outcome =>
          rw [hstep] at hok hleft hok' hleft'
          dsimp only at hok
          subst hok
          refine ⟨hok', ?_⟩
          simpa only [List.mem_cons] using hleft.trans hleft'

theorem retainLive_inv (h : s.Inv) : s.retainLive.Inv where
  actors := h.actors
  listed r a ha hopen := by
    refine List.mem_filter.mpr ⟨h.listed r a ha hopen, ?_⟩
    have hisClosed : s.isClosed r = a.closed := isClosed_eq ha
    rw [hisClosed, hopen]
    rfl
  known r hr := h.known r (List.mem_of_mem_filter hr)

/-- **`leave_all`** succeeds, and the player is out of every room. -/
theorem leaveAll_spec (h : s.Inv) (p : PlayerId) (reason : String) {order : List RoomId}
    (horder : order.Perm s.retainLive.registry) :
    (s.leaveAll p reason order).2 = .ok () ∧ LeftRooms p (fun _ => True) s (s.leaveAll p reason order).1 := by
  have hretain := retainLive_inv h
  obtain ⟨hok, hleft⟩ := leaveEach_spec hretain p reason order
  refine ⟨hok, hleft.inv, hleft.unopened, fun r a ha => ?_⟩
  obtain ⟨a', ha', htouched, hsame⟩ := hleft.left r a ha
  refine ⟨a', ha', fun _ => ?_, fun hnot => absurd trivial hnot⟩
  by_cases hr : r ∈ order
  · exact htouched hr
  · obtain rfl := hsame hr
    refine .out (Or.inl ?_)
    cases hclosed : a'.closed with
    | true => rfl
    | false => exact absurd (horder.symm.subset (hretain.listed r a' ha hclosed)) hr

/-! ## Joining -/

def setEntry (table : RoomId → PlayerId → Option Member) (r : RoomId) (p : PlayerId) (m : Member) :
    RoomId → PlayerId → Option Member :=
  fun x q => if x = r ∧ q = p then some m else table x q

theorem entry_eq (ha : s.actors r = some a) (p : PlayerId) : s.entry r p = entryOf a p := by
  unfold entry
  rw [ha]
  rfl

theorem entry_put (hx : x ≠ r) (q : PlayerId) : (s.put r a).entry x q = s.entry x q := by
  unfold entry
  rw [put_of_ne hx]

/-- **`join`** is refused and changes no membership, or the player is in the room, with the entry it had there or else
with a new one. -/
theorem join_spec (h : s.Inv) (r : RoomId) (p : PlayerId) (nickname : String) (sink : SinkId) :
    (s.join r p nickname sink).1.Inv ∧
      ((∃ err, (s.join r p nickname sink).2 = .error err ∧ (s.join r p nickname sink).1.entry = s.entry ∧
          ∀ a, s.actors r = some a → a.closed = false → a.room.maxPlayers ≤ a.room.members.length) ∨
        ((s.join r p nickname sink).2 = .ok () ∧ (∃ a, s.actors r = some a ∧ a.closed = false) ∧
          (s.join r p nickname sink).1.entry = setEntry s.entry r p ((s.entry r p).getD ⟨nickname, sink⟩))) := by
  obtain ⟨hfor, a, ha, hopen⟩ | ⟨hfor, hclosed⟩ := handleFor_cases h r
  · obtain ⟨a', effects, stop, hh, hsend⟩ := send_open ha (h.actors r a ha) hopen (.join p nickname sink ())
    have hinva := h.actors r a ha
    have hinv : (s.put r a').Inv := put_inv h ha hopen (hh.inv hinva hopen).1
    have hopen_entry : ∀ q, s.entry r q = a.members.lookup q := by
      intro q
      rw [entry_eq ha]
      exact if_neg (by rw [hopen]; decide)
    unfold join
    rw [hfor]
    dsimp only
    rw [hsend]
    cases hh with
    | joinNew _ _ _ _ hmem hplace =>
        refine ⟨hinv, Or.inr ⟨rfl, ⟨a, ha, hopen⟩, ?_⟩⟩
        funext x q
        show (s.put r (a.joined p ⟨nickname, sink⟩)).entry x q = _
        unfold setEntry
        by_cases hx : x = r
        · subst hx
          have hput : (s.put x (a.joined p ⟨nickname, sink⟩)).entry x q = (a.members.insert p ⟨nickname, sink⟩).lookup q := by
            rw [entry_eq (put_self s x _)]
            exact if_neg (by rw [show (a.joined p ⟨nickname, sink⟩).closed = a.closed from rfl, hopen]; decide)
          rw [hput, hopen_entry p, lookup_eq_none hinva hmem, Option.getD_none, hopen_entry q]
          by_cases hq : q = p
          · subst hq
            rw [if_pos ⟨rfl, rfl⟩, AList.lookup_insert]
          · rw [if_neg fun hand => hq hand.2, AList.lookup_insert_ne hq]
        · rw [if_neg fun hand => hx hand.1, entry_put hx]
    | joinAgain _ _ _ _ hmem =>
        rw [put_eq_self ha] at hinv ⊢
        refine ⟨hinv, Or.inr ⟨rfl, ⟨a, ha, hopen⟩, ?_⟩⟩
        obtain ⟨m, hm⟩ := Option.isSome_iff_exists.mp (AList.lookup_isSome.mpr ((hinva.keys p).mpr hmem))
        funext x q
        show s.entry x q = setEntry s.entry r p ((s.entry r p).getD ⟨nickname, sink⟩) x q
        unfold setEntry
        split_ifs with hand
        · obtain ⟨rfl, rfl⟩ := hand
          rw [hopen_entry q, hm]
          rfl
        · rfl
    | joinFull _ _ _ _ hmem hfull =>
        rw [put_eq_self ha] at hinv ⊢
        refine ⟨hinv, Or.inl ⟨_, rfl, rfl, fun b hb _ => ?_⟩⟩
        obtain rfl := Option.some.inj (ha.symm.trans hb)
        exact hfull
  · have hnone : ∀ a, s.actors r = some a → a.closed = false → a.room.maxPlayers ≤ a.room.members.length := by
      intro a ha hopen
      rw [hclosed a ha] at hopen
      cases hopen
    unfold join
    obtain hfor | hfor := hfor
    · rw [hfor]
      exact ⟨h, Or.inl ⟨_, rfl, rfl, hnone⟩⟩
    · rw [hfor]
      exact ⟨forget_inv h hclosed, Or.inl ⟨_, rfl, rfl, hnone⟩⟩

theorem join_again (h : s.Inv) (hmember : (s.entry r p).isSome = true) (nickname : String) (sink : SinkId) :
    (s.join r p nickname sink).2 = .ok () := by
  obtain ⟨m, hm⟩ := Option.isSome_iff_exists.mp hmember
  obtain ⟨a, ha, hentry⟩ := Option.bind_eq_some_iff.mp hm
  obtain ⟨hopen, hmem, -⟩ := mem_of_entryOf (h.actors r a ha) hentry
  obtain ⟨hfor, -⟩ | ⟨-, hclosed⟩ := handleFor_cases h r
  · obtain ⟨a', effects, stop, hh, hsend⟩ := send_open ha (h.actors r a ha) hopen (.join p nickname sink ())
    unfold join
    rw [hfor]
    dsimp only
    rw [hsend]
    cases hh with
    | joinNew | joinAgain => rfl
    | joinFull _ _ _ _ hout => exact absurd hmem hout
  · rw [hclosed a ha] at hopen
    cases hopen

def opened (config : RoomServiceConfig) (s : Rooms) (r : RoomId) : Rooms :=
  { actors := Function.update s.actors r (some (RoomActor.spawn (Room.open r config.maxPlayers))),
    registry := s.registry.insert r }

theorem opened_inv (config : RoomServiceConfig) (h : s.Inv) (r : RoomId) : (s.opened config r).Inv where
  actors x a ha := by
    by_cases hx : x = r
    · subst hx
      obtain rfl := Option.some.inj ((Function.update_self x _ s.actors).symm.trans ha)
      exact spawn_inv x config.maxPlayers
    · exact h.actors x a ((Function.update_of_ne hx _ s.actors).symm.trans ha)
  listed x a ha hopen := by
    by_cases hx : x = r
    · exact hx ▸ List.mem_insert_self
    · exact List.mem_insert_of_mem (h.listed x a ((Function.update_of_ne hx _ s.actors).symm.trans ha) hopen)
  known x hx := by
    by_cases hxr : x = r
    · subst hxr
      exact ⟨_, Function.update_self x _ s.actors⟩
    · obtain ⟨a, ha⟩ := h.known x ((List.mem_insert_iff.mp hx).resolve_left hxr)
      exact ⟨a, (Function.update_of_ne hxr _ s.actors).trans ha⟩

theorem opened_entry (config : RoomServiceConfig) (hfresh : s.actors r = none) : (s.opened config r).entry = s.entry := by
  funext x q
  unfold entry
  by_cases hx : x = r
  · subst hx
    rw [hfresh, show (s.opened config x).actors x = _ from Function.update_self x _ s.actors]
    rfl
  · rw [show (s.opened config r).actors x = _ from Function.update_of_ne hx _ s.actors]

/-- **`join_or_create`**: refused, or in the room that was asked for, or in a new one. -/
theorem joinOrCreate_spec (config : RoomServiceConfig) (h : s.Inv) {fresh : RoomId} (hfresh : s.actors fresh = none)
    (target : Option RoomId) (p : PlayerId) (nickname : String) (sink : SinkId) {s' : Rooms}
    {outcome : Except AppError RoomId} (heq : s.joinOrCreate config target fresh p nickname sink = (s', outcome)) :
    s'.Inv ∧ ((∃ err, outcome = .error err ∧ s'.entry = s.entry) ∨
      ∃ r, outcome = .ok r ∧ r = target.getD fresh ∧ s'.entry = setEntry s.entry r p ((s.entry r p).getD ⟨nickname, sink⟩)) := by
  cases target with
  | some r =>
      obtain ⟨hinv, hjoin⟩ := join_spec h r p nickname sink
      unfold joinOrCreate at heq
      dsimp only at heq
      cases hstep : s.join r p nickname sink with
      | mk s₁ result =>
          rw [hstep] at heq hinv hjoin
          cases result with
          | ok =>
              obtain ⟨rfl, rfl⟩ := Prod.mk.inj heq
              obtain ⟨err, herr, -⟩ | ⟨-, -, hentry⟩ := hjoin
              · cases herr
              · exact ⟨hinv, Or.inr ⟨r, rfl, rfl, hentry⟩⟩
          | error err =>
              obtain ⟨rfl, rfl⟩ := Prod.mk.inj heq
              obtain ⟨_, -, hentry, -⟩ | ⟨hok, -⟩ := hjoin
              · exact ⟨hinv, Or.inl ⟨err, rfl, hentry⟩⟩
              · cases hok
  | none =>
      have hopened : (s.opened config fresh).actors fresh = some (RoomActor.spawn (Room.open fresh config.maxPlayers)) :=
        Function.update_self fresh _ s.actors
      obtain ⟨hinv, ⟨err, -, -, hfull⟩ | ⟨hok, -, hentry⟩⟩ := join_spec (opened_inv config h fresh) fresh p nickname sink
      · have hplace := (spawn_inv fresh config.maxPlayers).place
        exact absurd (hfull _ hopened rfl) (Nat.not_le.mpr hplace)
      · change createAndJoin config s fresh p nickname sink = (s', outcome) at heq
        unfold createAndJoin at heq
        simp only [← opened.eq_1] at heq
        cases hstep : (s.opened config fresh).join fresh p nickname sink with
        | mk s₁ result =>
            rw [hstep] at heq hinv hok hentry
            dsimp only at hok
            subst hok
            obtain ⟨rfl, rfl⟩ := Prod.mk.inj heq
            rw [opened_entry config hfresh] at hentry
            exact ⟨hinv, Or.inr ⟨fresh, rfl, rfl, hentry⟩⟩

/-! ## Closing -/

/-- The loop of `close_all`: the rooms before it close, and a closed room stays closed. -/
theorem closeEach_spec (hs : ∀ r a, s.actors r = some a → a.Inv) (reason : String) (order : List RoomId) :
    (s.closeEach reason order).registry = s.registry ∧
      ∀ r a', (s.closeEach reason order).actors r = some a' → a'.Inv ∧
        ∃ a, s.actors r = some a ∧ (a.closed = true ∨ r ∈ order → a'.closed = true) := by
  induction order generalizing s with
  | nil =>
      refine ⟨rfl, fun r a ha => ⟨hs r a ha, a, ha, ?_⟩⟩
      rintro (hclosed | hr)
      · exact hclosed
      · cases hr
  | cons x order ih =>
      by_cases hopen : ∃ a, s.actors x = some a ∧ a.closed = false
      · obtain ⟨a, ha, hopen⟩ := hopen
        obtain ⟨a', effects, stop, hh, hsend⟩ := send_open ha (hs x a ha) hopen (.close reason)
        have hinv := (hh.inv (hs x a ha) hopen).1
        have hput : ∀ r b, (s.put x a').actors r = some b → b.Inv := by
          intro r b hb
          by_cases hr : r = x
          · subst hr
            obtain rfl := Option.some.inj ((put_self s r a').symm.trans hb)
            exact hinv
          · exact hs r b ((put_of_ne hr).symm.trans hb)
        obtain ⟨hregistry, hrest⟩ := ih hput
        unfold closeEach
        rw [hsend]
        refine ⟨hregistry, fun r b' hb' => ?_⟩
        obtain ⟨hb'_inv, b, hb, hclosed⟩ := hrest r b' hb'
        refine ⟨hb'_inv, ?_⟩
        by_cases hr : r = x
        · subst hr
          obtain rfl := Option.some.inj ((put_self s r a').symm.trans hb)
          refine ⟨a, ha, fun _ => hclosed (Or.inl ?_)⟩
          cases hh with
          | close => rfl
        · refine ⟨b, (put_of_ne hr).symm.trans hb, fun hor => hclosed (hor.imp_right fun hmem => ?_)⟩
          exact (List.mem_cons.mp hmem).resolve_left hr
      · have hsend : s.send x (.close reason) = none := by
          unfold send
          split
          · next a ha =>
              refine if_pos ?_
              cases hclosed : a.closed with
              | true => rfl
              | false => exact absurd ⟨a, ha, hclosed⟩ hopen
          · rfl
        obtain ⟨hregistry, hrest⟩ := ih hs
        unfold closeEach
        rw [hsend]
        refine ⟨hregistry, fun r b' hb' => ?_⟩
        obtain ⟨hb'_inv, b, hb, hclosed⟩ := hrest r b' hb'
        refine ⟨hb'_inv, b, hb, fun hor => hclosed ?_⟩
        obtain hb_closed | hmem := hor
        · exact Or.inl hb_closed
        · obtain rfl | hmem := List.mem_cons.mp hmem
          · left
            cases hb_closed : b.closed with
            | true => rfl
            | false => exact absurd ⟨b, hb, hb_closed⟩ hopen
          · exact Or.inr hmem

/-- **`close_all`** closes every room. -/
theorem closeAll_spec (h : s.Inv) (reason : String) {order : List RoomId} (horder : order.Perm s.registry) :
    (s.closeAll reason order).Inv ∧ ∀ r p, (s.closeAll reason order).entry r p = none := by
  obtain ⟨hregistry, hrooms⟩ := closeEach_spec (s := { s with registry := [] }) h.actors reason order
  have hclosed : ∀ r a', (s.closeAll reason order).actors r = some a' → a'.closed = true := by
    intro r a' ha'
    obtain ⟨-, a, ha, hor⟩ := hrooms r a' ha'
    apply hor
    cases hclosed : a.closed with
    | true => exact Or.inl rfl
    | false => exact Or.inr (horder.symm.subset (h.listed r a ha hclosed))
  refine ⟨⟨fun r a' ha' => (hrooms r a' ha').1, fun r a' ha' hopen => ?_, fun r hr => ?_⟩, fun r p => ?_⟩
  · rw [hclosed r a' ha'] at hopen
    cases hopen
  · rw [show (s.closeAll reason order).registry = [] from hregistry] at hr
    cases hr
  · unfold entry
    cases ha : (s.closeAll reason order).actors r with
    | none => rfl
    | some a' => exact if_pos (hclosed r a' ha)

end Rooms

end LongshipX.Sequential
