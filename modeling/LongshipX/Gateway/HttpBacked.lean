import LongshipX.Gateway.Http

/-!
# Every success of the HTTP API is backed

What stands behind a response: a registration behind `201`, an authentic login behind a token, and behind a profile the last
token of its player, which an authentic login of that player created.

* `Grows` : what stays true of the use cases; `step_grows`;
* `Backed`, `Fact` : what stands behind a response, and behind a request on its way to it;
* `HttpInv.step` : every step keeps it; `responses_backed` : so it holds of every response.
-/

namespace LongshipX.Gateway.Http
open Application Persistence

/-! ## The use cases only go on -/

/-- The log grows, and a call stays the call it is. -/
structure Grows (app app' : Application.State) : Prop where
  log : ∃ marks, app'.log = app.log ++ marks
  register : ∀ (k : Nat) (cmd : RegisterCommand) (pc : Register.Pc), app.execs[k]? = some (.register cmd pc) →
    ∃ pc', app'.execs[k]? = some (.register cmd pc')
  login : ∀ (k : Nat) (cmd : LoginCommand) (pc : Login.Pc), app.execs[k]? = some (.login cmd pc) →
    ∃ pc', app'.execs[k]? = some (.login cmd pc')

theorem Grows.refl (app : Application.State) : Grows app app :=
  ⟨⟨[], (List.append_nil _).symm⟩, fun _ _ pc h => ⟨pc, h⟩, fun _ _ pc h => ⟨pc, h⟩⟩

theorem Grows.length {app app' : Application.State} (g : Grows app app') : app.log.length ≤ app'.log.length := by
  obtain ⟨marks, h⟩ := g.log
  rw [h, List.length_append]
  exact Nat.le_add_right _ _

theorem Grows.mem {app app' : Application.State} (g : Grows app app') {entry : Nat × Mark} (h : entry ∈ app.log) :
    entry ∈ app'.log := by
  obtain ⟨marks, hlog⟩ := g.log
  rw [hlog]
  exact List.mem_append_left _ h

theorem Grows.registration {app app' : Application.State} (g : Grows app app') {r : Registration}
    (hr : r ∈ registrations app.log) : r ∈ registrations app'.log := mem_registrations.mpr (g.mem (mem_registrations.mp hr))

theorem Grows.fresh {app app' : Application.State} (g : Grows app app') (h : (issuedTokens app'.log).Nodup) :
    (issuedTokens app.log).Nodup := by
  obtain ⟨marks, hlog⟩ := g.log
  rw [hlog] at h
  exact ((List.sublist_append_left _ marks).filterMap _).nodup h

theorem step_grows {config : Config} {app app' : Application.State} {label : Application.Label}
    (h : app.step config label = some app') : Grows app app' := by
  obtain ⟨call, -, rfl⟩ | ⟨j, env, exec, stores', exec', mark, -, hexec, hadvance, rfl⟩ := step_cases h
  · exact ⟨⟨[], (List.append_nil _).symm⟩, fun k cmd pc hk => ⟨pc, Indexed.append_old hk⟩,
      fun k cmd pc hk => ⟨pc, Indexed.append_old hk⟩⟩
  · refine ⟨⟨_, rfl⟩, fun k cmd pc hk => ?_, fun k cmd pc hk => ?_⟩
    · by_cases hkj : k = j
      · subst hkj
        obtain rfl := Option.some.inj (hexec.symm.trans hk)
        obtain ⟨⟨_, pc', _⟩, -, heq⟩ := Option.map_eq_some_iff.mp hadvance
        obtain ⟨rfl, rfl, rfl⟩ := heq
        exact ⟨pc', Indexed.set_self hexec⟩
      · exact ⟨pc, (Indexed.set_of_ne hkj).trans hk⟩
    · by_cases hkj : k = j
      · subst hkj
        obtain rfl := Option.some.inj (hexec.symm.trans hk)
        obtain ⟨pc', rfl⟩ := Exec.login_goes_on hadvance
        exact ⟨pc', Indexed.set_self hexec⟩
      · exact ⟨pc, (Indexed.set_of_ne hkj).trans hk⟩

/-! ## What stands behind a response -/

/-- The request was made with a token that, at some moment after it arrived, was the last one of this player. -/
def Presented (app : Application.State) (e : Exchange) (playerId : PlayerId) (token : String) : Prop :=
  (∃ authorization, e.request = .me authorization ∧ bearerToken authorization = .ok token) ∧
    ∃ seen later, app.log = seen ++ later ∧ e.arrived ≤ seen.length ∧ Latest seen playerId token

/-- **What stands behind a response that is no error.** -/
def Backed (verify : String → String → Bool) (app : Application.State) (e : Exchange) : Response → Prop
  | .text _ => e.request = .healthz
  | .registered body => ∃ request k account player, e.request = .register request ∧
      (k, .registered account player) ∈ app.log ∧ Made (fun _ _ => True) request.command account player ∧
      body = ⟨account.id.uuid, player.id.uuid, player.nickname.value⟩
  | .loggedIn body => ∃ request k r, e.request = .login request ∧ r ∈ registrations app.log ∧
      Authentic verify request.command r ∧ (k, .tokenCreated r.player.id body.token) ∈ app.log ∧
      body.playerId = r.player.id.uuid ∧ body.nickname = r.player.nickname.value
  | .player body => ∃ token k cmd pc r, Presented app e r.player.id token ∧ app.execs[k]? = some (.login cmd pc) ∧
      (k, .tokenCreated r.player.id token) ∈ app.log ∧ r ∈ registrations app.log ∧ Authentic verify cmd r ∧
      body.playerId = r.player.id.uuid ∧ body.nickname = r.player.nickname.value
  | .error _ _ => True

def Fact (verify : String → String → Bool) (app : Application.State) (e : Exchange) : Prop :=
  match e.pc with
  | .start => True
  | .registering k => ∃ request pc, e.request = .register request ∧ app.execs[k]? = some (.register request.command pc)
  | .loggingIn k => ∃ request pc, e.request = .login request ∧ app.execs[k]? = some (.login request.command pc)
  | .resolving token => ∃ authorization, e.request = .me authorization ∧ bearerToken authorization = .ok token
  | .profile playerId => ∃ token, Presented app e playerId token
  | .done response => Backed verify app e response

section
variable {verify : String → String → Bool} {config : Config} {app app' : Application.State} {e : Exchange}

theorem Presented.mono (g : Grows app app') {playerId : PlayerId} {token : String} (h : Presented app e playerId token) :
    Presented app' e playerId token := by
  obtain ⟨hme, seen, later, hlog, harrived, hlatest⟩ := h
  obtain ⟨marks, hmarks⟩ := g.log
  exact ⟨hme, seen, later ++ marks, by rw [hmarks, hlog, List.append_assoc], harrived, hlatest⟩

theorem Fact.mono (g : Grows app app') (h : Fact verify app e) : Fact verify app' e := by
  obtain ⟨request, arrived, pc⟩ := e
  cases pc with
  | start | resolving => exact h
  | registering k =>
      obtain ⟨body, pc, hrequest, hk⟩ := h
      obtain ⟨pc', hk'⟩ := g.register k _ pc hk
      exact ⟨body, pc', hrequest, hk'⟩
  | loggingIn k =>
      obtain ⟨body, pc, hrequest, hk⟩ := h
      obtain ⟨pc', hk'⟩ := g.login k _ pc hk
      exact ⟨body, pc', hrequest, hk'⟩
  | profile playerId =>
      obtain ⟨token, hpresented⟩ := h
      exact ⟨token, hpresented.mono g⟩
  | done response =>
      cases response with
      | text | error => exact h
      | registered body =>
          obtain ⟨body', k, account, player, hrequest, hmark, hrest⟩ := h
          exact ⟨body', k, account, player, hrequest, g.mem hmark, hrest⟩
      | loggedIn body =>
          obtain ⟨body', k, r, hrequest, hr, hauthentic, hmark, hrest⟩ := h
          exact ⟨body', k, r, hrequest, g.registration hr, hauthentic, g.mem hmark, hrest⟩
      | player body =>
          obtain ⟨token, k, cmd, pc, r, hpresented, hk, hmark, hr, hrest⟩ := h
          obtain ⟨pc', hk'⟩ := g.login k _ pc hk
          exact ⟨token, k, cmd, pc', r, hpresented.mono g, hk', g.mem hmark, g.registration hr, hrest⟩

/-! ## One step of a handler -/

/-- The use cases have got here, and their logins have shown what they promise. -/
structure Reached (verify : String → String → Bool) (config : Config) (app : Application.State) : Prop where
  run : ∃ labels, (Application.system config ⟨∅, ∅, .new⟩).run (Application.system config ⟨∅, ∅, .new⟩).init labels = some app
  logins : Logins verify app

theorem Reached.ledger (h : Reached verify config app) : Ledger app := by
  obtain ⟨labels, hrun⟩ := h.run
  exact run_ledger hrun

theorem Reached.step (h : Reached verify config app) {label : Application.Label} (hok : Steps (Verifies verify) app label)
    (hstep : app.step config label = some app') : Reached verify config app' := by
  refine ⟨?_, h.logins.step h.ledger hok hstep⟩
  obtain ⟨labels, hrun⟩ := h.run
  exact ⟨labels ++ [label], TransitionSystem.run_concat.mpr ⟨app, hrun, hstep⟩⟩

theorem backed_register (h : Reached verify config app) {k : Nat} {body : RegisterRequest}
    {result : Except AppError RegisterResult} (hrequest : e.request = .register body)
    (hk : app.execs[k]? = some (.register body.command (.done result))) :
    Backed verify app e (registerResponse result) := by
  cases result with
  | error err => trivial
  | ok result =>
      obtain ⟨labels, hrun⟩ := h.run
      obtain ⟨account, player, htrace, hmade, rfl⟩ := run_registerTraces hashes_any hrun k _ hk
      exact ⟨body, k, account, player, hrequest, mem_trace.mp (htrace ▸ List.mem_singleton_self _), hmade, rfl⟩

theorem backed_login (h : Reached verify config app) {k : Nat} {body : LoginRequest} {result : Except AppError LoginResult}
    (hrequest : e.request = .login body) (hk : app.execs[k]? = some (.login body.command (.done result))) :
    Backed verify app e (loginResponse result) := by
  cases result with
  | error err => trivial
  | ok result =>
      obtain ⟨hmark, r, hr, hid, hnickname, hauthentic⟩ := h.logins.execs k _ _ hk
      exact ⟨body, k, r, hrequest, hr, hauthentic, hid ▸ hmark, congrArg PlayerId.uuid hid.symm, hnickname.symm⟩

theorem backed_me (h : Reached verify config app) {playerId : PlayerId} {token : String}
    (hpresented : Presented app e playerId token) :
    Backed verify app e (meResponse (getPlayerProfile app.stores.players playerId)) := by
  cases hplayer : app.stores.players.lookup playerId.uuid with
  | none =>
      simp only [getPlayerProfile, Players.findById, hplayer]
      trivial
  | some player =>
      simp only [getPlayerProfile, Players.findById, hplayer]
      obtain ⟨r, hr, hidentity, huuid⟩ :=
        h.ledger.players playerId.uuid (identity player) (by rw [Application.State.identityAt, hplayer]; rfl)
      have hid : r.player.id = player.id := congrArg Identity.id hidentity
      obtain rfl : player.id = playerId := congrArg PlayerId.mk huuid
      obtain ⟨-, seen, later, hlog, -, pre, k, post, hseen, -⟩ := id hpresented
      have hmark : (k, .tokenCreated player.id token) ∈ app.log := by
        rw [hlog, hseen]
        simp
      obtain ⟨cmd, pc, hk, r', hr', hid', hauthentic⟩ := h.logins.tokens k _ token hmark
      obtain rfl := h.ledger.eq_of_shared hr hr' fun hapart => hapart.2.2 (hid.trans hid'.symm)
      refine ⟨token, k, cmd, pc, r, hid.symm ▸ hpresented, hk, hid.symm ▸ hmark, hr, hauthentic, ?_, ?_⟩
      · exact congrArg PlayerId.uuid hid.symm
      · exact (congrArg (fun owner => owner.nickname.value) hidentity).symm

/-- **A handler's step**: what stands behind the request stands behind it at its next position. -/
theorem Fact.advance (h : Reached verify config app) (hfresh : (issuedTokens app.log).Nodup) {now : Nat}
    {call : Option Application.Call} {pc : Pc} (hadvance : e.advance app now = some (call, pc))
    (harrived : e.arrived ≤ app.log.length) (hfact : Fact verify app e) :
    Fact verify { app with execs := app.execs ++ call.toList.map Application.Call.start } { e with pc := pc } := by
  obtain ⟨request, arrived, pc₀⟩ := e
  have hlast : ∀ {exec : Exec}, (app.execs ++ [exec])[app.execs.length]? = some exec := List.getElem?_concat_length
  cases pc₀ with
  | start =>
      cases request with
      | healthz =>
          obtain ⟨rfl, rfl⟩ := Prod.mk.inj (Option.some.inj hadvance)
          rfl
      | register body =>
          obtain ⟨rfl, rfl⟩ := Prod.mk.inj (Option.some.inj hadvance)
          exact ⟨body, _, rfl, hlast⟩
      | login body =>
          obtain ⟨rfl, rfl⟩ := Prod.mk.inj (Option.some.inj hadvance)
          exact ⟨body, _, rfl, hlast⟩
      | me authorization =>
          simp only [Exchange.advance] at hadvance
          split at hadvance
          · obtain ⟨rfl, rfl⟩ := Prod.mk.inj (Option.some.inj hadvance)
            trivial
          · next htoken =>
            obtain ⟨rfl, rfl⟩ := Prod.mk.inj (Option.some.inj hadvance)
            exact ⟨authorization, rfl, htoken⟩
  | registering k =>
      simp only [Exchange.advance] at hadvance
      split at hadvance
      · next cmd result hk =>
        obtain ⟨rfl, rfl⟩ := Prod.mk.inj (Option.some.inj hadvance)
        obtain ⟨body, pc', rfl, hk'⟩ := hfact
        obtain ⟨rfl, rfl⟩ := Exec.register.inj (Option.some.inj (hk.symm.trans hk'))
        rw [Option.toList_none, List.map_nil, List.append_nil]
        exact backed_register h rfl hk
      · cases hadvance
  | loggingIn k =>
      simp only [Exchange.advance] at hadvance
      split at hadvance
      · next cmd result hk =>
        obtain ⟨rfl, rfl⟩ := Prod.mk.inj (Option.some.inj hadvance)
        obtain ⟨body, pc', rfl, hk'⟩ := hfact
        obtain ⟨rfl, rfl⟩ := Exec.login.inj (Option.some.inj (hk.symm.trans hk'))
        rw [Option.toList_none, List.map_nil, List.append_nil]
        exact backed_login h rfl hk
      · cases hadvance
  | resolving token =>
      simp only [Exchange.advance] at hadvance
      split at hadvance
      · obtain ⟨rfl, rfl⟩ := Prod.mk.inj (Option.some.inj hadvance)
        trivial
      · next playerId hauthorized =>
        obtain ⟨rfl, rfl⟩ := Prod.mk.inj (Option.some.inj hadvance)
        rw [Option.toList_none, List.map_nil, List.append_nil]
        have hresolve : app.stores.tokens.resolve token now = .ok (some playerId) := by
          unfold authorized at hauthorized
          split at hauthorized
          · next p hp =>
            rw [hp, Except.ok.inj hauthorized]
          · cases hauthorized
          · cases hauthorized
        obtain ⟨labels, hrun⟩ := h.run
        exact ⟨token, hfact, app.log, [], (List.append_nil _).symm, harrived, latest_of_resolve hfresh hrun hresolve⟩
  | profile playerId =>
      obtain ⟨rfl, rfl⟩ := Prod.mk.inj (Option.some.inj hadvance)
      obtain ⟨token, hpresented⟩ := hfact
      rw [Option.toList_none, List.map_nil, List.append_nil]
      exact backed_me h hpresented
  | done response => cases hadvance

/-! ## Every exchange -/

/-- What stands behind each request that has arrived, as long as no token was drawn twice. -/
structure HttpInv (verify : String → String → Bool) (config : Config) (s : State) : Prop where
  reached : Reached verify config s.app
  facts : (issuedTokens s.app.log).Nodup → ∀ (i : Nat) (e : Exchange), s.exchanges[i]? = some e →
    e.arrived ≤ s.app.log.length ∧ Fact verify s.app e

/-- The hasher says yes only to what `verify` accepts, in the use cases under the API. -/
def Label.Verifies (verify : String → String → Bool) (s : State) : Label → Prop
  | .arrive _ | .serve _ _ => True
  | .app label => Steps (Application.Verifies verify) s.app label

instance {verify : String → String → Bool} (s : State) (label : Label) : Decidable (label.Verifies verify s) :=
  match label with
  | .arrive _ | .serve _ _ => isTrue trivial
  | .app label => inferInstanceAs (Decidable (Steps (Application.Verifies verify) s.app label))

theorem called_grows (config : Config) (app : Application.State) (call : Option Application.Call) :
    Grows app { app with execs := app.execs ++ call.toList.map Application.Call.start } := by
  cases call with
  | none => simpa only [Option.toList_none, List.map_nil, List.append_nil] using Grows.refl app
  | some call => exact step_grows (show app.step config (.call call) = some _ from rfl)

theorem Reached.called (h : Reached verify config app) (call : Option Application.Call) :
    Reached verify config { app with execs := app.execs ++ call.toList.map Application.Call.start } := by
  cases call with
  | none => simpa only [Option.toList_none, List.map_nil, List.append_nil] using h
  | some call => exact h.step (show Steps (Verifies verify) app (.call call) from trivial) rfl

theorem HttpInv.step {s s' : State} {label : Label} (h : HttpInv verify config s) (hok : label.Verifies verify s)
    (hstep : s.step config label = some s') : HttpInv verify config s' := by
  cases label with
  | arrive request =>
      obtain rfl := Option.some.inj hstep
      refine ⟨h.reached, fun hfresh i e hi => ?_⟩
      obtain hold | ⟨-, rfl⟩ := Indexed.append_cases hi
      · exact h.facts hfresh i e hold
      · exact ⟨Nat.le_refl _, trivial⟩
  | serve i now =>
      simp only [State.step] at hstep
      split at hstep
      · cases hstep
      · next e he =>
        obtain ⟨⟨call, pc⟩, hadvance, rfl⟩ := Option.map_eq_some_iff.mp hstep
        refine ⟨h.reached.called call, fun hfresh j e' hj => ?_⟩
        obtain ⟨rfl, rfl⟩ | ⟨-, hold⟩ := Indexed.set_cases hj
        · obtain ⟨harrived, hfact⟩ := h.facts hfresh j e he
          exact ⟨harrived, hfact.advance h.reached hfresh hadvance harrived⟩
        · obtain ⟨harrived, hfact⟩ := h.facts hfresh j e' hold
          exact ⟨harrived, hfact.mono (called_grows config s.app call)⟩
  | app label =>
      obtain ⟨app', happ, rfl⟩ := Option.map_eq_some_iff.mp hstep
      have hgrows := step_grows happ
      refine ⟨h.reached.step hok happ, fun hfresh i e hi => ?_⟩
      obtain ⟨harrived, hfact⟩ := h.facts (hgrows.fresh hfresh) i e hi
      exact ⟨harrived.trans hgrows.length, hfact.mono hgrows⟩

theorem run_httpInv {s : State} {labels : List Label}
    (hok : (system config).Along (fun s label => label.Verifies verify s) (system config).init labels)
    (hrun : (system config).run (system config).init labels = some s) : HttpInv verify config s := by
  refine TransitionSystem.run_induction _ (fun _ _ _ h hok hstep => h.step hok hstep) ?_ hok hrun
  refine ⟨⟨⟨[], rfl⟩, ⟨fun k cmd pc hk => ?_, fun k p token hmark => ?_⟩⟩, fun _ i e hi => ?_⟩
  · cases hk
  · cases hmark
  · cases hi

/-- **Every success of the HTTP API is backed.** With whatever requests and use cases side by side, once no token is drawn
twice: an account that a client is told was stored, a token went to a login that was authentic, and a profile goes only to
who presents a token that was its player's last one after the request came, and that an authentic login of that player
created. -/
theorem responses_backed {s : State} {labels : List Label} {i : Nat} {e : Exchange} {response : Response}
    (hverifies : (system config).Along (fun s label => label.Verifies verify s) (system config).init labels)
    (hrun : (system config).run (system config).init labels = some s) (hfresh : (issuedTokens s.app.log).Nodup)
    (hi : s.exchanges[i]? = some e) (hdone : e.pc = .done response) : Backed verify s.app e response := by
  obtain ⟨-, hfact⟩ := (run_httpInv hverifies hrun).facts hfresh i e hi
  unfold Fact at hfact
  rw [hdone] at hfact
  exact hfact

end

def aliceVisits : List Label :=
  [.arrive (.register ⟨"Alice_01", "super-secret", " 爱丽丝 "⟩), .serve 0 0] ++
    List.replicate 5 (.app (.next 0 (obliging ""))) ++
    [.serve 0 0, .arrive (.login ⟨"alice_01", "super-secret"⟩), .serve 1 0] ++
    List.replicate 7 (.app (.next 1 (obliging "first"))) ++
    [.serve 1 0, .arrive (.me (some "Bearer first".toUTF8.toList)), .serve 2 5, .serve 2 5, .serve 2 5]

def emptyApi : TransitionSystem State Label := system ⟨10, 100⟩

theorem aliceVisits_reached : (emptyApi.run emptyApi.init aliceVisits).map
    (fun s => (s.exchanges[2]?.map Exchange.pc, issuedTokens s.app.log)) =
      some (some (.done (.player ⟨2, "爱丽丝", 1, 0, some 0⟩)), ["first"]) := by decide +kernel

theorem responses_backed_alice : ∃ s e, emptyApi.run emptyApi.init aliceVisits = some s ∧ s.exchanges[2]? = some e ∧
    Backed markedHash s.app e (.player ⟨2, "爱丽丝", 1, 0, some 0⟩) := by
  obtain ⟨s, hrun, hreached⟩ := Option.map_eq_some_iff.mp aliceVisits_reached
  obtain ⟨hexchange, hissued⟩ := Prod.mk.inj hreached
  obtain ⟨e, he, hdone⟩ := Option.map_eq_some_iff.mp hexchange
  have hverifies : emptyApi.Along (fun s label => label.Verifies markedHash s) emptyApi.init aliceVisits := by decide +kernel
  have hfresh : (issuedTokens s.app.log).Nodup := hissued ▸ List.nodup_singleton _
  exact ⟨s, e, hrun, he, responses_backed hverifies hrun hfresh he hdone⟩

end LongshipX.Gateway.Http
