import LongshipX.Application.Credentials
import LongshipX.Gateway.Redirect

/-!
# The HTTP API

`/register`, `/login`, `/me` and `/healthz` of `http/routes.rs`, with the extractor of `http/auth_extractor.rs` and the
errors of `http/error.rs`. A request is served side by side with all others and with whatever else calls the use cases; it is
cut at its awaits.

* `ApiError.ofApp`, `bearerToken`, `authorized` : what a client is told, and who it is;
* `Pc`, `Exchange` : a request and how far it is served; `State.step`, `system` : all of them, over the use cases.
-/

namespace LongshipX.Gateway.Http
open Application Persistence

/-! ## Responses -/

/-- `StatusCode`, as far as the API answers with it. -/
inductive StatusCode where
  | ok
  | created
  | badRequest
  | unauthorized
  | forbidden
  | notFound
  | conflict
  | tooManyRequests
  | internalServerError
  | serviceUnavailable
  deriving DecidableEq, Repr

/-- `canonical_reason`. -/
def StatusCode.canonicalReason : StatusCode → String
  | .ok => "OK"
  | .created => "Created"
  | .badRequest => "Bad Request"
  | .unauthorized => "Unauthorized"
  | .forbidden => "Forbidden"
  | .notFound => "Not Found"
  | .conflict => "Conflict"
  | .tooManyRequests => "Too Many Requests"
  | .internalServerError => "Internal Server Error"
  | .serviceUnavailable => "Service Unavailable"

structure ApiError where
  status : StatusCode
  message : String
  deriving DecidableEq, Repr

/-- `impl From<AppError> for ApiError`: what went wrong inside is logged, not told. -/
def ApiError.ofApp : AppError → ApiError
  | .validation message => ⟨.badRequest, message⟩
  | .unauthorized message => ⟨.unauthorized, message⟩
  | .forbidden message => ⟨.forbidden, message⟩
  | .notFound message => ⟨.notFound, message⟩
  | .conflict message => ⟨.conflict, message⟩
  | .busy => ⟨.serviceUnavailable, "服务繁忙,请稍后重试"⟩
  | .rateLimited => ⟨.tooManyRequests, "请求过于频繁"⟩
  | .postCommit _ => ⟨.internalServerError, "数据已提交,事件发布失败,请勿重试整个操作"⟩
  | .storage _ => ⟨.internalServerError, "服务器内部错误"⟩
  | .internal _ => ⟨.internalServerError, "服务器内部错误"⟩

structure ErrorBody where
  error : String
  message : String
  deriving DecidableEq, Repr

structure RegisterRequest where
  username : String
  password : String
  nickname : String
  deriving DecidableEq, Repr

structure RegisterResponse where
  accountId : Uuid
  playerId : Uuid
  nickname : String
  deriving DecidableEq, Repr

structure LoginRequest where
  username : String
  password : String
  deriving DecidableEq, Repr

structure LoginResponse where
  token : String
  playerId : Uuid
  nickname : String
  expiresInSecs : Nat
  deriving DecidableEq, Repr

structure PlayerResponse where
  playerId : Uuid
  nickname : String
  level : Nat
  exp : Nat
  lastLoginAt : Option DateTime
  deriving DecidableEq, Repr

/-- A status with its body. -/
inductive Response where
  | text (body : String)
  | registered (body : RegisterResponse)
  | loggedIn (body : LoginResponse)
  | player (body : PlayerResponse)
  | error (status : StatusCode) (body : ErrorBody)
  deriving DecidableEq, Repr

/-- `impl IntoResponse for ApiError`. -/
def ApiError.intoResponse (err : ApiError) : Response := .error err.status ⟨err.status.canonicalReason, err.message⟩

/-! ## Requests -/

/-- A request for one of the routes, with its JSON body or the first value of its `Authorization` header. -/
inductive Request where
  | healthz
  | register (body : RegisterRequest)
  | login (body : LoginRequest)
  | me (authorization : Option (List UInt8))
  deriving DecidableEq, Repr

def RegisterRequest.command (body : RegisterRequest) : RegisterCommand := ⟨body.username, body.password, body.nickname⟩

def LoginRequest.command (body : LoginRequest) : LoginCommand := ⟨body.username, body.password⟩

/-- `str::strip_prefix`. -/
def stripPrefix (start text : String) : Option String :=
  if start.toList.isPrefixOf text.toList then some (String.ofList (text.toList.drop start.toList.length)) else none

/-- `from_request_parts` of `AuthUser`, up to the token. -/
def bearerToken (authorization : Option (List UInt8)) : Except ApiError String :=
  match authorization.bind Redirect.toStr with
  | none => .error ⟨.unauthorized, "缺少 Authorization 头"⟩
  | some header =>
    match stripPrefix "Bearer " header with
    | none => .error ⟨.unauthorized, "Authorization 必须为 Bearer token"⟩
    | some token => .ok (Text.trim token)

/-- `from_request_parts` of `AuthUser`, from what the token store answers. -/
def authorized : Except AppError (Option PlayerId) → Except ApiError PlayerId
  | .ok (some playerId) => .ok playerId
  | .ok none => .error ⟨.unauthorized, "token 无效或已过期"⟩
  | .error err => .error (.ofApp err)

/-- `GetPlayerProfile::execute`. -/
def getPlayerProfile (players : Players) (playerId : PlayerId) : Except AppError PlayerProfile :=
  match players.findById playerId with
  | .error err => .error (.ofRepo err)
  | .ok none => .error (.notFound "玩家不存在")
  | .ok (some player) => .ok (.of player)

/-- The end of `register`. -/
def registerResponse : Except AppError RegisterResult → Response
  | .ok result => .registered ⟨result.accountId.uuid, result.playerId.uuid, result.nickname⟩
  | .error err => (ApiError.ofApp err).intoResponse

/-- The end of `login`. -/
def loginResponse : Except AppError LoginResult → Response
  | .ok result => .loggedIn ⟨result.token, result.playerId.uuid, result.nickname, result.expiresInSecs⟩
  | .error err => (ApiError.ofApp err).intoResponse

/-- The end of `me`. -/
def meResponse : Except AppError PlayerProfile → Response
  | .ok profile =>
    .player ⟨profile.playerId.uuid, profile.nickname, profile.level, profile.exp, profile.lastLoginAt⟩
  | .error err => (ApiError.ofApp err).intoResponse

/-! ## Requests side by side -/

/-- How far a request is served: not at all, in a use case, before the token store, before the repository, or to its end. -/
inductive Pc where
  | start
  | registering (exec : Nat)
  | loggingIn (exec : Nat)
  | resolving (token : String)
  | profile (playerId : PlayerId)
  | done (response : Response)
  deriving DecidableEq

/-- A request. `arrived` is a history: how much had been logged when it came. -/
structure Exchange where
  request : Request
  arrived : Nat
  pc : Pc

/-- The use cases with their stores, and all requests so far. -/
structure State where
  app : Application.State
  exchanges : List Exchange

inductive Label where
  /-- A client sends a request. -/
  | arrive (request : Request)
  /-- A handler goes on; `now` is what the token store's clock reads. -/
  | serve (i : Nat) (now : Nat)
  /-- A use case goes on, or somebody else calls one. -/
  | app (label : Application.Label)

/-- What a handler does next: a use case that it calls, and where it is then. -/
def Exchange.advance (app : Application.State) (now : Nat) (e : Exchange) : Option (Option Application.Call × Pc) :=
  match e.pc with
  | .start =>
    match e.request with
    | .healthz => some (none, .done (.text "ok"))
    | .register body => some (some (.register body.command), .registering app.execs.length)
    | .login body => some (some (.login body.command), .loggingIn app.execs.length)
    | .me authorization =>
      match bearerToken authorization with
      | .error err => some (none, .done err.intoResponse)
      | .ok token => some (none, .resolving token)
  | .registering k =>
    match app.execs[k]? with
    | some (.register _ (.done result)) => some (none, .done (registerResponse result))
    | _ => none
  | .loggingIn k =>
    match app.execs[k]? with
    | some (.login _ (.done result)) => some (none, .done (loginResponse result))
    | _ => none
  | .resolving token =>
    match authorized (app.stores.tokens.resolve token now) with
    | .error err => some (none, .done err.intoResponse)
    | .ok playerId => some (none, .profile playerId)
  | .profile playerId => some (none, .done (meResponse (getPlayerProfile app.stores.players playerId)))
  | .done _ => none

def State.step (config : Config) (s : State) : Label → Option State
  | .arrive request => some { s with exchanges := s.exchanges ++ [⟨request, s.app.log.length, .start⟩] }
  | .serve i now =>
    match s.exchanges[i]? with
    | none => none
    | some e =>
      (e.advance s.app now).map fun (call, pc) =>
        { app := { s.app with execs := s.app.execs ++ call.toList.map Call.start }
          exchanges := s.exchanges.set i { e with pc := pc } }
  | .app label => (s.app.step config label).map fun app => { s with app := app }

/-- The API over empty stores. -/
def system (config : Config) : TransitionSystem State Label where
  init := ⟨(Application.system config ⟨∅, ∅, .new⟩).init, []⟩
  step := State.step config

end LongshipX.Gateway.Http
