import Mathlib.Data.List.Basic

/-!
# The redirect to HTTPS

`to_https` of `http/server.rs`: the plain listener answers every request with the HTTPS address of the same host, path and
query. The address is put together from the `Host` header, as the `http` crate parses it, and from the request target.

* `Authority`, `PathAndQuery` : what the `http` crate promises of its values;
* `namedHost`, `target`, `toHttps` : the handler;
* `authorityOf`, `afterAuthority` : what a client makes of the address;
* `redirect_keeps_host_iff` : the host is kept, except for the target `*`.
-/

namespace LongshipX.Gateway.Redirect

/-- What ends the authority of a URL. -/
def endsAuthority (c : Char) : Bool := c == '/' || c == '?' || c == '#'

/-- `http::uri::Authority`: a host, after user information or none, before a port or none, the port being read by
`port_u16`. -/
structure Authority where
  text : String
  host : String
  portU16 : Option Nat
  form : ∃ userinfo port : List Char, text.toList = userinfo ++ host.toList ++ port ∧
    (userinfo = [] ∨ userinfo.getLast? = some '@') ∧ (port = [] ∨ port.head? = some ':')
  plain : text.toList.any endsAuthority = false

/-- `http::uri::PathAndQuery`: the asterisk of `OPTIONS *`, or a path, or a query without one. -/
structure PathAndQuery where
  text : String
  form : text = "*" ∨ text.toList.head? = some '/' ∨ text.toList.head? = some '?'
  deriving DecidableEq

/-- What the handler reads of a request: the first value of the `Host` header and `uri().path_and_query()`. -/
structure Request where
  host : Option (List UInt8)
  pathAndQuery : Option PathAndQuery

inductive Response where
  | badRequest
  | permanentRedirect (location : String)
  deriving DecidableEq

/-- `HeaderValue::to_str`: visible ASCII, blanks and tabs. -/
def toStr (value : List UInt8) : Option String :=
  if value.all fun b => (32 ≤ b && b < 127) || b == 9 then some (String.ofList (value.map fun b => Char.ofNat b.toNat))
  else none

/-- The filter of the handler: no user information, a host, and either no port or one that is a `u16`. -/
def accepts (authority : Authority) : Bool :=
  let suffix := authority.text.toList.drop authority.host.toList.length
  !authority.text.toList.contains '@' && !authority.host.isEmpty &&
    (suffix.isEmpty || (suffix.head? == some ':' && authority.portU16.isSome))

/-- The host that the header names, if the handler goes on; `parse` is `str::parse::<Authority>`. -/
def namedHost (parse : String → Option Authority) (request : Request) : Option Authority :=
  (request.host.bind toStr |>.bind parse).filter accepts

/-- The path and query of the new address. -/
def path (request : Request) : String := (request.pathAndQuery.map PathAndQuery.text).getD "/"

/-- The host with the port of the listener, which 443 need not be said. -/
def httpsAuthority (host : String) (httpsPort : Nat) : String :=
  if httpsPort = 443 then host else host ++ ":" ++ toString httpsPort

/-- `to_https`. -/
def toHttps (parse : String → Option Authority) (request : Request) (httpsPort : Nat) : Response :=
  match namedHost parse request with
  | none => .badRequest
  | some authority => .permanentRedirect ("https://" ++ httpsAuthority authority.host httpsPort ++ path request)

/-! ## What a client makes of the address -/

/-- The text after `https://`. -/
def afterScheme (location : String) : List Char := location.toList.drop "https://".toList.length

/-- The authority of the address. -/
def authorityOf (location : String) : String := String.ofList ((afterScheme location).takeWhile fun c => !endsAuthority c)

/-- Everything after its authority. -/
def afterAuthority (location : String) : String := String.ofList ((afterScheme location).dropWhile fun c => !endsAuthority c)

theorem afterScheme_https (rest : String) : afterScheme ("https://" ++ rest) = rest.toList := by
  rw [afterScheme, String.toList_append, List.drop_left]

/-! ## The pieces of the address -/

theorem Authority.host_plain (authority : Authority) : ∀ c ∈ authority.host.toList, endsAuthority c = false := by
  obtain ⟨userinfo, port, htext, -, -⟩ := authority.form
  have hplain := authority.plain
  rw [htext, List.any_append, List.any_append, Bool.or_eq_false_iff, Bool.or_eq_false_iff] at hplain
  intro c hc
  exact Bool.eq_false_iff.mpr (List.any_eq_false.mp hplain.1.2 c hc)

theorem endsAuthority_of_isDigit {c : Char} (h : c.isDigit = true) : endsAuthority c = false := by
  unfold endsAuthority
  simp only [Bool.or_eq_false_iff, beq_eq_false_iff_ne]
  refine ⟨⟨?_, ?_⟩, ?_⟩
  all_goals
    rintro rfl
    exact absurd h (by decide)

theorem httpsAuthority_plain (authority : Authority) (httpsPort : Nat) :
    ∀ c ∈ (httpsAuthority authority.host httpsPort).toList, endsAuthority c = false := by
  unfold httpsAuthority
  split_ifs
  · exact authority.host_plain
  · intro c hc
    rw [String.toList_append, String.toList_append, List.mem_append, List.mem_append] at hc
    rcases hc with (hhost | hcolon) | hport
    · exact authority.host_plain c hhost
    · obtain rfl : c = ':' := List.mem_singleton.mp hcolon
      decide
    · exact endsAuthority_of_isDigit (Nat.isDigit_of_mem_toDigits (by decide) (by decide)
        (Nat.toList_repr (n := httpsPort) ▸ hport))

theorem path_ends {request : Request} (h : request.pathAndQuery.map PathAndQuery.text ≠ some "*") :
    ∃ c rest, (path request).toList = c :: rest ∧ endsAuthority c = true := by
  unfold path
  cases hpath : request.pathAndQuery with
  | none => exact ⟨'/', [], rfl, rfl⟩
  | some part =>
      rw [hpath] at h
      rcases part.form with hstar | hslash | hquery
      · exact absurd (congrArg some hstar) h
      · obtain ⟨rest, hrest⟩ := List.head?_eq_some_iff.mp hslash
        exact ⟨'/', rest, hrest, rfl⟩
      · obtain ⟨rest, hrest⟩ := List.head?_eq_some_iff.mp hquery
        exact ⟨'?', rest, hrest, rfl⟩

/-- **The redirect keeps the host, except for the target `*`.** The authority of the address is the host that the request
names, with the port of the listener, and the rest is the path and query of the request, exactly when its target is not the
asterisk form. -/
theorem redirect_keeps_host_iff {parse : String → Option Authority} {request : Request} {httpsPort : Nat}
    {location : String} (h : toHttps parse request httpsPort = .permanentRedirect location) :
    ∃ authority rest, namedHost parse request = some authority ∧ location = "https://" ++ rest ∧
      ((authorityOf location = authority.host ++ (if httpsPort = 443 then "" else ":" ++ toString httpsPort) ∧
          afterAuthority location = (request.pathAndQuery.map PathAndQuery.text).getD "/") ↔
        request.pathAndQuery.map PathAndQuery.text ≠ some "*") := by
  unfold toHttps at h
  split at h
  · cases h
  · next authority hhost =>
      have hlocation := (Response.permanentRedirect.inj h).symm
      rw [String.append_assoc] at hlocation
      refine ⟨authority, httpsAuthority authority.host httpsPort ++ path request, hhost, hlocation, ?_⟩
      have hnew : authority.host ++ (if httpsPort = 443 then "" else ":" ++ toString httpsPort) =
          httpsAuthority authority.host httpsPort := by
        unfold httpsAuthority
        split_ifs
        · rw [String.append_empty]
        · rw [String.append_assoc]
      have hplain : ∀ c ∈ (httpsAuthority authority.host httpsPort).toList, (!endsAuthority c) = true := by
        intro c hc
        rw [httpsAuthority_plain authority httpsPort c hc]
        rfl
      rw [hnew, hlocation, authorityOf, afterAuthority, afterScheme_https, String.toList_append,
        List.takeWhile_append_of_pos hplain, List.dropWhile_append_of_pos hplain]
      show _ ∧ _ = path request ↔ _
      constructor
      · rintro ⟨htake, -⟩ hstar
        -- the asterisk is taken for a part of the host
        have hpath : (path request).toList = ['*'] := by
          rw [path, hstar]
          rfl
        rw [hpath, ← String.toList_inj, String.toList_ofList] at htake
        have hlength := congrArg List.length htake
        simp [endsAuthority] at hlength
      · intro hnot
        obtain ⟨c, rest, hpath, hends⟩ := path_ends hnot
        have hstop : (!endsAuthority c) = false := by rw [hends]; rfl
        rw [← String.toList_inj, ← String.toList_inj, String.toList_ofList, String.toList_ofList, hpath,
          List.takeWhile_cons, hstop, List.dropWhile_cons, hstop]
        exact ⟨List.append_nil _, rfl⟩

/-! ### One host -/

def exampleAuthority : Authority where
  text := "example.com:80"
  host := "example.com"
  portU16 := some 80
  form := ⟨[], ":80".toList, by decide, Or.inl rfl, Or.inr rfl⟩
  plain := by decide

/-- The parser on the one text that the requests here have. -/
def parseExample (raw : String) : Option Authority := if raw = "example.com:80" then some exampleAuthority else none

def exampleRequest (target : PathAndQuery) : Request :=
  ⟨some ("example.com:80".toList.map fun c => UInt8.ofNat c.toNat), some target⟩

/-- A path with a query. -/
def searchTarget : PathAndQuery := ⟨"/a?q=1", Or.inr (Or.inl rfl)⟩

theorem redirect_keeps_host_search : ∃ authority, namedHost parseExample (exampleRequest searchTarget) = some authority ∧
    authorityOf "https://example.com:8443/a?q=1" = authority.host ++ ":" ++ toString 8443 ∧
    afterAuthority "https://example.com:8443/a?q=1" = "/a?q=1" := by
  have hanswer : toHttps parseExample (exampleRequest searchTarget) 8443 =
      .permanentRedirect "https://example.com:8443/a?q=1" := by decide +kernel
  obtain ⟨authority, -, hhost, -, hkeeps⟩ := redirect_keeps_host_iff hanswer
  obtain ⟨hauthority, hrest⟩ := hkeeps.mpr (by decide)
  refine ⟨authority, hhost, ?_, hrest⟩
  rw [hauthority, String.append_assoc]
  rfl

/-- `OPTIONS *`. -/
def asteriskTarget : PathAndQuery := ⟨"*", Or.inl rfl⟩

theorem asterisk_changes_host : ¬ ∀ (parse : String → Option Authority) (request : Request) (httpsPort : Nat)
    (location : String), toHttps parse request httpsPort = .permanentRedirect location →
    ∃ authority, namedHost parse request = some authority ∧
      authorityOf location = authority.host ++ (if httpsPort = 443 then "" else ":" ++ toString httpsPort) ∧
      afterAuthority location = (request.pathAndQuery.map PathAndQuery.text).getD "/" := by
  intro hkeeps
  have hanswer : toHttps parseExample (exampleRequest asteriskTarget) 443 = .permanentRedirect "https://example.com*" := by
    decide +kernel
  have hnamed : (namedHost parseExample (exampleRequest asteriskTarget)).map Authority.host = some "example.com" := by
    decide +kernel
  obtain ⟨authority, hhost, hkept, -⟩ := hkeeps _ _ _ _ hanswer
  rw [hhost, Option.map_some, Option.some.injEq] at hnamed
  rw [hnamed] at hkept
  exact absurd hkept (by decide +kernel)

end LongshipX.Gateway.Redirect
