import ArgusSbomGuard.Auth.Keys
import ArgusSbomGuard.Python.Url
import Mathlib.Data.List.DropRight

/-!
# Who may call what

`AuthMiddleware` asks for a session on every path but some that it knows by their beginning, the
routes of the REST API ask for a session or an API key, and the MCP endpoint for an API key.  The
middleware goes by the text of the path and the router by its parts, so that the two have to fit:
no route without a guard of its own may have a path that the middleware lets through, whatever
stands in its parameters (`exempt_of_matches`).  They do, as long as the host of the request ends
where it should: the handler of a route that is not public runs only for a session or a key in force
(`handler_authenticated`).  The middleware reads the path back from a URL with the Host header in
it, and a header that goes on with a path of its own opens every page (`exempt_of_host`).

## Main definitions

* `Segment`, `RoutePath.matches` : the paths of the router.
* `Route`, `routes`, `publicRoutes` : the routes of `main.py` with their guards.
* `SiteEnv`, `getUserFromCookie` : sessions.
* `SiteRequest.urlPath` : the path that the middleware looks at.
* `exempt` : the paths that `AuthMiddleware` lets through.
* `serve` : the answer to a request.
-/

namespace ArgusSbomGuard

/-! ### Paths -/

/-- What stands between two slashes of the path of a route. -/
inductive Segment
  | lit (text : String)
  | param
  | uuid
  deriving DecidableEq

/-- The path of a route, after the first slash, or that of a mount, which takes all paths below. -/
inductive RoutePath
  | parts (segments : List Segment)
  | mount (name : String)
  deriving DecidableEq

/-- The text is one for the segment; `isUuid` is the converter of Starlette. -/
def Segment.accepts (isUuid : List Char → Bool) (text : List Char) : Segment → Bool
  | .lit t => text == t.toList
  | .param => text != []
  | .uuid => isUuid text

/-- The last segment of a path, whose pattern ends with `$`, which also stands before a newline at
the end of the text. -/
def Segment.acceptsLast (isUuid : List Char → Bool) (text : List Char) (s : Segment) : Bool :=
  !text.contains '/' &&
    (s.accepts isUuid text || (text.getLast? == some '\n' && s.accepts isUuid text.dropLast))

/-- The segments match the text after the first slash. -/
def matchesParts (isUuid : List Char → Bool) : List Segment → List Char → Bool
  | [], _ => false
  | [s], text => s.acceptsLast isUuid text
  | s :: segments, text => match splitFirst '/' text with
    | none => false
    | some (part, rest) => s.accepts isUuid part && matchesParts isUuid segments rest

/-- The router takes the path for the route. -/
def RoutePath.matches (isUuid : List Char → Bool) (path : String) : RoutePath → Bool
  | .parts segments => match path.toList with
    | '/' :: text => matchesParts isUuid segments text
    | _ => false
  | .mount name => ('/' :: name.toList ++ ['/']).isPrefixOf path.toList

/-! ### Routes -/

/-- The guard of a route besides the middleware. -/
inductive Guard
  | unguarded
  | apiKeyRequired
  | mcpGate
  deriving DecidableEq

structure Route where
  methods : List String
  path : RoutePath
  guard : Guard
  deriving DecidableEq

/-- A route of the application or of a page, which has no guard of its own. -/
def pageRoute (method : String) (segments : List Segment) : Route :=
  ⟨[method], .parts segments, .unguarded⟩

/-- A route of a router with the dependency `api_key_required`. -/
def apiRoute (method : String) (segments : List Segment) : Route :=
  ⟨[method], .parts (.lit "api" :: .lit "v1" :: segments), .apiKeyRequired⟩

/-- The routes of `main.py` that anybody may call. -/
def publicRoutes : List Route :=
  [⟨["GET", "HEAD"], .parts [.lit "api", .lit "openapi.json"], .unguarded⟩,
    ⟨["GET", "HEAD"], .parts [.lit "api", .lit "docs"], .unguarded⟩,
    ⟨["GET", "HEAD"], .mount "static", .unguarded⟩,
    pageRoute "GET" [.lit "favicon.ico"],
    pageRoute "GET" [.lit "healthz"],
    pageRoute "GET" [.lit "version"],
    pageRoute "GET" [.lit "readyz"],
    pageRoute "GET" [.lit "login"],
    pageRoute "POST" [.lit "login"],
    pageRoute "POST" [.lit "login", .lit "verify"]]

/-- The routes of the REST API. -/
def apiRoutes : List Route :=
  [apiRoute "GET" [.lit "projects"],
    apiRoute "POST" [.lit "projects"],
    apiRoute "GET" [.lit "projects", .param],
    apiRoute "GET" [.lit "projects", .param, .lit "history"],
    apiRoute "DELETE" [.lit "projects", .param],
    apiRoute "PATCH" [.lit "projects", .param],
    apiRoute "POST" [.lit "sboms", .lit "upload"],
    apiRoute "GET" [.lit "sboms", .uuid, .lit "download"],
    apiRoute "GET" [.lit "sboms", .uuid],
    apiRoute "GET" [.lit "sboms", .param, .lit "diff", .param],
    apiRoute "DELETE" [.lit "sboms", .uuid],
    apiRoute "GET" [.lit "services"],
    apiRoute "DELETE" [.lit "services", .param],
    apiRoute "GET" [.lit "vulnerabilities", .lit "active"],
    apiRoute "GET" [.lit "vulnerabilities", .lit "summary"],
    apiRoute "GET" [.lit "vulnerabilities", .lit "acceptances"],
    apiRoute "POST" [.lit "vulnerabilities", .lit "acceptances"],
    apiRoute "DELETE" [.lit "vulnerabilities", .lit "acceptances", .param],
    apiRoute "GET" [.lit "alert-rules"],
    apiRoute "POST" [.lit "alert-rules"],
    apiRoute "DELETE" [.lit "alert-rules", .param],
    apiRoute "PATCH" [.lit "alert-rules", .param]]

/-- The two paths of the MCP endpoint. -/
def mcpRoutes : List Route :=
  [⟨["GET", "HEAD", "POST", "DELETE"], .parts [.lit "api", .lit "v1", .lit "mcp"], .mcpGate⟩,
    ⟨["GET", "HEAD", "POST", "DELETE"], .parts [.lit "api", .lit "v1", .lit "mcp", .lit ""],
      .mcpGate⟩]

/-- The pages. -/
def pageRoutes : List Route :=
  [pageRoute "POST" [.lit "logout"],
    pageRoute "GET" [.lit ""],
    pageRoute "POST" [.lit "refresh-snapshots"],
    pageRoute "GET" [.lit "projects", .param, .lit "edit-name"],
    pageRoute "GET" [.lit "projects", .param, .lit "cancel-edit-name"],
    pageRoute "PATCH" [.lit "projects", .param, .lit "name"],
    pageRoute "GET" [.lit "projects"],
    pageRoute "GET" [.lit "projects", .param],
    pageRoute "GET" [.lit "projects", .param, .lit "sboms"],
    pageRoute "GET" [.lit "projects", .param, .lit "vulns"],
    pageRoute "GET" [.lit "vulnerabilities"],
    pageRoute "GET" [.lit "sboms"],
    pageRoute "GET" [.lit "settings"],
    pageRoute "POST" [.lit "settings", .lit "api-keys"],
    pageRoute "DELETE" [.lit "settings", .lit "api-keys", .param]]

/-- All routes.  No two of different lists match one path, so that the order of the lists does not
matter. -/
def routes : List Route := publicRoutes ++ apiRoutes ++ mcpRoutes ++ pageRoutes

/-! ### Sessions -/

/-- `SessionUser`. -/
structure SessionUser where
  id : String
  email : String
  deriving DecidableEq

/-- What the site takes from outside: the signed cookies of `URLSafeTimedSerializer`, which carry
the second at which they were signed, texts of identifiers and the settings. -/
structure SiteEnv extends AuthEnv where
  sign : SessionUser → ℤ → String
  /-- The content of a cookie with a valid signature. -/
  unsign : String → Option (SessionUser × ℤ)
  unsign_sign : ∀ user second, unsign (sign user second) = some (user, second)
  /-- `str(uuid)`. -/
  strUuid : Uuid → String
  /-- `uuid.UUID(s)`. -/
  parseUuid : String → Option Uuid
  parseUuid_strUuid : ∀ i, parseUuid (strUuid i) = some i
  isUuid : List Char → Bool
  /-- `str.upper`. -/
  upper : String → String
  allowedHosts : List String
  sessionMaxAgeHours : ℤ
  mcpEnabled : Bool

variable (env : SiteEnv)

/-- `_SESSION_MAX_AGE`, in seconds. -/
def SiteEnv.sessionMaxAge : ℤ := env.sessionMaxAgeHours * 3600

/-- `_get_user_from_cookie`. -/
def getUserFromCookie (cookie : Option String) (now : DateTime) : Option SessionUser :=
  match cookie with
  | none => none
  | some c =>
    if c = "" then none
    else match env.unsign c with
      | none => none
      | some (user, signedAt) =>
        let age := now / 1000000 - signedAt
        if age > env.sessionMaxAge ∨ age < 0 then none else some user

/-! ### Requests -/

/-- `PUBLIC_PATHS`. -/
def publicPaths : List String :=
  ["/login", "/login/verify", "/healthz", "/readyz", "/version", "/favicon.ico"]

/-- `path.rstrip("/") or "/"`. -/
def trimmedPath (path : String) : String :=
  if path.toList.rdropWhile (· == '/') = [] then "/"
  else String.ofList (path.toList.rdropWhile (· == '/'))

/-- `s.startswith(t)`. -/
def startsWith (s t : String) : Bool := t.toList.isPrefixOf s.toList

/-- The middleware lets the path through. -/
def exempt (path : String) : Bool :=
  let path := trimmedPath path
  publicPaths.contains path || startsWith path "/login" || startsWith path "/static" ||
    startsWith path "/api/"

/-- A request; `path` is the path of the router, in which percent signs are decoded, and `host` the
`Host` header. -/
structure SiteRequest where
  method : String
  path : String
  host : String
  cookie : Option String
  authorization : Option String

/-- `request.url.path`, which Starlette reads from the URL that it puts together.  A host in
brackets that is no address raises here; such a request is left out. -/
def SiteRequest.urlPath (req : SiteRequest) : String := urlsplitPath req.host req.path

/-- `TrustedHostMiddleware` takes the host, whose port it ignores. -/
def trustedHost (allowedHosts : List String) (host : String) : Bool :=
  let name := beforeFirst ':' host.toList
  allowedHosts.any fun pattern => pattern == "*" || name == pattern.toList ||
    (startsWith pattern "*" && (pattern.toList.drop 1).isSuffixOf name)

/-- For whom a handler runs. -/
inductive Caller
  | anonymous
  | session (user : SessionUser)
  | apiKey (user : User)
  deriving DecidableEq

/-- How a request is answered: before a handler runs, or by the handler of a route.  A request
without a route, or with one for other methods only, is `notFound`. -/
inductive Answer
  | invalidHost
  | redirectToLogin
  | notFound
  | unauthorized (detail : String)
  | ran (route : Route) (caller : Caller)

/-- The route of a request, if there is one for its path and method. -/
def findRoute (req : SiteRequest) : Option Route :=
  routes.find? fun r => r.methods.contains req.method && r.path.matches env.isUuid req.path

/-- The answer of a gate to an API key. -/
def answerOf (route : Route) : AuthDatabase × Gate → AuthDatabase × Answer
  | (db, .pass user) => (db, .ran route (.apiKey user))
  | (db, .unauthorized detail) => (db, .unauthorized detail)

/-- The guard of a route, for a request with or without a session. -/
def guardRoute (db : AuthDatabase) (req : SiteRequest) (session : Option SessionUser)
    (now usedAt : DateTime) (route : Route) : AuthDatabase × Answer :=
  match route.guard with
  | .unguarded => (db, .ran route ((session.map Caller.session).getD .anonymous))
  | .apiKeyRequired => match session with
    | some user => (db, .ran route (.session user))
    | none =>
      answerOf route
        (apiKeyRequired env.toAuthEnv db none (req.authorization.getD "") now usedAt)
  | .mcpGate =>
    if !env.mcpEnabled then (db, .notFound)
    else answerOf route (mcpAuth env.toAuthEnv db req.authorization.toList now usedAt)

/-- `TrustedHostMiddleware`, `AuthMiddleware` and the router. -/
def serve (db : AuthDatabase) (req : SiteRequest) (now usedAt : DateTime) :
    AuthDatabase × Answer :=
  let session := getUserFromCookie env req.cookie now
  if !trustedHost env.allowedHosts req.host then (db, .invalidHost)
  else if !exempt req.urlPath && session.isNone then (db, .redirectToLogin)
  else match findRoute env req with
    | none => (db, .notFound)
    | some route => guardRoute env db req session now usedAt route

variable {env} {db db' : AuthDatabase} {req : SiteRequest} {now usedAt : DateTime}
  {host path : String} {text : List Char} {segments : List Segment} {route : Route}

/-! ### The first part of a path -/

/-- The middleware does not let a path through that begins with this part. -/
def guardedPart (part : List Char) : Bool :=
  !("login".toList.isPrefixOf part || "static".toList.isPrefixOf part ||
    ["api", "healthz", "readyz", "version", "favicon.ico"].any fun s => s.toList == part)

theorem prefix_beforeFirst {xs ys : List Char} (h : xs <+: ys) (hsep : '/' ∉ xs) :
    xs <+: beforeFirst '/' ys := by
  obtain ⟨zs, rfl⟩ := h
  rw [beforeFirst, List.takeWhile_append_of_pos]
  · exact List.prefix_append xs _
  · exact fun x hx => decide_eq_true fun heq => hsep (heq ▸ hx)

/-- What is left of a path without the slashes at its end. -/
theorem trimmedPath_cases (path : String) :
    trimmedPath path = "/" ∨ (trimmedPath path).toList <+: path.toList := by
  unfold trimmedPath
  split_ifs with h
  · exact .inl rfl
  · rw [String.toList_ofList]
    exact .inr (List.rdropWhile_prefix _ _)

theorem beforeFirst_of_trimmedPath {name : List Char} (hpath : path.toList = '/' :: text)
    (hsep : '/' ∉ name) (hne : name ≠ []) (h : (trimmedPath path).toList = '/' :: name) :
    beforeFirst '/' text = name := by
  have hdrop : (path.toList.rdropWhile (· == '/')) = '/' :: name := by
    unfold trimmedPath at h
    split_ifs at h with hnil
    · exact absurd (List.cons.inj h).2.symm hne
    · rwa [String.toList_ofList] at h
  obtain ⟨slashes, hslashes⟩ : path.toList.rdropWhile (· == '/') <+: path.toList :=
    List.rdropWhile_prefix _ _
  have hall : ∀ c ∈ slashes, c = '/' := by
    have htake : slashes = path.toList.rtakeWhile (· == '/') := by
      refine List.append_cancel_left (hslashes.trans ?_)
      exact (List.rdropWhile_append_rtakeWhile).symm
    intro c hc
    rw [htake] at hc
    have hslash := List.mem_rtakeWhile_imp (p := fun c => c == '/') hc
    exact beq_iff_eq.1 hslash
  rw [hdrop, hpath, List.cons_append] at hslashes
  obtain rfl := (List.cons.inj hslashes).2
  cases slashes with
  | nil => rw [List.append_nil, beforeFirst_of_notMem hsep]
  | cons c slashes =>
    obtain rfl := hall c List.mem_cons_self
    exact beforeFirst_append_cons hsep

/-- A path that begins like this, after the slash. -/
theorem prefix_of_startsWith {name : List Char} (hpath : path.toList = '/' :: text)
    (hne : name ≠ []) (h : ('/' :: name) <+: (trimmedPath path).toList) : name <+: text := by
  rcases trimmedPath_cases path with htrim | hprefix
  · rw [htrim] at h
    exact absurd (List.prefix_nil.1 (List.cons_prefix_cons.1 h).2) hne
  · have hlong := h.trans hprefix
    rw [hpath] at hlong
    exact (List.cons_prefix_cons.1 hlong).2

/-- **The paths that the middleware lets through, by their first part.** -/
theorem guardedPart_of_exempt (hpath : path.toList = '/' :: text) (h : exempt path = true) :
    guardedPart (beforeFirst '/' text) = false := by
  have hlogin : "/login".toList <+: (trimmedPath path).toList →
      guardedPart (beforeFirst '/' text) = false := by
    intro hpre
    have hfirst : "login".toList <+: beforeFirst '/' text :=
      prefix_beforeFirst (prefix_of_startsWith hpath (by decide) hpre) (by decide)
    simp only [guardedPart, List.isPrefixOf_iff_prefix.2 hfirst, Bool.true_or, Bool.not_true]
  have hname : ∀ name ∈ ["healthz", "readyz", "version", "favicon.ico"],
      (trimmedPath path).toList = '/' :: name.toList →
        guardedPart (beforeFirst '/' text) = false := by
    intro name hmem htrim
    have hparts : ∀ name ∈ ["healthz", "readyz", "version", "favicon.ico"],
        '/' ∉ name.toList ∧ name.toList ≠ [] ∧ guardedPart name.toList = false := by decide
    obtain ⟨hsep, hne, hopen⟩ := hparts name hmem
    rw [beforeFirst_of_trimmedPath hpath hsep hne htrim, hopen]
  simp only [exempt, publicPaths, startsWith, Bool.or_eq_true, List.contains_eq_mem,
    decide_eq_true_eq, List.isPrefixOf_iff_prefix] at h
  rcases h with ((hmem | hpre) | hpre) | hpre
  · simp only [List.mem_cons, List.not_mem_nil, or_false] at hmem
    rcases hmem with heq | heq | heq | heq | heq | heq
    · exact hlogin (by rw [heq])
    · exact hlogin (by rw [heq]; decide)
    · exact hname "healthz" (by simp) (by rw [heq]; rfl)
    · exact hname "readyz" (by simp) (by rw [heq]; rfl)
    · exact hname "version" (by simp) (by rw [heq]; rfl)
    · exact hname "favicon.ico" (by simp) (by rw [heq]; rfl)
  · exact hlogin hpre
  · have hfirst : "static".toList <+: beforeFirst '/' text :=
      prefix_beforeFirst (prefix_of_startsWith hpath (by decide) hpre) (by decide)
    simp only [guardedPart, List.isPrefixOf_iff_prefix.2 hfirst, Bool.true_or, Bool.or_true,
      Bool.not_true]
  · obtain ⟨rest, rfl⟩ : "api/".toList <+: text :=
      prefix_of_startsWith hpath (by decide) hpre
    have hsep : '/' ∉ "api".toList := by decide
    have hfirst : beforeFirst '/' ("api/".toList ++ rest) = "api".toList :=
      beforeFirst_append_cons hsep
    rw [hfirst]
    decide

theorem beforeFirst_of_splitFirst {part rest : List Char}
    (h : splitFirst '/' text = some (part, rest)) : beforeFirst '/' text = part := by
  induction text generalizing part with
  | nil => cases h
  | cons c text ih =>
    rw [splitFirst] at h
    split_ifs at h with hc
    · cases h
      exact List.takeWhile_cons_of_neg (by simp [hc])
    · obtain ⟨⟨part', rest'⟩, hsplit, heq⟩ := Option.map_eq_some_iff.1 h
      cases heq
      rw [← ih hsplit]
      exact List.takeWhile_cons_of_pos (by simp [hc])

/-- The first part of a text that segments match. -/
theorem beforeFirst_of_matchesParts {isUuid : List Char → Bool} {l : String}
    (h : matchesParts isUuid (.lit l :: segments) text = true) :
    beforeFirst '/' text = l.toList ∨ beforeFirst '/' text = l.toList ++ ['\n'] := by
  cases segments with
  | nil =>
    simp only [matchesParts, Segment.acceptsLast, Segment.accepts, Bool.and_eq_true,
      Bool.or_eq_true, Bool.not_eq_true', beq_iff_eq, List.contains_eq_mem,
      decide_eq_false_iff_not] at h
    rw [beforeFirst_of_notMem h.1]
    refine h.2.imp id fun ⟨hlast, hinit⟩ => ?_
    rw [← hinit]
    exact (List.dropLast_append_getLast? _ hlast).symm
  | cons s segments =>
    simp only [matchesParts] at h
    split at h
    · cases h
    · rename_i part rest hsplit
      rw [beforeFirst_of_splitFirst hsplit]
      simp only [Segment.accepts, Bool.and_eq_true, beq_iff_eq] at h
      exact .inl h.1

/-- The first part that the middleware sees of a text that segments match. -/
theorem beforeFirst_urlTrim_of_matchesParts {isUuid : List Char → Bool} {l : String}
    (h : matchesParts isUuid (.lit l :: segments) text = true) :
    beforeFirst '/' (urlTrim text) = urlTrim l.toList := by
  rw [beforeFirst_urlTrim]
  rcases beforeFirst_of_matchesParts h with hfirst | hfirst
  · rw [hfirst]
  · rw [hfirst, urlTrim_append_newline]

/-- The first part of the path of a page, as the middleware sees it. -/
def RoutePath.guarded : RoutePath → Bool
  | .parts (.lit l :: _) => guardedPart (urlTrim l.toList)
  | _ => false

theorem guarded_of_mem : ∀ r ∈ pageRoutes, r.path.guarded = true := by decide +kernel

/-- The first part that the middleware sees of a path that a pattern matches. -/
theorem beforeFirst_of_urlsplitPath {isUuid : List Char → Bool} {l : String}
    (hhost : plainHost host = true)
    (h : (RoutePath.parts (.lit l :: segments)).matches isUuid path = true) :
    ∃ text, (urlsplitPath host path).toList = '/' :: text ∧
      beforeFirst '/' text = urlTrim l.toList := by
  simp only [RoutePath.matches] at h
  split at h
  case h_2 => cases h
  rename_i text hpath
  exact ⟨urlTrim text, urlsplitPath_of_plainHost hhost hpath, beforeFirst_urlTrim_of_matchesParts h⟩

/-- **No page has a path that the middleware lets through**, if the host ends where it should. -/
theorem exempt_of_matches {isUuid : List Char → Bool} (hr : route ∈ pageRoutes)
    (hhost : plainHost host = true) (h : route.path.matches isUuid path = true) :
    exempt (urlsplitPath host path) = false := by
  have hguarded := guarded_of_mem route hr
  unfold RoutePath.guarded at hguarded
  split at hguarded
  case h_2 => cases hguarded
  rename_i l segments hroute
  rw [hroute] at h
  obtain ⟨text, hpath, hfirst⟩ := beforeFirst_of_urlsplitPath hhost h
  refine Bool.eq_false_iff.2 fun hexempt => ?_
  have hopen := guardedPart_of_exempt hpath hexempt
  rw [hfirst, hguarded] at hopen
  cases hopen

/-- With a host that goes on with the path of the login the middleware lets every path through. -/
theorem exempt_of_host {name rest : String} (hname : plainHost name = true) :
    exempt (urlsplitPath (name ++ "/login?" ++ rest) path) = true := by
  have hpath : urlsplitPath (name ++ "/login?" ++ rest) path = "/login" := by
    have htext : ("/login?" ++ rest ++ path).toList = '/' :: ("login?" ++ rest ++ path).toList := by
      simp
    have hsplit : urlsplitPath (name ++ "/login?" ++ rest) path =
        urlsplitPath name ("/login?" ++ rest ++ path) := by
      simp [urlsplitPath]
    rw [hsplit, ← String.toList_inj, urlsplitPath_of_plainHost hname htext]
    simp [urlTrim, isUnsafeUrlChar, endsUrlPath]
  rw [hpath]
  decide

/-! ### The guards -/

/-- A gate lets a request through for the user of a stored key. -/
theorem answerOf_eq_ran {authorization : String} {caller : Caller} {r : Route}
    (h : answerOf route (bearerGate env.toAuthEnv db authorization now usedAt) =
      (db', .ran r caller)) :
    r = route ∧ ∃ user, caller = .apiKey user ∧ ∃ token,
      bearerToken env.toAuthEnv authorization = some token ∧
      (authenticateApiKey env.toAuthEnv db token now usedAt).2.user = some user := by
  unfold bearerGate at h
  cases htoken : bearerToken env.toAuthEnv authorization with
  | none =>
    simp only [htoken, answerOf] at h
    cases h
  | some token =>
    simp only [htoken] at h
    cases hgate : gateOf (authenticateApiKey env.toAuthEnv db token now usedAt).2 with
    | unauthorized detail =>
      simp only [hgate, answerOf] at h
      cases h
    | pass user =>
      simp only [hgate, answerOf] at h
      cases h
      exact ⟨rfl, user, rfl, token, rfl, gateOf_eq_pass.1 hgate⟩

/-- Why the handler of a route may run for a caller. -/
inductive Authenticated (env : SiteEnv) (db : AuthDatabase) (req : SiteRequest)
    (now usedAt : DateTime) (route : Route) : Caller → Prop
  | anyone {caller : Caller} (h : route ∈ publicRoutes) :
    Authenticated env db req now usedAt route caller
  | session {user : SessionUser} (h : getUserFromCookie env req.cookie now = some user)
    (hguard : route.guard ≠ .mcpGate) : Authenticated env db req now usedAt route (.session user)
  | apiKey {user : User} {token : String} (hguard : route.guard ≠ .unguarded)
    (htoken : bearerToken env.toAuthEnv (req.authorization.getD "") = some token)
    (h : (authenticateApiKey env.toAuthEnv db token now usedAt).2.user = some user) :
    Authenticated env db req now usedAt route (.apiKey user)

/-- A route without a guard of its own is public or a page. -/
theorem mem_of_unguarded :
    ∀ r ∈ routes, r.guard = .unguarded → r ∈ publicRoutes ∨ r ∈ pageRoutes := by
  decide +kernel

theorem findRoute_eq_some (h : findRoute env req = some route) :
    route ∈ routes ∧ route.path.matches env.isUuid req.path = true := by
  unfold findRoute at h
  have hboth := List.find?_some h
  exact ⟨List.mem_of_find?_eq_some h, (Bool.and_eq_true_iff.1 hboth).2⟩

theorem guardRoute_authenticated {session : Option SessionUser} {r : Route} {caller : Caller}
    (hsession : session = getUserFromCookie env req.cookie now)
    (hopen : route.guard = .unguarded → route ∈ publicRoutes ∨ session.isSome = true)
    (h : guardRoute env db req session now usedAt route = (db', .ran r caller)) :
    r = route ∧ Authenticated env db req now usedAt route caller := by
  unfold guardRoute at h
  cases hguard : route.guard with
  | unguarded =>
    simp only [hguard] at h
    cases h
    rcases hopen hguard with hpublic | hsome
    · exact ⟨rfl, .anyone hpublic⟩
    · obtain ⟨user, rfl⟩ := Option.isSome_iff_exists.1 hsome
      exact ⟨rfl, .session hsession.symm (by rw [hguard]; decide)⟩
  | apiKeyRequired =>
    simp only [hguard] at h
    cases session with
    | some user =>
      cases h
      exact ⟨rfl, .session hsession.symm (by rw [hguard]; decide)⟩
    | none =>
      obtain ⟨rfl, user, rfl, token, htoken, huser⟩ := answerOf_eq_ran h
      exact ⟨rfl, .apiKey (by rw [hguard]; decide) htoken huser⟩
  | mcpGate =>
    simp only [hguard] at h
    split at h
    · cases h
    · obtain ⟨rfl, user, rfl, token, htoken, huser⟩ := answerOf_eq_ran h
      refine ⟨rfl, .apiKey (by rw [hguard]; decide) ?_ huser⟩
      rwa [List.headD_eq_head?_getD, Option.head?_toList] at htoken

/-- A handler runs because its route is public, or because of a session or a key. -/
theorem serve_authenticated {caller : Caller} (hhost : plainHost req.host = true)
    (h : serve env db req now usedAt = (db', .ran route caller)) :
    Authenticated env db req now usedAt route caller := by
  unfold serve at h
  dsimp only at h
  split at h
  case isTrue => cases h
  split at h
  case isTrue => cases h
  rename_i hpass
  split at h
  case h_1 => cases h
  rename_i r hfind
  obtain ⟨hroute, hmatch⟩ := findRoute_eq_some hfind
  have hopen : r.guard = .unguarded →
      r ∈ publicRoutes ∨ (getUserFromCookie env req.cookie now).isSome = true := by
    intro hguard
    refine (mem_of_unguarded r hroute hguard).imp_right fun hpage => ?_
    -- the middleware has asked for a session
    rw [SiteRequest.urlPath, exempt_of_matches hpage hhost hmatch] at hpass
    simpa [Option.isSome_iff_ne_none] using hpass
  obtain ⟨rfl, hauth⟩ := guardRoute_authenticated rfl hopen h
  exact hauth

/-- **The handler of a route that is not public runs for a session or an API key only**, whatever
the method, the path, the cookie and the header of the request are, if the host ends where it
should: for the user of the cookie, except behind the gate of the MCP endpoint, or for the user of a
stored key in force, which the header brings. -/
theorem handler_authenticated {caller : Caller} (hhost : plainHost req.host = true)
    (h : serve env db req now usedAt = (db', .ran route caller)) (hroute : route ∉ publicRoutes) :
    (∃ user, caller = .session user ∧ getUserFromCookie env req.cookie now = some user ∧
      route.guard ≠ .mcpGate) ∨
    ∃ key ∈ db.apiKeys, ∃ token user, caller = .apiKey user ∧ user.id = key.userId ∧
      bearerToken env.toAuthEnv (req.authorization.getD "") = some token ∧
      "argus_".toList <+: token.toList ∧ key.keyHash = env.hashToken token ∧
      expiryPassed now key.expiresAt = false ∧ route.guard ≠ .unguarded := by
  cases serve_authenticated hhost h with
  | anyone hpublic => exact absurd hpublic hroute
  | session huser hguard => exact .inl ⟨_, rfl, huser, hguard⟩
  | @apiKey user token hguard htoken huser =>
    rcases authenticateApiKey_cases env.toAuthEnv db token now usedAt with
      ⟨key, hkey, hpre, hhash, hexp, u, hu, heq⟩ | ⟨-, -, hvalid⟩
    · rw [heq] at huser
      obtain rfl := Option.some.inj huser
      exact .inr ⟨key, hkey, token, u, rfl, hu, htoken, hpre, hhash, hexp, hguard⟩
    · rw [ApiKeyAuthResult.valid, huser] at hvalid
      cases hvalid

/-! ### A concrete site -/

/-- A text with an end that it cannot contain itself. -/
def writeField (text : List Char) : List Char := (text.flatMap fun c => ['x', c]) ++ ['y']

def readField : List Char → Option (List Char × List Char)
  | 'y' :: rest => some ([], rest)
  | 'x' :: c :: rest => (readField rest).map fun p => (c :: p.1, p.2)
  | _ => none

theorem readField_writeField (text rest : List Char) :
    readField (writeField text ++ rest) = some (text, rest) := by
  induction text with
  | nil => rfl
  | cons c text ih =>
    have hstep : readField (writeField (c :: text) ++ rest) =
        (readField (writeField text ++ rest)).map fun p => (c :: p.1, p.2) := rfl
    rw [hstep, ih]
    rfl

/-- The seconds after the first day of the calendar, or before its end. -/
def writeSecond (second : ℤ) : List Char :=
  match second - 86400 with
  | .ofNat n => '+' :: List.replicate n '1'
  | .negSucc n => '-' :: List.replicate n '1'

def readSecond : List Char → Option ℤ
  | '+' :: ones => some (.ofNat ones.length + 86400)
  | '-' :: ones => some (.negSucc ones.length + 86400)
  | _ => none

theorem readSecond_writeSecond (second : ℤ) : readSecond (writeSecond second) = some second := by
  unfold writeSecond
  split
  all_goals
    rename_i n h
    simp only [readSecond, List.length_replicate, ← h, Int.sub_add_cancel]

/-- A site whose cookies are written in the clear, with the secrets themselves for their hashes. -/
def demoSiteEnv : SiteEnv where
  hashToken := id
  lower := PyStr.lower
  loginTokenExpireMinutes := 15
  apiKeyTtlDays := some 90
  sign user second := String.ofList
    (writeField user.id.toList ++ (writeField user.email.toList ++ writeSecond second))
  unsign cookie := do
    let (id, rest) ← readField cookie.toList
    let (email, rest) ← readField rest
    let second ← readSecond rest
    return (⟨String.ofList id, String.ofList email⟩, second)
  unsign_sign user second := by
    simp [readField_writeField, readSecond_writeSecond]
  strUuid i := String.ofList (List.replicate i 'u')
  parseUuid s := some s.length
  parseUuid_strUuid i := by simp
  isUuid _ := true
  upper s := String.ofList (s.toList.map Char.toUpper)
  allowedHosts := ["localhost"]
  sessionMaxAgeHours := 24
  mcpEnabled := true

/-- The cookie of a session that began in the first second. -/
def demoCookie : String := demoSiteEnv.sign ⟨"u", "admin@argus.local"⟩ 86400

/-- A request for the page of the settings. -/
def demoSettingsRequest : SiteRequest := ⟨"GET", "/settings", "localhost", some demoCookie, none⟩

/-- The page is shown for the session. -/
theorem handler_authenticated_demo :
    ∃ route caller, serve demoSiteEnv .empty demoSettingsRequest 86410000000 86410000000 =
        (.empty, .ran route caller) ∧ route ∉ publicRoutes ∧
      ((∃ user, caller = .session user ∧
          getUserFromCookie demoSiteEnv demoSettingsRequest.cookie 86410000000 = some user ∧
          route.guard ≠ .mcpGate) ∨
        ∃ key ∈ AuthDatabase.empty.apiKeys, ∃ token user, caller = .apiKey user ∧
          user.id = key.userId ∧
          bearerToken demoSiteEnv.toAuthEnv (demoSettingsRequest.authorization.getD "") =
            some token ∧
          "argus_".toList <+: token.toList ∧ key.keyHash = demoSiteEnv.hashToken token ∧
          expiryPassed 86410000000 key.expiresAt = false ∧ route.guard ≠ .unguarded) := by
  have hserve : serve demoSiteEnv .empty demoSettingsRequest 86410000000 86410000000 =
      (.empty, .ran (pageRoute "GET" [.lit "settings"])
        (.session ⟨"u", "admin@argus.local"⟩)) := by
    rfl
  exact ⟨_, _, hserve, by decide, handler_authenticated (by decide) hserve (by decide)⟩

/-- The page without a session, for a host that `TrustedHostMiddleware` takes. -/
example : ∃ db, serve demoSiteEnv .empty ⟨"GET", "/settings", "localhost:80/login?x=", none, none⟩
    0 0 = (db, .ran (pageRoute "GET" [.lit "settings"]) .anonymous) :=
  ⟨.empty, rfl⟩

end ArgusSbomGuard
