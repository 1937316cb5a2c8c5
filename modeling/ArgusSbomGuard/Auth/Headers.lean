import ArgusSbomGuard.Auth.Routes

/-!
# What caches and frames may do with a response

`SecurityHeadersMiddleware` of `middleware/security_headers.py` goes by the beginning of the path:
what begins like a static file may be cached by everybody for a week, and the page of the API
documentation may load scripts from elsewhere.  The router goes by whole segments.  The two fit, as
long as the host of the request ends where it should: what a handler behind a guard answers is
cached nowhere, and a page of it has the full policy (`guarded_never_cached`).

## Main definitions

* `SecurityHeaders`, `securityHeaders` : the headers that the middleware sets.
-/

namespace ArgusSbomGuard

/-- `CSP_DIRECTIVES`. -/
def cspDirectives : String :=
  "default-src 'self'; script-src 'self'; style-src 'self' 'unsafe-inline'; font-src 'self'; " ++
  "img-src 'self' data:; connect-src 'self'; object-src 'none'; base-uri 'self'; " ++
  "form-action 'self'; frame-ancestors 'none'"

/-- `DOCS_PATHS`. -/
def docsPaths : List String := ["/api/docs"]

/-- `PERMISSIONS_POLICY`. -/
def permissionsPolicy : String :=
  "geolocation=(), microphone=(), camera=(), payment=(), usb=(), magnetometer=(), gyroscope=(), " ++
  "accelerometer=(), browsing-topics=()"

/-- `CACHE_CONTROL_PUBLIC_PATH_PREFIXES`. -/
def cacheControlPublicPathPrefixes : List String := ["/static", "/favicon.ico"]

def publicCacheControl : String := "public, max-age=604800"

def privateCacheControl : String := "private, no-cache, no-store, must-revalidate, max-age=0"

/-- The headers that are sent with pages only. -/
structure PagePolicies where
  contentSecurityPolicy : Option String
  xFrameOptions : String
  referrerPolicy : String
  permissionsPolicy : String
  deriving DecidableEq

/-- The headers that the middleware sets. -/
structure SecurityHeaders where
  xContentTypeOptions : String
  cacheControl : String
  page : Option PagePolicies
  deriving DecidableEq

/-- `SecurityHeadersMiddleware.dispatch`, for the path and the `content-type` of the response. -/
def securityHeaders (lower : String → String) (urlPath contentType : String) : SecurityHeaders where
  xContentTypeOptions := "nosniff"
  cacheControl := if cacheControlPublicPathPrefixes.any (startsWith urlPath) then publicCacheControl
    else privateCacheControl
  page := if startsWith (lower contentType) "text/html" then
    some {
      contentSecurityPolicy := if urlPath ∈ docsPaths then none else some cspDirectives
      xFrameOptions := "DENY"
      referrerPolicy := "strict-origin-when-cross-origin"
      permissionsPolicy := permissionsPolicy }
    else none

/-- The policies of a page that are not weakened for its path. -/
def fullPolicies : PagePolicies :=
  ⟨some cspDirectives, "DENY", "strict-origin-when-cross-origin", permissionsPolicy⟩

variable {env : SiteEnv} {db db' : AuthDatabase} {req : SiteRequest} {now usedAt : DateTime}
  {host path : String} {route : Route} {caller : Caller} {isUuid : List Char → Bool}
  {text : List Char}

/-! ### Paths of guarded routes -/

/-- No path of the route begins like one that may be cached. -/
def RoutePath.neverCached : RoutePath → Bool
  | .parts (.lit l :: _) => ["static", "favicon.ico"].all fun s =>
      !s.toList.isPrefixOf (urlTrim l.toList)
  | _ => false

theorem neverCached_of_mem : ∀ r ∈ routes, r ∉ publicRoutes → r.path.neverCached = true := by
  decide +kernel

/-- A path of such a route has another beginning. -/
theorem startsWith_of_matches {r : RoutePath} (hr : r.neverCached = true)
    (hhost : plainHost host = true) (h : r.matches isUuid path = true) :
    ∀ s ∈ cacheControlPublicPathPrefixes, startsWith (urlsplitPath host path) s = false := by
  unfold RoutePath.neverCached at hr
  split at hr
  case h_2 => cases hr
  rename_i l segments
  obtain ⟨text, hpath, hfirst⟩ := beforeFirst_of_urlsplitPath hhost h
  have hname : ∀ name ∈ ["static", "favicon.ico"],
      ¬ ('/' :: name.toList) <+: (urlsplitPath host path).toList := by
    intro name hmem hpre
    have hsep : ∀ name ∈ ["static", "favicon.ico"], '/' ∉ name.toList := by decide
    rw [hpath] at hpre
    have hbegin : name.toList <+: beforeFirst '/' text :=
      prefix_beforeFirst (List.cons_prefix_cons.1 hpre).2 (hsep name hmem)
    have hne := List.all_eq_true.1 hr name hmem
    rw [← hfirst, List.isPrefixOf_iff_prefix.2 hbegin] at hne
    cases hne
  intro s hs
  refine Bool.eq_false_iff.2 fun hstarts => ?_
  have hprefix : s.toList <+: (urlsplitPath host path).toList :=
    List.isPrefixOf_iff_prefix.1 hstarts
  simp only [cacheControlPublicPathPrefixes, List.mem_cons, List.not_mem_nil, or_false] at hs
  rcases hs with rfl | rfl
  · exact hname "static" (by decide) hprefix
  · exact hname "favicon.ico" (by decide) hprefix

/-- A route that is not public is a page, or below `/api/v1`. -/
def RoutePath.belowApi : RoutePath → Bool
  | .parts (.lit a :: .lit b :: _) => a == "api" && b == "v1"
  | _ => false

theorem page_or_belowApi : ∀ r ∈ routes, r ∉ publicRoutes →
    r ∈ pageRoutes ∨ r.path.belowApi = true := by
  decide +kernel

/-- The page of the documentation is not below `/api/v1`. -/
theorem docs_of_belowApi {r : RoutePath} (hr : r.belowApi = true) (hhost : plainHost host = true)
    (h : r.matches isUuid path = true) : urlsplitPath host path ≠ "/api/docs" := by
  unfold RoutePath.belowApi at hr
  split at hr
  case h_2 => cases hr
  rename_i a b segments
  obtain ⟨ha, hb⟩ := Bool.and_eq_true_iff.1 hr
  rw [beq_iff_eq.1 ha, beq_iff_eq.1 hb] at h
  simp only [RoutePath.matches] at h
  split at h
  case h_2 => cases h
  rename_i text hpath
  simp only [matchesParts] at h
  split at h
  · cases h
  rename_i part rest hsplit
  simp only [Segment.accepts, Bool.and_eq_true, beq_iff_eq] at h
  obtain ⟨rfl, hrest⟩ := h
  have hpart : ∀ c ∈ "api/".toList, (isUnsafeUrlChar c || endsUrlPath c) = false := by
    simp [isUnsafeUrlChar, endsUrlPath]
  intro hdocs
  have hurl := urlsplitPath_of_plainHost hhost hpath
  have htext : text = "api/".toList ++ rest := splitFirst_eq_some hsplit
  rw [hdocs, htext, urlTrim_append hpart] at hurl
  -- what comes after is not "docs", but begins with "v1"
  have happend : "/api/".toList ++ "docs".toList = "/api/".toList ++ urlTrim rest := hurl
  have hdocs : "docs".toList = urlTrim rest := List.append_cancel_left happend
  have hfirst := beforeFirst_urlTrim_of_matchesParts hrest
  rw [← hdocs] at hfirst
  exact absurd hfirst (by decide)

/-- The page of the documentation is public. -/
theorem notMem_docsPaths (hroute : route ∈ routes) (hpublic : route ∉ publicRoutes)
    (hhost : plainHost host = true) (h : route.path.matches isUuid path = true) :
    urlsplitPath host path ∉ docsPaths := by
  intro hdocs
  have hdocs := List.mem_singleton.1 hdocs
  rcases page_or_belowApi route hroute hpublic with hpage | hapi
  · have hexempt : exempt "/api/docs" = true := by decide
    rw [← hdocs, exempt_of_matches hpage hhost h] at hexempt
    cases hexempt
  · exact docs_of_belowApi hapi hhost h hdocs

theorem guardRoute_route {session : Option SessionUser} {r : Route}
    (h : guardRoute env db req session now usedAt route = (db', .ran r caller)) : r = route := by
  unfold guardRoute at h
  cases hguard : route.guard with
  | unguarded =>
    simp only [hguard] at h
    cases h
    rfl
  | apiKeyRequired =>
    simp only [hguard] at h
    cases session with
    | some user =>
      cases h
      rfl
    | none => exact (answerOf_eq_ran h).1
  | mcpGate =>
    simp only [hguard] at h
    split at h
    · cases h
    · exact (answerOf_eq_ran h).1

/-- A handler runs for a route that matches the path. -/
theorem serve_matches (h : serve env db req now usedAt = (db', .ran route caller)) :
    route ∈ routes ∧ route.path.matches env.isUuid req.path = true := by
  unfold serve at h
  dsimp only at h
  split at h
  · cases h
  split at h
  · cases h
  split at h
  · cases h
  · rename_i r hfind
    obtain rfl := guardRoute_route h
    exact findRoute_eq_some hfind

/-- **What a handler behind a guard answers is never cached**, whatever the path of the request is,
and a page of it can be framed nowhere and runs only the scripts of the site, if the host of the
request ends where it should. -/
theorem guarded_never_cached (hhost : plainHost req.host = true)
    (h : serve env db req now usedAt = (db', .ran route caller)) (hroute : route ∉ publicRoutes)
    (contentType : String) :
    (securityHeaders env.lower req.urlPath contentType).cacheControl = privateCacheControl ∧
      ∀ policies ∈ (securityHeaders env.lower req.urlPath contentType).page,
        policies = fullPolicies := by
  obtain ⟨hmem, hmatch⟩ := serve_matches h
  have hcache : cacheControlPublicPathPrefixes.any (startsWith req.urlPath) = false :=
    List.any_eq_false.2 fun s hs => Bool.eq_false_iff.1
      (startsWith_of_matches (neverCached_of_mem route hmem hroute) hhost hmatch s hs)
  have hdocs : req.urlPath ∉ docsPaths := notMem_docsPaths hmem hroute hhost hmatch
  refine ⟨?_, fun policies hpage => ?_⟩
  · simp only [securityHeaders, hcache, Bool.false_eq_true, if_false]
  · simp only [securityHeaders, hdocs, if_false] at hpage
    split at hpage
    · exact (Option.some.inj hpage).symm
    · cases hpage

/-- A page of the settings for a session. -/
theorem guarded_never_cached_demo :
    (securityHeaders demoSiteEnv.lower demoSettingsRequest.urlPath "text/html").cacheControl =
        privateCacheControl ∧
      ∀ policies ∈
        (securityHeaders demoSiteEnv.lower demoSettingsRequest.urlPath "text/html").page,
          policies = fullPolicies := by
  have hserve : serve demoSiteEnv .empty demoSettingsRequest 86410000000 86410000000 =
      (.empty, .ran (pageRoute "GET" [.lit "settings"])
        (.session ⟨"u", "admin@argus.local"⟩)) := by
    rfl
  exact guarded_never_cached (by decide) hserve (by decide) "text/html"

end ArgusSbomGuard
