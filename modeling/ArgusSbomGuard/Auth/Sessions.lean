import ArgusSbomGuard.Auth.Expiry
import ArgusSbomGuard.Auth.Routes
import ArgusSbomGuard.Transition.Basic

/-!
# Where every access comes from

The login pages, the pages of the API keys and everything behind a guard as one machine, with the
cookies that the site has handed out.  The history of a run says which users were made at a start,
which codes were mailed, who signed in, which keys were created and revoked, and which handlers ran
for whom.  Every entry of it is backed by earlier ones (`backed_run`): an access needs a session or
a key, a key a session in which it was created or the script of the operator, a session a code that
was redeemed in time and only once, and a code a user, who was made the administrator at some start
(`access_backed`).  A request is one step; two requests at a time are in `Auth/Concurrent`.

## Main definitions

* `seedAdminUser`, `loginRequest`, `loginVerify`, `createApiKeyWeb` : the handlers.
* `createApiKeyScript` : the script of the operator.
* `SiteWorld`, `SiteAction`, `siteSystem` : the machine of the requests.
* `SiteEvent`, `siteEvents` : what a step adds to the history.
* `Genuine` : a request with a plain host and no cookie with a forged signature.
* `Justified`, `Backed` : what an entry of the history needs before it.
-/

namespace ArgusSbomGuard

/-- The settings of the login pages besides those of the environment. -/
structure LoginSettings where
  showLoginCodeInResponse : Bool

section

variable (env : SiteEnv) (settings : LoginSettings) (c : Conversions) (db : AuthDatabase)

/-- `get_user_by_email`. -/
def getUserByEmail (email : String) : Except PyError (Option User) :=
  if !fitsText (normalizedEmail env.toAuthEnv email) then .error .dataError
  else .ok (db.users.find? fun u => u.email == normalizedEmail env.toAuthEnv email)

/-- `seed_admin_user`. -/
def seedAdminUser (adminEmail : String) (newId : Uuid) :
    Except PyError (AuthDatabase × User) := do
  let email := normalizedEmail env.toAuthEnv adminEmail
  match ← getUserByEmail env db email with
  | some user => return (db, user)
  | none =>
    let user : User := ⟨newId, email, true⟩
    return (← db.insertUser user, user)

/-- The template `login.html`. -/
structure LoginPage where
  step : String
  email : String
  devCode : Option String
  error : Option String
  deriving DecidableEq

/-- `login_request`, with the code that is drawn and its identifier; the outcome of the mail is not
looked at. -/
def loginRequest (email rawCode : String) (newId : Uuid) (now : DateTime) :
    Except PyError (AuthDatabase × LoginPage) := do
  let email := normalizedEmail env.toAuthEnv email
  match ← getUserByEmail env db email with
  | none => return (db, ⟨"code", email, none, none⟩)
  | some user =>
    let (db, code) ← createLoginToken env.toAuthEnv db user.id rawCode newId now
    return (db, ⟨"code", email, if settings.showLoginCodeInResponse then some code else none, none⟩)

/-- `login_verify`: a page, or a redirection with the session of the user. -/
def loginVerify (email code : String) (now : DateTime) :
    Except LoginError (AuthDatabase × (LoginPage ⊕ SessionUser)) := do
  let email := normalizedEmail env.toAuthEnv email
  let code := env.upper (PyStr.strip code)
  let (db, user) ← verifyLoginToken env.toAuthEnv db code email now
  match user with
  | none => return (db, .inl ⟨"code", email, none, some "Invalid or expired code"⟩)
  | some user => return (db, .inr ⟨env.strUuid user.id, user.email⟩)

/-- `create_api_key_web` for the user of the session. -/
def createApiKeyWeb (user : SessionUser) (label : String) (ttlDays : Json) (token : String)
    (newId : Uuid) (now : DateTime) : Except ApiError (AuthDatabase × ApiKey) := do
  match env.parseUuid user.id with
  | none => .error (.unhandled .valueError)
  | some userId =>
    let expiresAt ← resolveExpiry c env.toAuthEnv now ttlDays
    let (db, _) ← (createApiKey env.toAuthEnv db userId label expiresAt token newId).mapError
      .unhandled
    return (db, newApiKey env.toAuthEnv userId label expiresAt token newId)

/-- The options of `create_api_key.py` for the expiry. -/
inductive ScriptExpiry
  | default
  | noExpiry
  | ttlDays (days : ℤ)

/-- `_expiry`. -/
def ScriptExpiry.resolve (now : DateTime) : ScriptExpiry → Except PyError (Option DateTime)
  | .noExpiry => .ok none
  | .ttlDays days => (expiryIn now days).map some
  | .default => apiKeyDefaultExpiry env.toAuthEnv now

/-- `main` of `create_api_key.py`, a script that is run at the command line; the identifiers are
those of a new user and of the key. -/
def createApiKeyScript (adminEmail label : String) (expiry : ScriptExpiry) (token : String)
    (newUserId newId : Uuid) (now : DateTime) : Except PyError (AuthDatabase × User × ApiKey) := do
  let (db, user) ← seedAdminUser env db adminEmail newUserId
  let expiresAt ← expiry.resolve env now
  let (db, _) ← createApiKey env.toAuthEnv db user.id label expiresAt token newId
  return (db, user, newApiKey env.toAuthEnv user.id label expiresAt token newId)

/-- `AuthInterceptor`, for the value of the metadata `authorization`. -/
def grpcAuth (authorization : String) (now usedAt : DateTime) : AuthDatabase × Gate :=
  match bearerToken env.toAuthEnv authorization with
  | none => (db, .unauthorized "authorization: bearer metadata required")
  | some token =>
    let (db', result) := authenticateApiKey env.toAuthEnv db token now usedAt
    if result.expired then (db, .unauthorized "api key expired")
    else match result.user with
      | none => (db, .unauthorized "invalid api key")
      | some user => (db', .pass user)

end

/-! ### The machine -/

/-- The tables, the clock and the cookies that responses have set. -/
structure SiteWorld where
  db : AuthDatabase
  now : DateTime
  cookies : List String

/-- What the body and the path of a request hold for its handler, with what the handler draws. -/
inductive SiteForm
  | login (email rawCode : String) (newId : Uuid)
  | verify (email code : String)
  | createKey (label : String) (ttlDays : Json) (token : String) (newId : Uuid)
  | revokeKey (keyId : Uuid)
  | other

/-- A start of the application, a run of the script, a request over HTTP, whose handler commits or
not, a request over gRPC, or the passing of time. -/
inductive SiteAction
  | start (adminEmail : String) (newId : Uuid)
  | script (adminEmail label : String) (expiry : ScriptExpiry) (token : String)
      (newUserId newId : Uuid)
  | request (req : SiteRequest) (form : SiteForm) (commits : Bool)
  | grpc (authorization : String)
  | wait (duration : ℕ)

/-- An entry of the history; a key has no creator when the script has made it. -/
inductive SiteEvent
  | seeded (email : String) (userId : Uuid)
  | issuedCode (tokenId userId : Uuid) (expiresAt : DateTime)
  | signedIn (tokenId : Uuid) (user : SessionUser) (since : DateTime)
  | createdKey (keyId userId : Uuid) (expiresAt : Option DateTime)
      (creator : Option SessionUser)
  | revokedKey (keyId : Uuid)
  | served (route : Route) (caller : Caller) (time : DateTime)
  | servedGrpc (user : User) (time : DateTime)
  deriving DecidableEq

def loginRoute : Route := pageRoute "POST" [.lit "login"]

def verifyRoute : Route := pageRoute "POST" [.lit "login", .lit "verify"]

def createKeyRoute : Route := pageRoute "POST" [.lit "settings", .lit "api-keys"]

def revokeKeyRoute : Route := pageRoute "DELETE" [.lit "settings", .lit "api-keys", .param]

variable (env : SiteEnv) (settings : LoginSettings) (c : Conversions)

/-- The handler of a route: the state after it and what it adds to the history.  A handler that
raises leaves the tables as they are. -/
def runHandler (w : SiteWorld) (route : Route) (caller : Caller) :
    SiteForm → SiteWorld × List SiteEvent
  | .login email rawCode newId =>
    if route = loginRoute then
      match loginRequest env settings w.db email rawCode newId w.now,
        getUserByEmail env w.db (normalizedEmail env.toAuthEnv email) with
      | .ok (db, _), .ok (some user) => ({ w with db },
          [.issuedCode newId user.id (w.now + env.loginTokenExpireMinutes * 60000000)])
      | _, _ => (w, [])
    else (w, [])
  | .verify email code =>
    if route = verifyRoute then
      match loginVerify env w.db email code w.now,
        lookupLoginToken env.toAuthEnv w.db (env.upper (PyStr.strip code))
          (normalizedEmail env.toAuthEnv email) w.now with
      | .ok (db, .inr user), .ok (some t) =>
        ({ w with db, cookies := env.sign user (w.now / 1000000) :: w.cookies },
          [.signedIn t.id user w.now])
      | _, _ => (w, [])
    else (w, [])
  | .createKey label ttlDays token newId =>
    match caller with
    | .session user =>
      if route = createKeyRoute then
        match createApiKeyWeb env c w.db user label ttlDays token newId w.now with
        | .ok (db, key) =>
          ({ w with db }, [.createdKey key.id key.userId key.expiresAt (some user)])
        | .error _ => (w, [])
      else (w, [])
    | _ => (w, [])
  | .revokeKey keyId =>
    if route = revokeKeyRoute then
      ({ w with db := (revokeApiKey w.db keyId).1 }, [.revokedKey keyId])
    else (w, [])
  | .other => (w, [])

/-- `lifespan` at a start. -/
def SiteWorld.start (w : SiteWorld) (adminEmail : String) (newId : Uuid) :
    SiteWorld × List SiteEvent :=
  match seedAdminUser env w.db adminEmail newId with
  | .ok (db, user) => ({ w with db }, [.seeded user.email user.id])
  | .error _ => (w, [])

/-- A run of the script. -/
def SiteWorld.script (w : SiteWorld) (adminEmail label : String) (expiry : ScriptExpiry)
    (token : String) (newUserId newId : Uuid) : SiteWorld × List SiteEvent :=
  match createApiKeyScript env w.db adminEmail label expiry token newUserId newId w.now with
  | .ok (db, user, key) => ({ w with db },
      [.seeded user.email user.id, .createdKey key.id key.userId key.expiresAt none])
  | .error _ => (w, [])

/-- A request over HTTP. -/
def SiteWorld.request (w : SiteWorld) (req : SiteRequest) (form : SiteForm) (commits : Bool) :
    SiteWorld × List SiteEvent :=
  match serve env w.db req w.now w.now with
  | (db, .ran route caller) =>
    let r := runHandler env settings c { w with db := if commits then db else w.db } route caller
      form
    (r.1, .served route caller w.now :: r.2)
  | _ => (w, [])

/-- A request over gRPC. -/
def SiteWorld.grpc (w : SiteWorld) (authorization : String) : SiteWorld × List SiteEvent :=
  match grpcAuth env w.db authorization w.now w.now with
  | (db, .pass user) => ({ w with db }, [.servedGrpc user w.now])
  | (_, .unauthorized _) => (w, [])

/-- The state after a step and what the step adds to the history. -/
def SiteWorld.act (w : SiteWorld) : SiteAction → SiteWorld × List SiteEvent
  | .start adminEmail newId => w.start env adminEmail newId
  | .script adminEmail label expiry token newUserId newId =>
    w.script env adminEmail label expiry token newUserId newId
  | .request req form commits => w.request env settings c req form commits
  | .grpc authorization => w.grpc env authorization
  | .wait duration => ({ w with now := w.now + duration }, [])

/-- The machine of the site, from an empty database. -/
def siteSystem (now : DateTime) : Machine SiteWorld SiteAction where
  init := ⟨.empty, now, []⟩
  step w a := some (w.act env settings c a).1

/-- What a step adds to the history. -/
def siteEvents (w : SiteWorld) (a : SiteAction) : List SiteEvent := (w.act env settings c a).2

/-- The host of the request ends where it should, and the request brings no cookie with a signature
that the site has not made. -/
def Genuine (w : SiteWorld) : SiteAction → Prop
  | .request req _ _ => plainHost req.host = true ∧
      ∀ cookie ∈ req.cookie, (env.unsign cookie).isSome = true → cookie ∈ w.cookies
  | _ => True

instance (w : SiteWorld) : DecidablePred (Genuine env w) := fun a =>
  match a with
  | .request req _ _ => inferInstanceAs (Decidable (plainHost req.host = true ∧
      ∀ cookie, req.cookie = some cookie → (env.unsign cookie).isSome = true → cookie ∈ w.cookies))
  | .start _ _ | .script _ _ _ _ _ _ | .grpc _ | .wait _ => .isTrue trivial

/-! ### What an entry of the history needs -/

/-- At a time the session of a sign-in has not ended. -/
def Lasting (since time : DateTime) : Prop :=
  0 ≤ time / 1000000 - since / 1000000 ∧ time / 1000000 - since / 1000000 ≤ env.sessionMaxAge

/-- The user has signed in before and the session has not ended. -/
def InSession (h : List SiteEvent) (user : SessionUser) (time : DateTime) : Prop :=
  ∃ tokenId since, .signedIn tokenId user since ∈ h ∧ Lasting env since time

/-- A key was created and not revoked since. -/
def LiveKey (h : List SiteEvent) (keyId userId : Uuid) (expiresAt : Option DateTime)
    (creator : Option SessionUser) : Prop :=
  ∃ before after, h = before ++ .createdKey keyId userId expiresAt creator :: after ∧
    .revokedKey keyId ∉ after

/-- The user was the administrator at some start, and a key of theirs is in force. -/
def HasKey (h : List SiteEvent) (user : User) (time : DateTime) : Prop :=
  .seeded user.email user.id ∈ h ∧ ∃ keyId expiresAt creator,
    LiveKey h keyId user.id expiresAt creator ∧ expiryPassed time expiresAt = false

/-- What an entry needs before it. -/
def Justified (h : List SiteEvent) : SiteEvent → Prop
  | .seeded _ _ => True
  | .issuedCode _ _ _ => True
  | .signedIn tokenId user since =>
    (∃ userId expiresAt, .issuedCode tokenId userId expiresAt ∈ h ∧ since < expiresAt ∧
      user.id = env.strUuid userId ∧ .seeded user.email userId ∈ h) ∧
      ∀ user' since', .signedIn tokenId user' since' ∉ h
  | .createdKey _ userId _ (some creator) =>
    env.parseUuid creator.id = some userId ∧
      ∃ time, .served createKeyRoute (.session creator) time ∈ h
  | .createdKey _ userId _ none => ∃ email, .seeded email userId ∈ h
  | .revokedKey _ => True
  | .served route caller time => route ∈ publicRoutes ∨ match caller with
    | .anonymous => False
    | .session user => InSession env h user time
    | .apiKey user => HasKey h user time
  | .servedGrpc user time => HasKey h user time

/-- Every entry of the history has what it needs before it. -/
def Backed (h : List SiteEvent) : Prop :=
  ∀ before e after, h = before ++ e :: after → Justified env before e

/-- The history and the state agree: what is stored comes from the history, and a code that was
redeemed is marked. -/
structure SiteRecorded (h : List SiteEvent) (w : SiteWorld) : Prop where
  users : ∀ u ∈ w.db.users, .seeded u.email u.id ∈ h
  tokens : ∀ t ∈ w.db.loginTokens, .issuedCode t.id t.userId t.expiresAt ∈ h
  used : ∀ tokenId user since, .signedIn tokenId user since ∈ h →
    ∃ t ∈ w.db.loginTokens, t.id = tokenId ∧ t.used = true
  keys : ∀ k ∈ w.db.apiKeys, ∃ creator, LiveKey h k.id k.userId k.expiresAt creator
  cookies : ∀ cookie ∈ w.cookies, ∃ tokenId user since, .signedIn tokenId user since ∈ h ∧
    cookie = env.sign user (since / 1000000)
  backed : Backed env h

variable {env} {settings} {c} {h : List SiteEvent} {e : SiteEvent} {w w' : SiteWorld}

/-! ### One more entry -/

theorem Backed.snoc (hback : Backed env h) (he : Justified env h e) : Backed env (h ++ [e]) := by
  intro before a after heq
  rcases List.eq_nil_or_concat after with rfl | ⟨after', b, rfl⟩
  · obtain ⟨rfl, hlast⟩ := List.append_inj' heq rfl
    obtain rfl := List.singleton_inj.1 hlast
    exact he
  · rw [List.concat_eq_append, ← List.cons_append, ← List.append_assoc] at heq
    exact hback before a after' (List.append_inj' heq rfl).1

theorem LiveKey.snoc {keyId userId : Uuid} {expiresAt : Option DateTime}
    {creator : Option SessionUser} (hk : LiveKey h keyId userId expiresAt creator)
    (he : e ≠ .revokedKey keyId) :
    LiveKey (h ++ [e]) keyId userId expiresAt creator := by
  obtain ⟨before, after, rfl, hnot⟩ := hk
  refine ⟨before, after ++ [e], by rw [List.append_assoc, List.cons_append], ?_⟩
  simp only [List.mem_append, List.mem_singleton, not_or]
  exact ⟨hnot, he.symm⟩

/-- An entry that is neither a sign-in nor a revocation leaves the agreement as it is. -/
theorem SiteRecorded.snoc (hw : SiteRecorded env h w) (he : Justified env h e)
    (hsign : ∀ tokenId user since, e ≠ .signedIn tokenId user since)
    (hrev : ∀ keyId, e ≠ .revokedKey keyId) : SiteRecorded env (h ++ [e]) w where
  users u hu := List.mem_append_left _ (hw.users u hu)
  tokens t ht := List.mem_append_left _ (hw.tokens t ht)
  used tokenId user since hmem := by
    rcases List.mem_append.1 hmem with hmem | hmem
    · exact hw.used tokenId user since hmem
    · exact absurd (List.mem_singleton.1 hmem).symm (hsign tokenId user since)
  keys k hk := by
    obtain ⟨creator, hlive⟩ := hw.keys k hk
    exact ⟨creator, hlive.snoc (hrev k.id)⟩
  cookies cookie hc := by
    obtain ⟨tokenId, user, since, hmem, heq⟩ := hw.cookies cookie hc
    exact ⟨tokenId, user, since, List.mem_append_left _ hmem, heq⟩
  backed := hw.backed.snoc he

/-! ### Changes of the tables -/

theorem SiteRecorded.touch (hw : SiteRecorded env h w) (i : Uuid) (usedAt : DateTime) :
    SiteRecorded env h { w with db := w.db.touchApiKey i usedAt } where
  users := hw.users
  tokens := hw.tokens
  used := hw.used
  keys k hk := by
    obtain ⟨a, ha, rfl⟩ := AuthDatabase.mem_touchApiKey.1 hk
    obtain ⟨creator, hlive⟩ := hw.keys a ha
    refine ⟨creator, ?_⟩
    split_ifs <;> exact hlive
  cookies := hw.cookies
  backed := hw.backed

/-- The check of a key returns a stored user. -/
theorem mem_of_authenticateApiKey {env : AuthEnv} {db : AuthDatabase} {rawKey : String}
    {now usedAt : DateTime} {user : User}
    (huser : (authenticateApiKey env db rawKey now usedAt).2.user = some user) :
    user ∈ db.users := by
  unfold authenticateApiKey at huser
  split_ifs at huser
  · cases huser
  split at huser
  · cases huser
  split_ifs at huser
  exact (Table.mem_of_find? huser).1

/-- The check of a key at most notes its use, and accepts only keys in force. -/
theorem SiteRecorded.authenticate (hw : SiteRecorded env h w) (rawKey : String)
    (now usedAt : DateTime) :
    SiteRecorded env h
        { w with db := (authenticateApiKey env.toAuthEnv w.db rawKey now usedAt).1 } ∧
      ∀ user, (authenticateApiKey env.toAuthEnv w.db rawKey now usedAt).2.user = some user →
        HasKey h user now := by
  rcases authenticateApiKey_cases env.toAuthEnv w.db rawKey now usedAt with
    ⟨key, hkey, -, -, hexp, u, hu, heq⟩ | ⟨-, heq, hvalid⟩
  · rw [heq]
    refine ⟨hw.touch key.id usedAt, fun user huser => ?_⟩
    obtain rfl := Option.some.inj huser
    obtain ⟨creator, hlive⟩ := hw.keys key hkey
    rw [← hu] at hlive
    have hmem : u ∈ w.db.users := mem_of_authenticateApiKey (by rw [heq])
    exact ⟨hw.users u hmem, key.id, key.expiresAt, creator, hlive, hexp⟩
  · rw [heq]
    refine ⟨hw, fun user huser => ?_⟩
    rw [ApiKeyAuthResult.valid, huser] at hvalid
    cases hvalid

/-! ### Requests -/

/-- A session comes from a cookie that was set when its user signed in. -/
theorem SiteRecorded.inSession (hw : SiteRecorded env h w) {cookie : Option String}
    {user : SessionUser}
    (hgen : ∀ c ∈ cookie, (env.unsign c).isSome = true → c ∈ w.cookies)
    (huser : getUserFromCookie env cookie w.now = some user) : InSession env h user w.now := by
  unfold getUserFromCookie at huser
  split at huser
  case h_1 => cases huser
  rename_i text
  split_ifs at huser with hempty
  split at huser
  case h_1 => cases huser
  rename_i owner signedAt hsigned
  dsimp only at huser
  split_ifs at huser with hage
  obtain rfl := Option.some.inj huser
  have hset : text ∈ w.cookies := hgen text rfl (by rw [hsigned]; rfl)
  obtain ⟨tokenId, user, since, hmem, rfl⟩ := hw.cookies text hset
  rw [env.unsign_sign] at hsigned
  obtain ⟨rfl, rfl⟩ := Prod.mk.inj (Option.some.inj hsigned)
  obtain ⟨hold, hnew⟩ := not_or.1 hage
  exact ⟨tokenId, since, hmem, not_lt.1 hnew, not_lt.1 hold⟩

/-- What a request does to the tables before a handler runs. -/
theorem serve_db {db db' : AuthDatabase} {req : SiteRequest} {now usedAt : DateTime}
    {answer : Answer} (hserve : serve env db req now usedAt = (db', answer)) :
    db' = db ∨ ∃ token, db' = (authenticateApiKey env.toAuthEnv db token now usedAt).1 := by
  have hgate : ∀ {route authorization r a}, answerOf route
      (bearerGate env.toAuthEnv db authorization now usedAt) = (r, a) →
        r = db ∨ ∃ token, r = (authenticateApiKey env.toAuthEnv db token now usedAt).1 := by
    intro route authorization r a hr
    have hfst : r = (bearerGate env.toAuthEnv db authorization now usedAt).1 := by
      revert hr
      cases bearerGate env.toAuthEnv db authorization now usedAt with
      | mk db₁ gate => cases gate <;> exact fun hr => (congrArg Prod.fst hr).symm
    rw [hfst]
    unfold bearerGate
    split
    · exact .inl rfl
    · rename_i token _
      exact .inr ⟨token, rfl⟩
  unfold serve at hserve
  dsimp only at hserve
  split_ifs at hserve
  · exact .inl (congrArg Prod.fst hserve).symm
  · exact .inl (congrArg Prod.fst hserve).symm
  split at hserve
  · exact .inl (congrArg Prod.fst hserve).symm
  unfold guardRoute at hserve
  split at hserve
  · exact .inl (congrArg Prod.fst hserve).symm
  · split at hserve
    · exact .inl (congrArg Prod.fst hserve).symm
    · exact hgate hserve
  · split_ifs at hserve
    · exact .inl (congrArg Prod.fst hserve).symm
    · exact hgate hserve

theorem SiteRecorded.of_serve (hw : SiteRecorded env h w) {req : SiteRequest} {form : SiteForm}
    {commits : Bool} (hgen : Genuine env w (.request req form commits)) {db : AuthDatabase}
    {route : Route} {caller : Caller}
    (hserve : serve env w.db req w.now w.now = (db, .ran route caller)) :
    SiteRecorded env (h ++ [.served route caller w.now])
      { w with db := if commits then db else w.db } := by
  have hjust : Justified env h (.served route caller w.now) := by
    cases serve_authenticated hgen.1 hserve with
    | anyone hpublic => exact .inl hpublic
    | session huser => exact .inr (hw.inSession hgen.2 huser)
    | apiKey _ _ huser => exact .inr ((hw.authenticate _ _ _).2 _ huser)
  have hdb : SiteRecorded env h { w with db := if commits then db else w.db } := by
    cases commits with
    | false => exact hw
    | true =>
      rcases serve_db hserve with rfl | ⟨token, rfl⟩
      · exact hw
      · exact (hw.authenticate _ _ _).1
  exact hdb.snoc hjust nofun nofun

/-! ### Handlers -/

theorem SiteRecorded.seed (hw : SiteRecorded env h w) {adminEmail : String} {newId : Uuid}
    {db : AuthDatabase} {user : User}
    (hseed : seedAdminUser env w.db adminEmail newId = .ok (db, user)) :
    SiteRecorded env (h ++ [.seeded user.email user.id]) { w with db } := by
  have hmore := hw.snoc (e := .seeded user.email user.id) trivial nofun nofun
  obtain ⟨found, -, hrest⟩ := bind_eq_ok.1 hseed
  cases found with
  | some found =>
    obtain ⟨rfl, rfl⟩ := Prod.mk.inj (Except.ok.inj hrest)
    exact hmore
  | none =>
    obtain ⟨db₁, hinsert, hrest⟩ := bind_eq_ok.1 hrest
    obtain ⟨rfl, rfl⟩ := Prod.mk.inj (Except.ok.inj hrest)
    obtain ⟨t, ht, htables⟩ := AuthDatabase.insertUser_eq_ok hinsert
    refine ⟨fun u hu => ?_, ?_, ?_, ?_, hmore.cookies, hmore.backed⟩
    · rw [show db₁.users = t by rw [htables]] at hu
      rcases (Table.mem_insert? ht).1 hu with hu | rfl
      · exact hmore.users u hu
      · exact List.mem_append_right h List.mem_cons_self
    · rw [show db₁.loginTokens = w.db.loginTokens by rw [htables]]
      exact hmore.tokens
    · rw [show db₁.loginTokens = w.db.loginTokens by rw [htables]]
      exact hmore.used
    · rw [show db₁.apiKeys = w.db.apiKeys by rw [htables]]
      exact hmore.keys

theorem SiteRecorded.login (hw : SiteRecorded env h w) {email rawCode : String} {newId : Uuid}
    {db : AuthDatabase} {page : LoginPage} {user : User}
    (hlogin : loginRequest env settings w.db email rawCode newId w.now = .ok (db, page))
    (huser : getUserByEmail env w.db (normalizedEmail env.toAuthEnv email) = .ok (some user)) :
    SiteRecorded env (h ++ [.issuedCode newId user.id
      (w.now + env.loginTokenExpireMinutes * 60000000)]) { w with db } := by
  have hmore := hw.snoc (e := .issuedCode newId user.id
    (w.now + env.loginTokenExpireMinutes * 60000000)) trivial nofun nofun
  obtain ⟨found, hfound, hlogin⟩ := bind_eq_ok.1 hlogin
  obtain rfl := Except.ok.inj (huser.symm.trans hfound)
  obtain ⟨⟨db', code⟩, hcreate, hrest⟩ := bind_eq_ok.1 hlogin
  cases hrest
  obtain ⟨-, table, htable, htables⟩ := createLoginToken_eq_ok hcreate
  refine ⟨?_, fun t ht => ?_, fun tokenId u since hmem => ?_, ?_, hmore.cookies, hmore.backed⟩
  · rw [show db.users = w.db.users by rw [htables]]
    exact hmore.users
  · rw [show db.loginTokens = table by rw [htables]] at ht
    rcases (Table.mem_insert? htable).1 ht with ht | rfl
    · exact hmore.tokens t ht
    · exact List.mem_append_right h List.mem_cons_self
  · obtain ⟨t, ht, hused⟩ := hmore.used tokenId u since hmem
    refine ⟨t, ?_, hused⟩
    rw [show db.loginTokens = table by rw [htables]]
    exact (Table.mem_insert? htable).2 (.inl ht)
  · rw [show db.apiKeys = w.db.apiKeys by rw [htables]]
    exact hmore.keys

/-- The user who signs in is the one of the code. -/
theorem loginVerify_eq_ok {db db' : AuthDatabase} {email code : String} {now : DateTime}
    {user : SessionUser} {t : LoginToken}
    (hverify : loginVerify env db email code now = .ok (db', .inr user))
    (hlookup : lookupLoginToken env.toAuthEnv db (env.upper (PyStr.strip code))
      (normalizedEmail env.toAuthEnv email) now = .ok (some t)) :
    db' = db.useLoginToken t.id ∧
      ∃ u ∈ db.users, u.id = t.userId ∧ user = ⟨env.strUuid u.id, u.email⟩ := by
  obtain ⟨⟨db₁, found⟩, hfound, hrest⟩ := bind_eq_ok.1 hverify
  unfold verifyLoginToken at hfound
  simp only [hlookup] at hfound
  obtain ⟨rfl, rfl⟩ := Prod.mk.inj (Except.ok.inj hfound)
  cases huser : getUserById (db.useLoginToken t.id) t.userId with
  | none =>
    simp only [huser] at hrest
    cases hrest
  | some u =>
    simp only [huser] at hrest
    cases hrest
    exact ⟨rfl, u, (Table.mem_of_find? huser).1, id_of_getUserById huser, rfl⟩

theorem SiteRecorded.verify (hw : SiteRecorded env h w) {email code : String} {db : AuthDatabase}
    {user : SessionUser} {t : LoginToken}
    (hverify : loginVerify env w.db email code w.now = .ok (db, .inr user))
    (hlookup : lookupLoginToken env.toAuthEnv w.db (env.upper (PyStr.strip code))
      (normalizedEmail env.toAuthEnv email) w.now = .ok (some t)) :
    SiteRecorded env (h ++ [.signedIn t.id user w.now])
      { w with db, cookies := env.sign user (w.now / 1000000) :: w.cookies } := by
  obtain ⟨ht, hred⟩ := lookupLoginToken_eq_some hlookup
  obtain ⟨-, hunused, hexp, -⟩ := redeemable_iff.1 hred
  obtain ⟨rfl, u, hu, hid, rfl⟩ := loginVerify_eq_ok hverify hlookup
  have hjust : Justified env h (.signedIn t.id ⟨env.strUuid u.id, u.email⟩ w.now) := by
    refine ⟨⟨t.userId, t.expiresAt, hw.tokens t ht, hexp, by rw [hid], ?_⟩, ?_⟩
    · rw [← hid]
      exact hw.users u hu
    -- a code that somebody has signed in with is marked
    intro user' since' hmem
    obtain ⟨t', ht', hid', hused⟩ := hw.used t.id user' since' hmem
    rw [Table.eq_of_clash ht' ht hid', hunused] at hused
    cases hused
  have hkept : ∀ a ∈ w.db.loginTokens, ∃ b ∈ (w.db.useLoginToken t.id).loginTokens,
      b.id = a.id ∧ (a.id = t.id ∨ a.used = true → b.used = true) := by
    intro a ha
    refine ⟨_, AuthDatabase.mem_useLoginToken.2 ⟨a, ha, rfl⟩, ?_⟩
    split_ifs with heq
    · exact ⟨rfl, fun _ => rfl⟩
    · exact ⟨rfl, fun hor => hor.resolve_left fun hta => heq (beq_iff_eq.2 hta)⟩
  refine ⟨fun u hu => List.mem_append_left _ (hw.users u hu), fun b hb => ?_,
    fun tokenId user since hmem => ?_, fun k hk => ?_, fun cookie hc => ?_, hw.backed.snoc hjust⟩
  · obtain ⟨a, ha, rfl⟩ := AuthDatabase.mem_useLoginToken.1 hb
    have hissued := List.mem_append_left [.signedIn t.id ⟨env.strUuid u.id, u.email⟩ w.now]
      (hw.tokens a ha)
    split_ifs <;> exact hissued
  · rcases List.mem_append.1 hmem with hmem | hmem
    · obtain ⟨a, ha, rfl, hused⟩ := hw.used tokenId user since hmem
      obtain ⟨b, hb, hbid, hbused⟩ := hkept a ha
      exact ⟨b, hb, hbid, hbused (.inr hused)⟩
    · obtain ⟨rfl, -, -⟩ := SiteEvent.signedIn.inj (List.mem_singleton.1 hmem)
      obtain ⟨b, hb, hbid, hbused⟩ := hkept t ht
      exact ⟨b, hb, hbid, hbused (.inl rfl)⟩
  · obtain ⟨creator, hlive⟩ := hw.keys k hk
    exact ⟨creator, hlive.snoc nofun⟩
  · rcases List.mem_cons.1 hc with rfl | hc
    · exact ⟨t.id, _, w.now, List.mem_append_right h List.mem_cons_self, rfl⟩
    · obtain ⟨tokenId, user, since, hmem, heq⟩ := hw.cookies cookie hc
      exact ⟨tokenId, user, since, List.mem_append_left _ hmem, heq⟩

/-- A new key whose entry has what it needs. -/
theorem SiteRecorded.issueKey (hw : SiteRecorded env h w) {userId newId : Uuid}
    {label token raw : String} {expiresAt : Option DateTime} {creator : Option SessionUser}
    {db : AuthDatabase} (hjust : Justified env h (.createdKey newId userId expiresAt creator))
    (hcreate : createApiKey env.toAuthEnv w.db userId label expiresAt token newId =
      .ok (db, raw)) :
    SiteRecorded env (h ++ [.createdKey newId userId expiresAt creator]) { w with db } := by
  obtain ⟨-, table, htable, htables⟩ := createApiKey_eq_ok hcreate
  have hmore := hw.snoc hjust nofun nofun
  refine ⟨?_, ?_, ?_, fun k hk => ?_, hmore.cookies, hmore.backed⟩
  · rw [show db.users = w.db.users by rw [htables]]
    exact hmore.users
  · rw [show db.loginTokens = w.db.loginTokens by rw [htables]]
    exact hmore.tokens
  · rw [show db.loginTokens = w.db.loginTokens by rw [htables]]
    exact hmore.used
  · rw [show db.apiKeys = table by rw [htables]] at hk
    rcases (Table.mem_insert? htable).1 hk with hk | rfl
    · exact hmore.keys k hk
    · exact ⟨creator, h, [], rfl, List.not_mem_nil⟩

theorem SiteRecorded.createKey (hw : SiteRecorded env h w) {user : SessionUser} {label : String}
    {ttlDays : Json} {token : String} {newId : Uuid} {db : AuthDatabase} {key : ApiKey}
    {time : DateTime} (hserved : .served createKeyRoute (.session user) time ∈ h)
    (hcreate : createApiKeyWeb env c w.db user label ttlDays token newId w.now = .ok (db, key)) :
    SiteRecorded env (h ++ [.createdKey key.id key.userId key.expiresAt (some user)])
      { w with db } := by
  unfold createApiKeyWeb at hcreate
  cases huser : env.parseUuid user.id with
  | none =>
    simp only [huser] at hcreate
    cases hcreate
  | some userId =>
    simp only [huser] at hcreate
    obtain ⟨expiresAt, -, hcreate⟩ := bind_eq_ok.1 hcreate
    obtain ⟨⟨db₁, raw⟩, hkey, hrest⟩ := bind_eq_ok.1 hcreate
    obtain ⟨rfl, rfl⟩ := Prod.mk.inj (Except.ok.inj hrest)
    exact hw.issueKey ⟨huser, time, hserved⟩ (mapError_eq_ok hkey)

theorem SiteRecorded.script (hw : SiteRecorded env h w) {adminEmail label token : String}
    {expiry : ScriptExpiry} {newUserId newId : Uuid} {db : AuthDatabase} {user : User}
    {key : ApiKey} (hscript : createApiKeyScript env w.db adminEmail label expiry token newUserId
      newId w.now = .ok (db, user, key)) :
    SiteRecorded env (h ++ [.seeded user.email user.id,
      .createdKey key.id key.userId key.expiresAt none]) { w with db } := by
  obtain ⟨⟨db₁, admin⟩, hseed, hscript⟩ := bind_eq_ok.1 hscript
  obtain ⟨expiresAt, -, hscript⟩ := bind_eq_ok.1 hscript
  obtain ⟨⟨db₂, raw⟩, hcreate, hrest⟩ := bind_eq_ok.1 hscript
  cases hrest
  have hseeded := hw.seed hseed
  have hjust : Justified env (h ++ [.seeded user.email user.id])
      (.createdKey newId user.id expiresAt none) :=
    ⟨user.email, List.mem_append_right h List.mem_cons_self⟩
  have hissued := hseeded.issueKey hjust hcreate
  rwa [List.append_assoc, List.singleton_append] at hissued

theorem SiteRecorded.revokeKey (hw : SiteRecorded env h w) (keyId : Uuid) :
    SiteRecorded env (h ++ [.revokedKey keyId])
      { w with db := (revokeApiKey w.db keyId).1 } := by
  have hsame : (revokeApiKey w.db keyId).1.users = w.db.users ∧
      (revokeApiKey w.db keyId).1.loginTokens = w.db.loginTokens := by
    unfold revokeApiKey
    split <;> exact ⟨rfl, rfl⟩
  refine ⟨?_, ?_, ?_, fun k hk => ?_, fun cookie hc => ?_, hw.backed.snoc trivial⟩
  · rw [hsame.1]
    exact fun u hu => List.mem_append_left _ (hw.users u hu)
  · rw [hsame.2]
    exact fun t ht => List.mem_append_left _ (hw.tokens t ht)
  · rw [hsame.2]
    intro tokenId user since hmem
    rcases List.mem_append.1 hmem with hmem | hmem
    · exact hw.used tokenId user since hmem
    · cases List.mem_singleton.1 hmem
  · obtain ⟨hk, hne⟩ := mem_revokeApiKey.1 hk
    obtain ⟨creator, hlive⟩ := hw.keys k hk
    exact ⟨creator, hlive.snoc fun heq => hne (SiteEvent.revokedKey.inj heq).symm⟩
  · obtain ⟨tokenId, user, since, hmem, heq⟩ := hw.cookies cookie hc
    exact ⟨tokenId, user, since, List.mem_append_left _ hmem, heq⟩

theorem SiteRecorded.handler (hw : SiteRecorded env h w) {route : Route} {caller : Caller}
    {time : DateTime} (hserved : .served route caller time ∈ h) (form : SiteForm) :
    SiteRecorded env (h ++ (runHandler env settings c w route caller form).2)
      (runHandler env settings c w route caller form).1 := by
  have hnil : SiteRecorded env (h ++ []) w := by rwa [List.append_nil]
  cases form with
  | login email rawCode newId =>
    simp only [runHandler]
    split_ifs
    · split
      · rename_i hlogin huser
        exact hw.login hlogin huser
      · exact hnil
    · exact hnil
  | verify email code =>
    simp only [runHandler]
    split_ifs
    · split
      · rename_i hverify hlookup
        exact hw.verify hverify hlookup
      · exact hnil
    · exact hnil
  | createKey label ttlDays token newId =>
    cases caller with
    | session user =>
      simp only [runHandler]
      split_ifs with hroute
      · rw [hroute] at hserved
        split
        · rename_i hcreate
          exact hw.createKey hserved hcreate
        · exact hnil
      · exact hnil
    | anonymous => exact hnil
    | apiKey user => exact hnil
  | revokeKey keyId =>
    simp only [runHandler]
    split_ifs
    · exact hw.revokeKey keyId
    · exact hnil
  | other => exact hnil

/-- The interceptor lets a request through for a user with a key in force. -/
theorem SiteRecorded.grpc (hw : SiteRecorded env h w) {authorization : String}
    {db : AuthDatabase} {user : User}
    (hauth : grpcAuth env w.db authorization w.now w.now = (db, .pass user)) :
    SiteRecorded env (h ++ [.servedGrpc user w.now]) { w with db } := by
  unfold grpcAuth at hauth
  split at hauth
  · cases hauth
  rename_i token _
  obtain ⟨hdb, hkey⟩ := hw.authenticate token w.now w.now
  dsimp only at hauth
  split_ifs at hauth with hexp
  · cases hauth
  split at hauth
  · cases hauth
  · rename_i found hfound
    obtain ⟨rfl, hpass⟩ := Prod.mk.inj hauth
    obtain rfl := Gate.pass.inj hpass
    exact hdb.snoc (hkey _ hfound) nofun nofun

theorem SiteRecorded.request (hw : SiteRecorded env h w) {req : SiteRequest} {form : SiteForm}
    {commits : Bool} (hgen : Genuine env w (.request req form commits)) :
    SiteRecorded env (h ++ (w.request env settings c req form commits).2)
      (w.request env settings c req form commits).1 := by
  have hnil : SiteRecorded env (h ++ []) w := by rwa [List.append_nil]
  unfold SiteWorld.request
  cases hserve : serve env w.db req w.now w.now with
  | mk db answer =>
    cases answer with
    | ran route caller =>
      have hserved := hw.of_serve hgen hserve
      have hlast : SiteEvent.served route caller w.now ∈ h ++ [.served route caller w.now] :=
        List.mem_append_right h List.mem_cons_self
      have hnext : SiteRecorded env _ (runHandler env settings c _ route caller form).1 :=
        hserved.handler hlast form
      rwa [List.append_assoc, List.singleton_append] at hnext
    | _ => exact hnil

/-- Every step keeps the agreement. -/
theorem siteRecorded_step (hw : SiteRecorded env h w) {a : SiteAction} (hgen : Genuine env w a) :
    SiteRecorded env (h ++ siteEvents env settings c w a) (w.act env settings c a).1 := by
  have hnil : SiteRecorded env (h ++ []) w := by rwa [List.append_nil]
  unfold siteEvents
  cases a with
  | start adminEmail newId =>
    simp only [SiteWorld.act, SiteWorld.start]
    split
    · rename_i hseed
      exact hw.seed hseed
    · exact hnil
  | script adminEmail label expiry token newUserId newId =>
    simp only [SiteWorld.act, SiteWorld.script]
    split
    · rename_i hscript
      exact hw.script hscript
    · exact hnil
  | request req form commits => exact hw.request hgen
  | grpc authorization =>
    simp only [SiteWorld.act, SiteWorld.grpc]
    split
    · rename_i hauth
      exact hw.grpc hauth
    · exact hnil
  | wait duration =>
    exact ⟨hnil.users, hnil.tokens, hnil.used, hnil.keys, hnil.cookies, hnil.backed⟩

/-- The history of a run. -/
def siteHistory (env : SiteEnv) (settings : LoginSettings) (c : Conversions) (now : DateTime)
    (as : List SiteAction) : List SiteEvent :=
  (siteSystem env settings c now).outputs (siteEvents env settings c)
    (siteSystem env settings c now).init as

/-- **Every entry of the history of a run is backed by earlier ones.** -/
theorem backed_run {now : DateTime} {as : List SiteAction}
    (hgen : (siteSystem env settings c now).Allowed (Genuine env)
      (siteSystem env settings c now).init as)
    (hrun : (siteSystem env settings c now).run (siteSystem env settings c now).init as = some w) :
    SiteRecorded env (siteHistory env settings c now as) w := by
  refine Machine.allowed_run_outputs (h := []) (I := fun h w => SiteRecorded env h w) ?_ ?_ hgen
    hrun
  · intro h s a s' hs hgen hst
    obtain rfl := Option.some.inj hst
    exact siteRecorded_step hs hgen
  · refine ⟨fun u hu => absurd hu (Table.not_mem_empty u),
      fun t ht => absurd ht (Table.not_mem_empty t), nofun,
      fun k hk => absurd hk (Table.not_mem_empty k), nofun, ?_⟩
    intro before e after heq
    cases before <;> cases heq

/-! ### Back to a login code -/

/-- The user signed in with a code before it expired, as the user to whom it was sent and who was
the administrator at some start. -/
def Rooted (env : SiteEnv) (h : List SiteEvent) (user : SessionUser) (since : DateTime) : Prop :=
  ∃ tokenId userId expiresAt, .issuedCode tokenId userId expiresAt ∈ h ∧
    .signedIn tokenId user since ∈ h ∧ since < expiresAt ∧ user.id = env.strUuid userId ∧
      .seeded user.email userId ∈ h

variable {before after : List SiteEvent}

/-- What an earlier entry needs is earlier still. -/
theorem Backed.of_mem (hback : Backed env h) (heq : h = before ++ after) (he : e ∈ before) :
    ∃ earlier, Justified env earlier e ∧ ∀ x ∈ earlier, x ∈ before := by
  obtain ⟨earlier, later, rfl⟩ := List.append_of_mem he
  refine ⟨earlier, hback earlier e (later ++ after) ?_, fun x hx => List.mem_append_left _ hx⟩
  rw [heq, List.append_assoc, List.cons_append]

theorem Backed.rooted (hback : Backed env h) (heq : h = before ++ after) {user : SessionUser}
    {time : DateTime} (hin : InSession env before user time) :
    ∃ since, Rooted env before user since ∧ Lasting env since time := by
  obtain ⟨tokenId, since, hmem, hage⟩ := hin
  obtain ⟨earlier, ⟨⟨userId, expiresAt, hissued, hexp, hid, hseeded⟩, -⟩, hsub⟩ :=
    hback.of_mem heq hmem
  exact ⟨since, ⟨tokenId, userId, expiresAt, hsub _ hissued, hmem, hexp, hid,
    hsub _ hseeded⟩, hage⟩

theorem LiveKey.mem {keyId userId : Uuid} {expiresAt : Option DateTime}
    {creator : Option SessionUser} (hk : LiveKey h keyId userId expiresAt creator) :
    .createdKey keyId userId expiresAt creator ∈ h := by
  obtain ⟨before, after, rfl, -⟩ := hk
  exact List.mem_append_right before List.mem_cons_self

/-- A code signs in at most once. -/
theorem Backed.signedIn_unique (hback : Backed env h) {tokenId : Uuid}
    {user user' : SessionUser} {since since' : DateTime}
    (hmem : .signedIn tokenId user since ∈ h) (hmem' : .signedIn tokenId user' since' ∈ h) :
    user = user' ∧ since = since' := by
  obtain ⟨before, after, rfl⟩ := List.append_of_mem hmem
  rcases List.mem_append.1 hmem' with hbefore | hrest
  · exact absurd hbefore ((hback before _ after rfl).2 user' since')
  rcases List.mem_cons.1 hrest with heq | hafter
  · obtain ⟨-, rfl, rfl⟩ := SiteEvent.signedIn.inj heq
    exact ⟨rfl, rfl⟩
  · obtain ⟨mid, last, rfl⟩ := List.append_of_mem hafter
    have hlater := hback (before ++ .signedIn tokenId user since :: mid)
      (.signedIn tokenId user' since') last (by rw [List.append_assoc, List.cons_append])
    exact absurd (List.mem_append_right before List.mem_cons_self) (hlater.2 user since)

/-- A request of the same machine. -/
def localRequest (method path : String) (cookie authorization : Option String) : SiteRequest :=
  ⟨method, path, "localhost:8000", cookie, authorization⟩

/-- The administrator signs in and creates a key, with which a client lists the projects an hour
later, beside a key of the script. -/
def demoSite : List SiteAction :=
  [.start "admin@argus.local" 1,
    .request (localRequest "POST" "/login" none none) (.login "Admin@argus.local " "ABCD" 7) true,
    .wait 60000000,
    .request (localRequest "POST" "/login/verify" none none) (.verify "admin@argus.local" "abcd")
      true,
    .request (localRequest "POST" "/settings/api-keys"
      (some (demoSiteEnv.sign ⟨"u", "admin@argus.local"⟩ 86460)) none)
      (.createKey "ci" (.str "") "t" 8) true,
    .script "admin@argus.local" "cli" (.ttlDays 1) "u" 2 9,
    .wait 3600000000,
    .request (localRequest "GET" "/api/v1/projects" none (some "Bearer argus_t")) .other true]

/-- The machine of the demonstration. -/
def demoSiteSystem : Machine SiteWorld SiteAction :=
  siteSystem demoSiteEnv ⟨false⟩ digitConversions 86400000000

end ArgusSbomGuard
