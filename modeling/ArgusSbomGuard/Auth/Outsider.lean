import ArgusSbomGuard.Auth.Sessions

/-!
# What an outsider learns

Somebody without a session, an API key or a login code sends requests to the site, while others use
it as they like.  The comment in `login_request` says that the page must not tell whether a user
exists.  It does not, and neither does any other response: whatever the outsider asks, over a whole
run, the site answers as it would with empty tables (`shown_eq_blind`), so that two runs in which
the outsider asks the same look the same, whoever has an account in them
(`outsider_learns_nothing`).

## Main definitions

* `SiteResponse`, `respond` : what a request brings back.
* `Outside` : the request has no session, no stored key and no code in force.
* `Visit`, `visitSystem` : a run with the requests of the outsider marked.
* `asked`, `shown` : the outsider's side of a run.
-/

namespace ArgusSbomGuard

/-- What a request brings back: an answer of a guard or of a public handler that looks at none of
the tables, a page of the login, a session or an unhandled exception; or a response that may show
anything. -/
inductive SiteResponse
  | answered (answer : Answer)
  | page (page : LoginPage)
  | signedIn (user : SessionUser)
  | failed
  | content (route : Route) (caller : Caller) (db : AuthDatabase)

section

variable (env : SiteEnv) (settings : LoginSettings)

/-- The response of a handler besides those of the login. -/
def otherResponse (db : AuthDatabase) (route : Route) (caller : Caller) : SiteResponse :=
  if route ∈ publicRoutes then .answered (.ran route caller) else .content route caller db

/-- A page of the login, or a server error. -/
def pageResponse {ε : Type} : Except ε (LoginPage ⊕ SessionUser) → SiteResponse
  | .ok (.inl page) => .page page
  | .ok (.inr user) => .signedIn user
  | .error _ => .failed

/-- What the handler of a route sends back. -/
def handlerResponse (db : AuthDatabase) (now : DateTime) (route : Route) (caller : Caller) :
    SiteForm → SiteResponse
  | .login email rawCode newId =>
    if route = loginRoute then
      pageResponse ((loginRequest env settings db email rawCode newId now).map fun r => .inl r.2)
    else otherResponse db route caller
  | .verify email code =>
    if route = verifyRoute then pageResponse ((loginVerify env db email code now).map Prod.snd)
    else otherResponse db route caller
  | .createKey _ _ _ _ | .revokeKey _ | .other => otherResponse db route caller

/-- The response to a request. -/
def respond (db : AuthDatabase) (now : DateTime) (req : SiteRequest) (form : SiteForm) :
    SiteResponse :=
  match serve env db req now now with
  | (db, .ran route caller) => handlerResponse env settings db now route caller form
  | (_, answer) => .answered answer

/-- What is asked and when, without the draws of the site: the code and the identifiers. -/
structure Question where
  request : SiteRequest
  form : SiteForm
  time : DateTime

def SiteForm.withoutDraws : SiteForm → SiteForm
  | .login email _ _ => .login email "" 0
  | .createKey label ttlDays _ _ => .createKey label ttlDays "" 0
  | form => form

/-- The answer of the site with empty tables. -/
def blind (q : Question) : SiteResponse :=
  respond env settings .empty q.time q.request q.form

/-- A new code can be stored under the identifier, and its expiry is a date. -/
def Mintable (db : AuthDatabase) (now : DateTime) (newId : Uuid) : Prop :=
  (∀ t ∈ db.loginTokens, t.id ≠ newId) ∧
    (addDuration now (env.loginTokenExpireMinutes * 60000000)).isOk = true

/-- The code is none that could be redeemed. -/
def NotInForce (db : AuthDatabase) (now : DateTime) (code : String) : Prop :=
  ∀ t ∈ db.loginTokens, t.used = false → now < t.expiresAt →
    t.tokenHash ≠ env.hashToken (env.upper (PyStr.strip code))

/-- The form holds no code in force, and a code that it causes can be stored. -/
def SiteForm.Outside (db : AuthDatabase) (now : DateTime) : SiteForm → Prop
  | .login _ _ newId => Mintable env db now newId
  | .verify _ code => NotInForce env db now code
  | .createKey _ _ _ _ | .revokeKey _ | .other => True

/-- The request comes with no session, no stored key and no code in force. -/
structure Outside (w : SiteWorld) (req : SiteRequest) (form : SiteForm) : Prop where
  plainHost : plainHost req.host = true
  noSession : getUserFromCookie env req.cookie w.now = none
  noKey : ∀ k ∈ w.db.apiKeys, ∀ token,
    bearerToken env.toAuthEnv (req.authorization.getD "") = some token →
      k.keyHash ≠ env.hashToken token
  noCode : form.Outside env w.db w.now

instance (db : AuthDatabase) (now : DateTime) (newId : Uuid) :
    Decidable (Mintable env db now newId) :=
  inferInstanceAs (Decidable (_ ∧ _))

instance (db : AuthDatabase) (now : DateTime) (code : String) :
    Decidable (NotInForce env db now code) :=
  inferInstanceAs (Decidable (∀ t ∈ db.loginTokens.rows, _))

instance (db : AuthDatabase) (now : DateTime) : DecidablePred (SiteForm.Outside env db now) :=
  fun form => match form with
  | .login _ _ newId => inferInstanceAs (Decidable (Mintable env db now newId))
  | .verify _ code => inferInstanceAs (Decidable (NotInForce env db now code))
  | .createKey _ _ _ _ | .revokeKey _ | .other => .isTrue trivial

instance (w : SiteWorld) (req : SiteRequest) (form : SiteForm) :
    Decidable (Outside env w req form) :=
  decidable_of_iff
    (ArgusSbomGuard.plainHost req.host = true ∧ getUserFromCookie env req.cookie w.now = none ∧
      (∀ k ∈ w.db.apiKeys.rows, ∀ token,
        bearerToken env.toAuthEnv (req.authorization.getD "") = some token →
          k.keyHash ≠ env.hashToken token) ∧ form.Outside env w.db w.now)
    ⟨fun ⟨hhost, hsession, hkey, hcode⟩ => ⟨hhost, hsession, hkey, hcode⟩,
      fun h => ⟨h.plainHost, h.noSession, h.noKey, h.noCode⟩⟩

/-- An action of anybody, or a request of the outsider. -/
inductive Visit
  | other (a : SiteAction)
  | outsider (req : SiteRequest) (form : SiteForm)

def Visit.action : Visit → SiteAction
  | .other a => a
  | .outsider req form => .request req form true

/-- The requests of the outsider are outside, the others do what they like. -/
def Visit.Allowed (w : SiteWorld) : Visit → Prop
  | .other _ => True
  | .outsider req form => Outside env w req form

instance (w : SiteWorld) : DecidablePred (Visit.Allowed env w) := fun v =>
  match v with
  | .other _ => .isTrue trivial
  | .outsider req form => inferInstanceAs (Decidable (Outside env w req form))

/-- The site with the requests of the outsider marked. -/
def visitSystem (c : Conversions) (now : DateTime) : Machine SiteWorld Visit where
  init := (siteSystem env settings c now).init
  step w v := (siteSystem env settings c now).step w v.action

/-- The questions of the outsider. -/
def asked (w : SiteWorld) : Visit → List Question
  | .other _ => []
  | .outsider req form => [⟨req, form.withoutDraws, w.now⟩]

/-- The responses to the outsider. -/
def shown (w : SiteWorld) : Visit → List SiteResponse
  | .other _ => []
  | .outsider req form => [respond env settings w.db w.now req form]

end

variable {env : SiteEnv} {settings : LoginSettings} {c : Conversions} {w : SiteWorld}
  {req : SiteRequest} {form : SiteForm}

/-! ### The gates -/

/-- A key that is not stored is unknown. -/
theorem authenticateApiKey_unknown {env : AuthEnv} {db : AuthDatabase} {rawKey : String}
    {now usedAt : DateTime} (h : ∀ k ∈ db.apiKeys, k.keyHash ≠ env.hashToken rawKey) :
    authenticateApiKey env db rawKey now usedAt = (db, .unknown) := by
  unfold authenticateApiKey
  split_ifs
  · rfl
  · rw [Table.find?_eq_none.2 fun k hk => beq_eq_false_iff_ne.2 (h k hk)]

/-- A gate answers a key that is not stored without a look at the others. -/
theorem bearerGate_unknown {env : AuthEnv} {db : AuthDatabase} {authorization : String}
    {now usedAt : DateTime} (h : ∀ k ∈ db.apiKeys, ∀ token,
      bearerToken env authorization = some token → k.keyHash ≠ env.hashToken token) :
    bearerGate env db authorization now usedAt =
      (db, (bearerGate env .empty authorization now usedAt).2) := by
  have hempty : ∀ k ∈ AuthDatabase.empty.apiKeys, ∀ rawKey, k.keyHash ≠ env.hashToken rawKey :=
    fun k hk => absurd hk (Table.not_mem_empty k)
  unfold bearerGate
  cases htoken : bearerToken env authorization with
  | none => rfl
  | some token =>
    dsimp only
    rw [authenticateApiKey_unknown fun k hk => h k hk token htoken,
      authenticateApiKey_unknown fun k hk => hempty k hk token]

theorem answerOf_db {route : Route} {db db' : AuthDatabase} {gate : Gate} :
    answerOf route (db, gate) = (db, (answerOf route (db', gate)).2) := by
  cases gate <;> rfl

/-- Without a session and a stored key the guards answer as with empty tables, and change
nothing. -/
theorem serve_unknown {db : AuthDatabase} {now : DateTime}
    (hsession : getUserFromCookie env req.cookie now = none)
    (hkey : ∀ k ∈ db.apiKeys, ∀ token,
      bearerToken env.toAuthEnv (req.authorization.getD "") = some token →
        k.keyHash ≠ env.hashToken token) :
    serve env db req now now = (db, (serve env .empty req now now).2) := by
  have hgate : ∀ route, answerOf route (bearerGate env.toAuthEnv db (req.authorization.getD "")
      now now) = (db, (answerOf route (bearerGate env.toAuthEnv .empty
        (req.authorization.getD "") now now)).2) := by
    intro route
    rw [bearerGate_unknown hkey]
    exact answerOf_db
  have hhead : req.authorization.toList.headD "" = req.authorization.getD "" := by
    cases req.authorization <;> rfl
  unfold serve
  rw [hsession]
  dsimp only
  split_ifs
  · rfl
  · rfl
  split
  · rfl
  rename_i route _
  unfold guardRoute
  split
  · rfl
  · exact hgate route
  · split_ifs
    · rfl
    · rw [mcpAuth, mcpAuth, hhead]
      exact hgate route

/-! ### The login pages -/

variable {db : AuthDatabase} {now : DateTime}

theorem createLoginToken_isOk {userId newId : Uuid} {rawCode : String}
    (hmint : Mintable env db now newId) (huser : ∃ u ∈ db.users, u.id = userId) :
    ∃ db', createLoginToken env.toAuthEnv db userId rawCode newId now = .ok (db', rawCode) := by
  obtain ⟨hfresh, hok⟩ := hmint
  cases hexp : addDuration now (env.loginTokenExpireMinutes * 60000000) with
  | error e =>
    rw [hexp] at hok
    cases hok
  | ok expiresAt =>
    have hins : ∃ db', db.insertLoginToken
        ⟨newId, userId, env.hashToken rawCode, expiresAt, false⟩ = .ok db' := by
      unfold AuthDatabase.insertLoginToken
      rw [dif_pos huser]
      split
      · rename_i hnone
        obtain ⟨t, ht, hclash⟩ := Table.insert?_eq_none.1 hnone
        exact absurd hclash (hfresh t ht)
      · exact ⟨_, rfl⟩
    obtain ⟨db', hdb⟩ := hins
    exact ⟨db', bind_eq_ok.2 ⟨expiresAt, hexp, bind_eq_ok.2 ⟨db', hdb, rfl⟩⟩⟩

/-- The page after an address has been typed in, whether somebody has it or not. -/
theorem loginRequest_page {email rawCode : String} {newId : Uuid}
    (hdev : settings.showLoginCodeInResponse = false)
    (hmint : ∀ u ∈ db.users, Mintable env db now newId) :
    ((loginRequest env settings db email rawCode newId now).map fun r => .inl r.2 :
        Except PyError (LoginPage ⊕ SessionUser)) =
      if fitsText (normalizedEmail env.toAuthEnv (normalizedEmail env.toAuthEnv email)) then
        .ok (.inl ⟨"code", normalizedEmail env.toAuthEnv email, none, none⟩)
      else .error .dataError := by
  have huser : getUserByEmail env db (normalizedEmail env.toAuthEnv email) =
      if fitsText (normalizedEmail env.toAuthEnv (normalizedEmail env.toAuthEnv email)) then
        .ok (db.users.find? fun u =>
          u.email == normalizedEmail env.toAuthEnv (normalizedEmail env.toAuthEnv email))
      else .error .dataError := by
    unfold getUserByEmail
    cases fitsText (normalizedEmail env.toAuthEnv (normalizedEmail env.toAuthEnv email)) <;> rfl
  unfold loginRequest
  dsimp only
  rw [huser, hdev]
  cases fitsText (normalizedEmail env.toAuthEnv (normalizedEmail env.toAuthEnv email)) with
  | false => rfl
  | true =>
    simp only [if_true]
    cases hfind : db.users.find? fun u =>
        u.email == normalizedEmail env.toAuthEnv (normalizedEmail env.toAuthEnv email) with
    | none => rfl
    | some user =>
      have hmem : user ∈ db.users := (Table.mem_of_find? hfind).1
      obtain ⟨db', hcreate⟩ : ∃ db',
          createLoginToken env.toAuthEnv db user.id rawCode newId now = .ok (db', rawCode) :=
        createLoginToken_isOk (hmint user hmem) ⟨user, hmem, rfl⟩
      show ((createLoginToken env.toAuthEnv db user.id rawCode newId now >>= _).map _) = _
      rw [hcreate]
      rfl

/-- A user with the address and no user with it get the same page. -/
theorem handlerResponse_login {email rawCode : String} {newId : Uuid} {caller : Caller}
    (hdev : settings.showLoginCodeInResponse = false) (hmint : Mintable env db now newId) :
    handlerResponse env settings db now loginRoute caller (.login email rawCode newId) =
      handlerResponse env settings .empty now loginRoute caller (.login email "" 0) := by
  simp only [handlerResponse, if_true]
  rw [loginRequest_page hdev fun _ _ => hmint,
    loginRequest_page hdev fun u hu => absurd hu (Table.not_mem_empty u)]

/-- A code that is not in force finds no token. -/
theorem lookupLoginToken_none {email code : String} (hcode : NotInForce env db now code) :
    lookupLoginToken env.toAuthEnv db (env.upper (PyStr.strip code)) email now =
      if fitsText (normalizedEmail env.toAuthEnv email) then .ok none else .error .dataError := by
  have hnone : db.loginTokens.rows.filter
      (redeemable env.toAuthEnv db (env.upper (PyStr.strip code)) email now) = [] := by
    refine List.filter_eq_nil_iff.2 fun t ht hred => ?_
    obtain ⟨hhash, hused, hexp, -⟩ := redeemable_iff.1 hred
    exact hcode t ht hused hexp hhash
  unfold lookupLoginToken
  rw [hnone]
  cases fitsText (normalizedEmail env.toAuthEnv email) <;> rfl

/-- A code that is not in force is answered like any other. -/
theorem handlerResponse_verify {email code : String} {caller : Caller}
    (hcode : NotInForce env db now code) :
    handlerResponse env settings db now verifyRoute caller (.verify email code) =
      handlerResponse env settings .empty now verifyRoute caller (.verify email code) := by
  have hempty : NotInForce env .empty now code := fun t ht => absurd ht (Table.not_mem_empty t)
  simp only [handlerResponse, loginVerify, verifyLoginToken, lookupLoginToken_none hcode,
    lookupLoginToken_none hempty, if_true]
  cases fitsText (normalizedEmail env.toAuthEnv (normalizedEmail env.toAuthEnv email)) <;> rfl

/-- The handlers of public routes answer an outsider as with empty tables. -/
theorem handlerResponse_outside {route : Route} {caller : Caller}
    (hdev : settings.showLoginCodeInResponse = false) (hout : Outside env w req form)
    (hroute : route ∈ publicRoutes) :
    handlerResponse env settings w.db w.now route caller form =
      handlerResponse env settings .empty w.now route caller form.withoutDraws := by
  have hother : otherResponse w.db route caller = otherResponse .empty route caller := by
    rw [otherResponse, otherResponse, if_pos hroute, if_pos hroute]
  cases form with
  | login email rawCode newId =>
    by_cases hlogin : route = loginRoute
    · rw [hlogin]
      exact handlerResponse_login hdev (hout.noCode)
    · simpa only [handlerResponse, SiteForm.withoutDraws, if_neg hlogin] using hother
  | verify email code =>
    by_cases hverify : route = verifyRoute
    · rw [hverify]
      exact handlerResponse_verify (hout.noCode)
    · simpa only [handlerResponse, SiteForm.withoutDraws, if_neg hverify] using hother
  | createKey _ _ _ _ | revokeKey _ | other => exact hother

/-- An outsider reaches public routes only. -/
theorem Outside.public_of_ran (hout : Outside env w req form) {db : AuthDatabase} {route : Route}
    {caller : Caller} (hserve : serve env w.db req w.now w.now = (db, .ran route caller)) :
    route ∈ publicRoutes := by
  cases serve_authenticated hout.plainHost hserve with
  | anyone hpublic => exact hpublic
  | session huser =>
    rw [hout.noSession] at huser
    cases huser
  | @apiKey user token _ htoken huser =>
    rw [authenticateApiKey_unknown fun k hk => hout.noKey k hk token htoken] at huser
    cases huser

/-- **An outsider is answered as with empty tables.** -/
theorem respond_outside (hdev : settings.showLoginCodeInResponse = false)
    (hout : Outside env w req form) :
    respond env settings w.db w.now req form =
      blind env settings ⟨req, form.withoutDraws, w.now⟩ := by
  have hserve := serve_unknown hout.noSession hout.noKey
  have hempty : serve env .empty req w.now w.now =
      (.empty, (serve env .empty req w.now w.now).2) :=
    serve_unknown hout.noSession fun k hk => absurd hk (Table.not_mem_empty k)
  have hpublic : ∀ route caller, (serve env .empty req w.now w.now).2 = .ran route caller →
      route ∈ publicRoutes := by
    intro route caller hran
    rw [hran] at hserve
    exact hout.public_of_ran hserve
  unfold blind respond
  dsimp only
  rw [hserve, hempty]
  cases hanswer : (serve env .empty req w.now w.now).2 with
  | ran route caller => exact handlerResponse_outside hdev hout (hpublic route caller hanswer)
  | invalidHost | redirectToLogin | notFound | unauthorized detail => rfl

/-! ### Runs -/

/-- **Over a whole run the site answers the outsider as with empty tables**, whatever the others
do. -/
theorem shown_eq_blind {now : DateTime} {vs : List Visit}
    (hdev : settings.showLoginCodeInResponse = false)
    (hout : (visitSystem env settings c now).Allowed (Visit.Allowed env)
      (visitSystem env settings c now).init vs) :
    (visitSystem env settings c now).outputs (shown env settings)
        (visitSystem env settings c now).init vs =
      ((visitSystem env settings c now).outputs asked
        (visitSystem env settings c now).init vs).map (blind env settings) := by
  refine Machine.outputs_map (fun w v hv => ?_) hout
  cases v with
  | other a => rfl
  | outsider req form => exact congrArg ([·]) (respond_outside hdev hv)

/-- **An outsider learns nothing about the accounts.**  The login code is not shown in responses.
In two runs, from whatever starts, with whatever sign-ins, keys and sessions of others, the outsider
asks the same at the same times, without a session, a stored key or a code in force.  Then the
responses are the same. -/
theorem outsider_learns_nothing {now now' : DateTime} {vs vs' : List Visit}
    (hdev : settings.showLoginCodeInResponse = false)
    (hout : (visitSystem env settings c now).Allowed (Visit.Allowed env)
      (visitSystem env settings c now).init vs)
    (hout' : (visitSystem env settings c now').Allowed (Visit.Allowed env)
      (visitSystem env settings c now').init vs')
    (hasked : (visitSystem env settings c now).outputs asked
        (visitSystem env settings c now).init vs =
      (visitSystem env settings c now').outputs asked
        (visitSystem env settings c now').init vs') :
    (visitSystem env settings c now).outputs (shown env settings)
        (visitSystem env settings c now).init vs =
      (visitSystem env settings c now').outputs (shown env settings)
        (visitSystem env settings c now').init vs' := by
  rw [shown_eq_blind hdev hout, shown_eq_blind hdev hout', hasked]

/-- Only waiting takes time. -/
theorem act_now {a : SiteAction} (ha : ∀ duration, a ≠ .wait duration) :
    (w.act env settings c a).1.now = w.now := by
  have hhandler : ∀ (w : SiteWorld) route caller form,
      (runHandler env settings c w route caller form).1.now = w.now := by
    intro w route caller form
    unfold runHandler
    split
    · split_ifs
      · split <;> rfl
      · rfl
    · split_ifs
      · split <;> rfl
      · rfl
    · split
      · split_ifs
        · split <;> rfl
        · rfl
      · rfl
    · split_ifs <;> rfl
    · rfl
  cases a with
  | start adminEmail newId =>
    simp only [SiteWorld.act, SiteWorld.start]
    split <;> rfl
  | script adminEmail label expiry token newUserId newId =>
    simp only [SiteWorld.act, SiteWorld.script]
    split <;> rfl
  | request req form commits =>
    show (w.request env settings c req form commits).1.now = w.now
    unfold SiteWorld.request
    generalize serve env w.db req w.now w.now = answer
    cases answer with
    | mk db answer =>
      cases answer with
      | ran route caller =>
        show (runHandler env settings c _ route caller form).1.now = w.now
        rw [hhandler]
      | invalidHost | redirectToLogin | notFound | unauthorized detail => rfl
  | grpc authorization =>
    simp only [SiteWorld.act, SiteWorld.grpc]
    split <;> rfl
  | wait duration => exact absurd rfl (ha duration)

/-- Somebody asks for a code of an address, guesses one, and tries a key and a page. -/
def demoOutsider (admin : String) : List Visit :=
  [.other (.start admin 1),
    .outsider (localRequest "POST" "/login" none none) (.login "admin@argus.local" "ABCD" 7),
    .outsider (localRequest "POST" "/login/verify" none none)
      (.verify "admin@argus.local" "WXYZ"),
    .outsider (localRequest "GET" "/api/v1/projects" none (some "Bearer argus_t")) .other,
    .outsider (localRequest "GET" "/settings" none none) .other]

/-- The site of the demonstration. -/
def demoVisits : Machine SiteWorld Visit :=
  visitSystem demoSiteEnv ⟨false⟩ digitConversions 86400000000

/-- Whether the address is that of the administrator or not, the responses are the same. -/
theorem outsider_learns_nothing_demo :
    demoVisits.outputs (shown demoSiteEnv ⟨false⟩) demoVisits.init
        (demoOutsider "admin@argus.local") =
      demoVisits.outputs (shown demoSiteEnv ⟨false⟩) demoVisits.init
        (demoOutsider "nobody@argus.local") := by
  refine @outsider_learns_nothing demoSiteEnv ⟨false⟩ digitConversions 86400000000 86400000000
    (demoOutsider "admin@argus.local") (demoOutsider "nobody@argus.local") rfl ?_ ?_ ?_
  · show demoVisits.Allowed (Visit.Allowed demoSiteEnv) demoVisits.init _
    decide +kernel
  · show demoVisits.Allowed (Visit.Allowed demoSiteEnv) demoVisits.init _
    decide +kernel
  · simp only [demoOutsider, Machine.outputs, visitSystem, siteSystem, Visit.action, asked,
      List.nil_append, List.singleton_append, ne_eq, reduceCtorEq, not_false_eq_true, implies_true,
      act_now]

end ArgusSbomGuard
