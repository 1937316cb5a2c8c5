import ArgusSbomGuard.Auth.Login

/-!
# API keys

`create_api_key`, `authenticate_api_key` and `revoke_api_key` of `services/auth.py`, and the gates
of `middleware/api_key.py` and `middleware/mcp_auth.py` that ask `authenticate_api_key`.  Each
operation has one lemma that says all it can do.
-/

namespace ArgusSbomGuard

/-- `ApiKeyAuthResult`. -/
structure ApiKeyAuthResult where
  user : Option User
  expired : Bool
  deriving DecidableEq

/-- `ApiKeyAuthResult.valid`. -/
def ApiKeyAuthResult.valid (r : ApiKeyAuthResult) : Bool := r.user.isSome

/-- What an unknown key is answered with. -/
def ApiKeyAuthResult.unknown : ApiKeyAuthResult := ⟨none, false⟩

section

variable (env : AuthEnv) (db : AuthDatabase)

/-- `api_key_default_expiry`. -/
def apiKeyDefaultExpiry (now : DateTime) : Except PyError (Option DateTime) :=
  match env.apiKeyTtlDays with
  | none => .ok none
  | some 0 => .ok none
  | some days => (addDuration now (days * 86400000000)).map some

/-- The raw key of `generate_api_key`, from the token that is drawn. -/
def rawApiKey (token : String) : String := "argus_" ++ token

/-- The columns of a new key. -/
def newApiKey (userId : Uuid) (label : String) (expiresAt : Option DateTime) (token : String)
    (newId : Uuid) : ApiKey where
  id := newId
  userId := userId
  keyPrefix := String.ofList ((rawApiKey token).toList.take 16)
  keyHash := env.hashToken (rawApiKey token)
  label := label
  lastUsedAt := none
  expiresAt := expiresAt

/-- `create_api_key`, with the token that is drawn and the new identifier. -/
def createApiKey (userId : Uuid) (label : String) (expiresAt : Option DateTime) (token : String)
    (newId : Uuid) : Except PyError (AuthDatabase × String) := do
  let label ← varchar 255 label
  let expiresAt ← timestampParam expiresAt
  let db ← db.insertApiKey (newApiKey env userId label expiresAt token newId)
  return (db, rawApiKey token)

/-- The expiry has been reached. -/
def expiryPassed (now : DateTime) : Option DateTime → Bool
  | none => false
  | some t => decide (t ≤ now)

/-- `authenticate_api_key`; the clock is read once for the check and once for the use. -/
def authenticateApiKey (rawKey : String) (now usedAt : DateTime) :
    AuthDatabase × ApiKeyAuthResult :=
  if !"argus_".toList.isPrefixOf rawKey.toList then (db, .unknown)
  else match db.apiKeys.find? fun k => k.keyHash == env.hashToken rawKey with
    | none => (db, .unknown)
    | some key =>
      if expiryPassed now key.expiresAt then (db, ⟨none, true⟩)
      else (db.touchApiKey key.id usedAt,
        ⟨getUserById (db.touchApiKey key.id usedAt) key.userId, false⟩)

/-- `revoke_api_key`. -/
def revokeApiKey (keyId : Uuid) : AuthDatabase × Bool :=
  match db.apiKeys.find? fun k => k.id == keyId with
  | none => (db, false)
  | some key => (db.deleteApiKey key.id, true)

/-! ### The gates -/

/-- The token of an `Authorization` header with the scheme `Bearer`. -/
def bearerToken (authorization : String) : Option String :=
  let scheme := authorization.toList.takeWhile (· ≠ ' ')
  let token := (authorization.toList.dropWhile (· ≠ ' ')).drop 1
  if env.lower (String.ofList scheme) ≠ "bearer" ∨ token.isEmpty then none
  else some (String.ofList token)

/-- The answer of a gate: it lets the request through for a user, or not. -/
inductive Gate
  | pass (user : User)
  | unauthorized (detail : String)
  deriving DecidableEq

/-- The answer for the result of a check. -/
def gateOf (r : ApiKeyAuthResult) : Gate :=
  if r.expired then .unauthorized "API key expired"
  else match r.user with
    | none => .unauthorized "Invalid API key"
    | some user => .pass user

/-- The check of a header that both gates make. -/
def bearerGate (authorization : String) (now usedAt : DateTime) : AuthDatabase × Gate :=
  match bearerToken env authorization with
  | none => (db, .unauthorized "Bearer token required")
  | some token =>
    let (db, result) := authenticateApiKey env db token now usedAt
    (db, gateOf result)

/-- `api_key_required`: a session that is logged in needs no key. -/
def apiKeyRequired (sessionUser : Option User) (authorization : String)
    (now usedAt : DateTime) : AuthDatabase × Gate :=
  match sessionUser with
  | some user => (db, .pass user)
  | none => bearerGate env db authorization now usedAt

/-- `MCPAuthMiddleware` for a request, with the values of its `Authorization` headers in order. -/
def mcpAuth (authorizations : List String) (now usedAt : DateTime) : AuthDatabase × Gate :=
  bearerGate env db (authorizations.headD "") now usedAt

end

/-! ### What the operations can do -/

variable {env : AuthEnv} {db : AuthDatabase}

theorem createApiKey_eq_ok {userId : Uuid} {label : String} {expiresAt : Option DateTime}
    {token : String} {newId : Uuid} {db' : AuthDatabase} {raw : String}
    (h : createApiKey env db userId label expiresAt token newId = .ok (db', raw)) :
    raw = rawApiKey token ∧
      ∃ t, db.apiKeys.insert? (newApiKey env userId (cutText 255 label) expiresAt token newId) =
          some t ∧
        db'.toAuthTables = { db.toAuthTables with apiKeys := t } := by
  obtain ⟨label', hlabel, h⟩ := bind_eq_ok.1 h
  obtain ⟨-, rfl⟩ := varchar_eq_ok.1 hlabel
  obtain ⟨expiresAt', htime, h⟩ := bind_eq_ok.1 h
  obtain ⟨db₁, hins, h⟩ := bind_eq_ok.1 h
  obtain ⟨rfl, rfl⟩ := Prod.mk.inj (Except.ok.inj h)
  have hexp : expiresAt' = expiresAt := by
    cases expiresAt with
    | none => exact (Except.ok.inj htime).symm
    | some t =>
      simp only [timestampParam] at htime
      split_ifs at htime
      exact (Except.ok.inj htime).symm
  subst hexp
  exact ⟨rfl, AuthDatabase.insertApiKey_eq_ok hins⟩

variable {rawKey : String} {now usedAt : DateTime}

/-- A check finds the key of the token, unexpired, notes its use and returns its user; or it rejects
the token and changes nothing. -/
theorem authenticateApiKey_cases (env : AuthEnv) (db : AuthDatabase) (rawKey : String)
    (now usedAt : DateTime) :
    (∃ key ∈ db.apiKeys, "argus_".toList <+: rawKey.toList ∧
      key.keyHash = env.hashToken rawKey ∧ expiryPassed now key.expiresAt = false ∧
      ∃ u, u.id = key.userId ∧ authenticateApiKey env db rawKey now usedAt =
        (db.touchApiKey key.id usedAt, ⟨some u, false⟩)) ∨
    ((∀ key ∈ db.apiKeys, "argus_".toList <+: rawKey.toList →
        key.keyHash = env.hashToken rawKey → expiryPassed now key.expiresAt = true) ∧
      (authenticateApiKey env db rawKey now usedAt).1 = db ∧
      (authenticateApiKey env db rawKey now usedAt).2.valid = false) := by
  unfold authenticateApiKey
  by_cases hargus : "argus_".toList.isPrefixOf rawKey.toList = true
  · rw [if_neg (by rw [hargus]; decide)]
    have hpre : "argus_".toList <+: rawKey.toList := List.isPrefixOf_iff_prefix.1 hargus
    cases hfind : db.apiKeys.find? fun k => k.keyHash == env.hashToken rawKey with
    | none =>
      refine .inr ⟨fun key hkey _ hhash => ?_, rfl, rfl⟩
      have hne := Table.find?_eq_none.1 hfind key hkey
      rw [hhash, beq_self_eq_true] at hne
      cases hne
    | some key =>
      obtain ⟨hkey, hhash⟩ := Table.mem_of_find? hfind
      have hhash : key.keyHash = env.hashToken rawKey := beq_iff_eq.1 hhash
      cases hexp : expiryPassed now key.expiresAt with
      | true =>
        refine .inr ⟨fun a ha _ hahash => ?_, by simp only [hexp, if_true],
          by simp only [hexp, if_true]; rfl⟩
        have heq : a = key := Table.eq_of_clash ha hkey (.inr (hahash.trans hhash.symm))
        rw [heq, hexp]
      | false =>
        obtain ⟨u, hu, huid⟩ : ∃ u,
            getUserById (db.touchApiKey key.id usedAt) key.userId = some u ∧ u.id = key.userId :=
          getUserById_eq_some (db.keysUser key hkey)
        refine .inl ⟨key, hkey, hpre, hhash, hexp, u, huid, ?_⟩
        simp only [hu, hexp, Bool.false_eq_true, if_false]
  · rw [if_pos (by rw [Bool.eq_false_iff.2 hargus]; rfl)]
    exact .inr ⟨fun key _ hpre => absurd (List.isPrefixOf_iff_prefix.2 hpre) hargus, rfl, rfl⟩

/-- The token is accepted: it belongs to a stored key that has not expired. -/
theorem valid_authenticateApiKey :
    (authenticateApiKey env db rawKey now usedAt).2.valid = true ↔
      ∃ key ∈ db.apiKeys, "argus_".toList <+: rawKey.toList ∧
        key.keyHash = env.hashToken rawKey ∧ expiryPassed now key.expiresAt = false := by
  rcases authenticateApiKey_cases env db rawKey now usedAt with
    ⟨key, hkey, hpre, hhash, hexp, u, -, heq⟩ | ⟨hnone, -, hvalid⟩
  · rw [heq]
    exact iff_of_true rfl ⟨key, hkey, hpre, hhash, hexp⟩
  · rw [hvalid]
    refine iff_of_false Bool.false_ne_true ?_
    rintro ⟨key, hkey, hpre, hhash, hexp⟩
    rw [hnone key hkey hpre hhash] at hexp
    cases hexp

/-- **A gate lets a token through exactly when the check accepts it.** -/
theorem gateOf_eq_pass {u : User} :
    gateOf (authenticateApiKey env db rawKey now usedAt).2 = .pass u ↔
      (authenticateApiKey env db rawKey now usedAt).2.user = some u := by
  rcases authenticateApiKey_cases env db rawKey now usedAt with
    ⟨key, -, -, -, -, v, -, heq⟩ | ⟨-, -, hvalid⟩
  · rw [heq]
    exact ⟨fun h => congrArg some (Gate.pass.inj h),
      fun h => congrArg Gate.pass (Option.some.inj h)⟩
  · have hnone : (authenticateApiKey env db rawKey now usedAt).2.user = none :=
      Option.not_isSome_iff_eq_none.1 (by rw [← ApiKeyAuthResult.valid, hvalid]; decide)
    rw [hnone]
    refine iff_of_false ?_ (Option.some_ne_none u).symm
    unfold gateOf
    rw [hnone]
    split_ifs <;> rintro ⟨⟩

/-- A key is revoked by deleting its row. -/
theorem mem_revokeApiKey {keyId : Uuid} {k : ApiKey} :
    k ∈ (revokeApiKey db keyId).1.apiKeys ↔ k ∈ db.apiKeys ∧ k.id ≠ keyId := by
  unfold revokeApiKey
  cases hfind : db.apiKeys.find? fun k => k.id == keyId with
  | none =>
    refine ⟨fun hk => ⟨hk, ?_⟩, And.left⟩
    exact beq_eq_false_iff_ne.1 (Table.find?_eq_none.1 hfind k hk)
  | some key =>
    have hid : key.id = keyId := beq_iff_eq.1 (Table.mem_of_find? hfind).2
    refine Table.mem_deleteWhere.trans (and_congr_right fun _ => ?_)
    rw [hid]
    exact beq_eq_false_iff_ne

end ArgusSbomGuard
