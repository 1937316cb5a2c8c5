import ArgusSbomGuard.Auth.Schema

/-!
# Login codes

`create_login_token` and `verify_login_token` of `services/auth.py`, each in a transaction of its
own.  `verifyLoginToken_eq_ok` says all that a verification can do.
-/

namespace ArgusSbomGuard

/-- The exceptions of a verification: several rows where at most one is expected, or a text that the
database cannot read. -/
inductive LoginError
  | multipleResultsFound | dataError
  deriving DecidableEq

section

variable (env : AuthEnv) (db : AuthDatabase)

/-- `email.strip().lower()`. -/
def normalizedEmail (email : String) : String := env.lower (PyStr.strip email)

/-- `get_user_by_id`. -/
def getUserById (userId : Uuid) : Option User := db.users.find? fun u => u.id == userId

/-- `create_login_token`, with the code that is drawn, the new identifier and the clock. -/
def createLoginToken (userId : Uuid) (rawCode : String) (newId : Uuid) (now : DateTime) :
    Except PyError (AuthDatabase × String) := do
  let expiresAt ← addDuration now (env.loginTokenExpireMinutes * 60000000)
  let db ← db.insertLoginToken ⟨newId, userId, env.hashToken rawCode, expiresAt, false⟩
  return (db, rawCode)

/-- The condition on the joined rows of a token and its user. -/
def redeemable (rawToken email : String) (now : DateTime) (t : LoginToken) : Bool :=
  t.tokenHash == env.hashToken rawToken && !t.used && decide (now < t.expiresAt) &&
    db.users.rows.any fun u => u.id == t.userId && u.email == normalizedEmail env email

/-- `scalar_one_or_none` of the tokens that can be redeemed. -/
def lookupLoginToken (rawToken email : String) (now : DateTime) :
    Except LoginError (Option LoginToken) :=
  if !fitsText (normalizedEmail env email) then .error .dataError
  else match db.loginTokens.rows.filter (redeemable env db rawToken email now) with
    | [] => .ok none
    | [t] => .ok (some t)
    | _ => .error .multipleResultsFound

/-- `verify_login_token`. -/
def verifyLoginToken (rawToken email : String) (now : DateTime) :
    Except LoginError (AuthDatabase × Option User) :=
  match lookupLoginToken env db rawToken email now with
  | .error e => .error e
  | .ok none => .ok (db, none)
  | .ok (some t) => .ok (db.useLoginToken t.id, getUserById (db.useLoginToken t.id) t.userId)

end

variable {env : AuthEnv} {db : AuthDatabase} {rawToken email : String} {now : DateTime}
  {t : LoginToken}

/-- A login code is stored for its user, with the hash of the code. -/
theorem createLoginToken_eq_ok {userId newId : Uuid} {rawCode code : String} {db' : AuthDatabase}
    (h : createLoginToken env db userId rawCode newId now = .ok (db', code)) :
    code = rawCode ∧ ∃ table, db.loginTokens.insert? ⟨newId, userId, env.hashToken rawCode,
        now + env.loginTokenExpireMinutes * 60000000, false⟩ = some table ∧
      db'.toAuthTables = { db.toAuthTables with loginTokens := table } := by
  obtain ⟨expiresAt, hexp, hrest⟩ := bind_eq_ok.1 h
  obtain ⟨db'', hins, hrest⟩ := bind_eq_ok.1 hrest
  cases hrest
  have hnow : now + env.loginTokenExpireMinutes * 60000000 = expiresAt := by
    unfold addDuration at hexp
    split_ifs at hexp
    exact Except.ok.inj hexp
  rw [hnow]
  exact ⟨rfl, AuthDatabase.insertLoginToken_eq_ok hins⟩

theorem redeemable_iff : redeemable env db rawToken email now t = true ↔
    t.tokenHash = env.hashToken rawToken ∧ t.used = false ∧ now < t.expiresAt ∧
      ∃ u ∈ db.users, u.id = t.userId ∧ u.email = normalizedEmail env email := by
  simp only [redeemable, Bool.and_eq_true, beq_iff_eq, Bool.not_eq_true', decide_eq_true_eq,
    List.any_eq_true, and_assoc, Table.mem_rows]

/-- The token that a lookup finds is stored and can be redeemed. -/
theorem lookupLoginToken_eq_some
    (h : lookupLoginToken env db rawToken email now = .ok (some t)) :
    t ∈ db.loginTokens ∧ redeemable env db rawToken email now t = true := by
  unfold lookupLoginToken at h
  split_ifs at h
  split at h
  · cases h
  · rename_i a hrows
    obtain rfl := Option.some.inj (Except.ok.inj h)
    have hmem : a ∈ db.loginTokens.rows.filter (redeemable env db rawToken email now) := by
      rw [hrows]
      exact List.mem_singleton_self a
    exact List.mem_filter.1 hmem
  · cases h

/-- The user of a token is found. -/
theorem getUserById_eq_some {userId : Uuid} (h : ∃ u ∈ db.users, u.id = userId) :
    ∃ u, getUserById db userId = some u ∧ u.id = userId := by
  obtain ⟨u, -, hu, hfind⟩ := AuthDatabase.find?_user h
  exact ⟨u, hfind, hu⟩

theorem id_of_getUserById {userId : Uuid} {u : User} (h : getUserById db userId = some u) :
    u.id = userId :=
  beq_iff_eq.1 (Table.mem_of_find? h).2

/-- A verification finds nothing and changes nothing, or marks the token that it has found and
returns the token's user. -/
theorem verifyLoginToken_eq_ok {db' : AuthDatabase} {user : Option User}
    (h : verifyLoginToken env db rawToken email now = .ok (db', user)) :
    (user = none ∧ db' = db) ∨
      ∃ t ∈ db.loginTokens, redeemable env db rawToken email now t = true ∧
        db' = db.useLoginToken t.id ∧ ∃ u, user = some u ∧ u.id = t.userId := by
  unfold verifyLoginToken at h
  split at h
  · cases h
  · cases h
    exact .inl ⟨rfl, rfl⟩
  · rename_i t hlookup
    cases h
    obtain ⟨ht, hred⟩ := lookupLoginToken_eq_some hlookup
    have huser : ∃ u ∈ (db.useLoginToken t.id).users, u.id = t.userId := db.tokensUser t ht
    exact .inr ⟨t, ht, hred, rfl, getUserById_eq_some huser⟩

end ArgusSbomGuard
