import ArgusSbomGuard.Models.Schema

/-!
# Users, login codes and API keys

The tables of `models/auth.py` with their foreign keys, and the statements that `services/auth.py`
sends to them.  The hash that the code stores instead of a secret is a parameter (`AuthEnv`).
-/

namespace ArgusSbomGuard

/-- A row of `users`. -/
structure User where
  id : Uuid
  email : String
  isAdmin : Bool
  deriving DecidableEq

instance : UniqueKeys User where
  Clash a b := a.id = b.id ∨ a.email = b.email
  decClash _ _ := inferInstanceAs (Decidable (_ ∨ _))
  clash_symm := Or.imp Eq.symm Eq.symm

/-- A row of `login_tokens`; the hash is indexed, but not unique. -/
structure LoginToken where
  id : Uuid
  userId : Uuid
  tokenHash : String
  expiresAt : DateTime
  used : Bool
  deriving DecidableEq

instance : UniqueKeys LoginToken where
  Clash a b := a.id = b.id
  decClash _ _ := inferInstanceAs (Decidable (_ = _))
  clash_symm := Eq.symm

/-- A row of `api_keys`. -/
structure ApiKey where
  id : Uuid
  userId : Uuid
  keyPrefix : String
  keyHash : String
  label : String
  lastUsedAt : Option DateTime
  expiresAt : Option DateTime
  deriving DecidableEq

instance : UniqueKeys ApiKey where
  Clash a b := a.id = b.id ∨ a.keyHash = b.keyHash
  decClash _ _ := inferInstanceAs (Decidable (_ ∨ _))
  clash_symm := Or.imp Eq.symm Eq.symm

/-- The functions and settings that the code takes from outside. -/
structure AuthEnv where
  /-- `_hash_token`; a hex digest fits its column. -/
  hashToken : String → String
  /-- `str.lower`. -/
  lower : String → String
  loginTokenExpireMinutes : ℤ
  apiKeyTtlDays : Option ℕ

/-- `now + timedelta(microseconds=d)`. -/
def addDuration (now : DateTime) (d : ℤ) : Except PyError DateTime :=
  if Date.start 1 ≤ now + d ∧ now + d < Date.start 3652060 then .ok (now + d)
  else .error .overflowError

/-- The contents of the tables. -/
structure AuthTables where
  users : Table User
  loginTokens : Table LoginToken
  apiKeys : Table ApiKey

/-- The tables with their foreign keys. -/
structure AuthDatabase extends AuthTables where
  tokensUser : ∀ t ∈ loginTokens, ∃ u ∈ users, u.id = t.userId
  keysUser : ∀ k ∈ apiKeys, ∃ u ∈ users, u.id = k.userId

namespace AuthDatabase

@[ext] theorem ext {a b : AuthDatabase} (h : a.toAuthTables = b.toAuthTables) : a = b := by
  cases a; cases b; cases h; rfl

/-- The empty database. -/
def empty : AuthDatabase where
  users := .empty
  loginTokens := .empty
  apiKeys := .empty
  tokensUser := fun _ h => absurd h (Table.not_mem_empty _)
  keysUser := fun _ h => absurd h (Table.not_mem_empty _)

variable (db : AuthDatabase)

def insertUser (u : User) : Except PyError AuthDatabase :=
  if !fitsVarchar 255 u.email then .error .dataError
  else match h : db.users.insert? u with
    | none => .error .integrityError
    | some t => .ok { db with
        users := t
        tokensUser := fun r hr => Table.exists_mem_insert? h (db.tokensUser r hr)
        keysUser := fun k hk => Table.exists_mem_insert? h (db.keysUser k hk) }

def insertLoginToken (r : LoginToken) : Except PyError AuthDatabase :=
  if hu : ∃ u ∈ db.users, u.id = r.userId then
    match h : db.loginTokens.insert? r with
    | none => .error .integrityError
    | some t => .ok { db with
        loginTokens := t
        tokensUser := Table.forall_mem_insert? h db.tokensUser hu }
  else .error .integrityError

def insertApiKey (k : ApiKey) : Except PyError AuthDatabase :=
  if !(fitsVarchar 20 k.keyPrefix && fitsVarchar 255 k.label) then .error .dataError
  else if hu : ∃ u ∈ db.users, u.id = k.userId then
    match h : db.apiKeys.insert? k with
    | none => .error .integrityError
    | some t => .ok { db with
        apiKeys := t
        keysUser := Table.forall_mem_insert? h db.keysUser hu }
  else .error .integrityError

/-- `UPDATE login_tokens SET used = true WHERE id = i`. -/
def useLoginToken (i : Uuid) : AuthDatabase :=
  { db with
    loginTokens := db.loginTokens.updateWhere (fun t => t.id == i)
      (fun t => { t with used := true }) fun _ _ => Iff.rfl
    tokensUser := Table.forall_mem_updateWhere db.tokensUser fun _ h => h }

/-- `UPDATE api_keys SET last_used_at = now WHERE id = i`. -/
def touchApiKey (i : Uuid) (now : DateTime) : AuthDatabase :=
  { db with
    apiKeys := db.apiKeys.updateWhere (fun k => k.id == i)
      (fun k => { k with lastUsedAt := some now }) fun _ _ => Iff.rfl
    keysUser := Table.forall_mem_updateWhere db.keysUser fun _ h => h }

/-- `DELETE FROM api_keys WHERE id = i`. -/
def deleteApiKey (i : Uuid) : AuthDatabase :=
  { db with
    apiKeys := db.apiKeys.deleteWhere fun k => k.id == i
    keysUser := Table.forall_mem_deleteWhere db.keysUser }

variable {db} {db' : AuthDatabase}

theorem insertUser_eq_ok {u : User} (h : db.insertUser u = .ok db') :
    ∃ t, db.users.insert? u = some t ∧
      db'.toAuthTables = { db.toAuthTables with users := t } := by
  unfold insertUser at h
  split_ifs at h
  split at h
  · cases h
  · rename_i t ht
    cases h
    exact ⟨t, ht, rfl⟩

theorem insertLoginToken_eq_ok {r : LoginToken} (h : db.insertLoginToken r = .ok db') :
    ∃ t, db.loginTokens.insert? r = some t ∧
      db'.toAuthTables = { db.toAuthTables with loginTokens := t } := by
  unfold insertLoginToken at h
  split_ifs at h
  split at h
  · cases h
  · rename_i t ht
    cases h
    exact ⟨t, ht, rfl⟩

theorem insertApiKey_eq_ok {k : ApiKey} (h : db.insertApiKey k = .ok db') :
    ∃ t, db.apiKeys.insert? k = some t ∧
      db'.toAuthTables = { db.toAuthTables with apiKeys := t } := by
  unfold insertApiKey at h
  split_ifs at h
  split at h
  · cases h
  · rename_i t ht
    cases h
    exact ⟨t, ht, rfl⟩

theorem mem_useLoginToken {i : Uuid} {t : LoginToken} :
    t ∈ (db.useLoginToken i).loginTokens ↔
      ∃ a ∈ db.loginTokens, (if a.id == i then { a with used := true } else a) = t :=
  List.mem_map

theorem mem_touchApiKey {i : Uuid} {now : DateTime} {k : ApiKey} :
    k ∈ (db.touchApiKey i now).apiKeys ↔
      ∃ a ∈ db.apiKeys, (if a.id == i then { a with lastUsedAt := some now } else a) = k :=
  List.mem_map

/-- The user of a stored row is found. -/
theorem find?_user {i : Uuid} (h : ∃ u ∈ db.users, u.id = i) :
    ∃ u ∈ db.users, u.id = i ∧ (db.users.find? fun u => u.id == i) = some u := by
  obtain ⟨u, hu, rfl⟩ := h
  refine ⟨u, hu, rfl, Table.find?_eq_some hu (beq_self_eq_true u.id) fun a ha => ?_⟩
  exact .inl (beq_iff_eq.1 ha)

end AuthDatabase

end ArgusSbomGuard
