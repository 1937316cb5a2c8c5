import ArgusSbomGuard.Auth.Keys
import ArgusSbomGuard.Transition.Basic

/-!
# Runs of the operations on codes and keys

The world has the tables of `models/auth.py` and a clock; each action is a request in a transaction
of its own, and a request that raises leaves the tables as they are.  The history of a run says
which codes and keys were created and which keys were revoked, and it determines what is stored:
every stored key is one that was created and not revoked since, and every such key is stored
(`keysRecorded_run`).  So a token is accepted exactly when it is the raw key of such a key, before
its expiry (`apiKey_lifecycle`).

## Main definitions

* `AuthWorld`, `AuthAction`, `authSystem` : the machine of the requests.
* `AuthEvent`, `authEvents` : what a request adds to the history.
* `Unrevoked`, `Revoked` : what the history says of a key.
* `FreshKeys` : no raw key is created twice.
* `KeysRecorded` : the stored keys are those of the history.
-/

namespace ArgusSbomGuard

/-- The tables and the clock. -/
structure AuthWorld where
  db : AuthDatabase
  now : DateTime

/-- The tables after a request, if it has not raised. -/
def AuthWorld.commit {ε : Type} (w : AuthWorld) : Except ε AuthDatabase → AuthWorld
  | .ok db => { w with db }
  | .error _ => w

/-- The expiry of a new key: the default, or one that the caller computes. -/
inductive KeyExpiry
  | default
  | explicit (expiresAt : Option DateTime)

def KeyExpiry.resolve (env : AuthEnv) (now : DateTime) :
    KeyExpiry → Except PyError (Option DateTime)
  | .default => apiKeyDefaultExpiry env now
  | .explicit expiresAt => .ok expiresAt

/-- A request with what its transaction draws, or the passing of time. -/
inductive AuthAction
  | addUser (user : User)
  | createLoginToken (userId : Uuid) (rawCode : String) (newId : Uuid)
  | verifyLoginToken (rawToken email : String)
  | createApiKey (userId : Uuid) (label : String) (expiry : KeyExpiry) (token : String)
      (newId : Uuid)
  | revokeApiKey (keyId : Uuid)
  | authenticateApiKey (rawKey : String) (usedAt : DateTime) (commits : Bool)
  | wait (duration : ℕ)

/-- A key as it was created. -/
structure IssuedKey where
  raw : String
  id : Uuid
  userId : Uuid
  expiresAt : Option DateTime
  deriving DecidableEq

/-- An entry of the history. -/
inductive AuthEvent
  | issuedCode (rawCode : String) (userId : Uuid) (expiresAt : DateTime)
  | createdKey (key : IssuedKey)
  | revokedKey (id : Uuid)
  deriving DecidableEq

variable (env : AuthEnv)

/-- A new key with the expiry that it gets. -/
def issueApiKey (w : AuthWorld) (userId : Uuid) (label : String) (expiry : KeyExpiry)
    (token : String) (newId : Uuid) : Except PyError (AuthDatabase × IssuedKey) := do
  let expiresAt ← expiry.resolve env w.now
  let (db, raw) ← createApiKey env w.db userId label expiresAt token newId
  return (db, ⟨raw, newId, userId, expiresAt⟩)

/-- The next state. -/
def AuthWorld.step (w : AuthWorld) : AuthAction → AuthWorld
  | .addUser user => w.commit (w.db.insertUser user)
  | .createLoginToken userId rawCode newId =>
    w.commit ((createLoginToken env w.db userId rawCode newId w.now).map Prod.fst)
  | .verifyLoginToken rawToken email =>
    w.commit ((verifyLoginToken env w.db rawToken email w.now).map Prod.fst)
  | .createApiKey userId label expiry token newId =>
    w.commit ((issueApiKey env w userId label expiry token newId).map Prod.fst)
  | .revokeApiKey keyId => { w with db := (revokeApiKey w.db keyId).1 }
  | .authenticateApiKey rawKey usedAt commits =>
    { w with db := if commits then (authenticateApiKey env w.db rawKey w.now usedAt).1 else w.db }
  | .wait duration => { w with now := w.now + duration }

/-- The machine of the requests, from an empty database. -/
def authSystem (now : DateTime) : Machine AuthWorld AuthAction where
  init := ⟨.empty, now⟩
  step w a := some (w.step env a)

/-- What a request adds to the history. -/
def authEvents (w : AuthWorld) : AuthAction → List AuthEvent
  | .createLoginToken userId rawCode newId =>
    match createLoginToken env w.db userId rawCode newId w.now with
    | .ok (_, code) => [.issuedCode code userId (w.now + env.loginTokenExpireMinutes * 60000000)]
    | .error _ => []
  | .createApiKey userId label expiry token newId =>
    match issueApiKey env w userId label expiry token newId with
    | .ok (_, key) => [.createdKey key]
    | .error _ => []
  | .revokeApiKey keyId => [.revokedKey keyId]
  | _ => []

/-- The history of a run. -/
def authHistory (now : DateTime) (as : List AuthAction) : List AuthEvent :=
  (authSystem env now).outputs (authEvents env) (authSystem env now).init as

/-! ### What the history says of a key -/

/-- The key was created and not revoked since. -/
def Unrevoked (h : List AuthEvent) (key : IssuedKey) : Prop :=
  ∃ before after, h = before ++ .createdKey key :: after ∧ .revokedKey key.id ∉ after

/-- The key was created and revoked later. -/
def Revoked (h : List AuthEvent) (key : IssuedKey) : Prop :=
  ∃ before after, h = before ++ .createdKey key :: after ∧ .revokedKey key.id ∈ after

/-- The raw key that an event creates. -/
def AuthEvent.rawKey? : AuthEvent → Option String
  | .createdKey key => some key.raw
  | _ => none

/-- No raw key is created twice. -/
def FreshKeys (h : List AuthEvent) : Prop := (h.filterMap AuthEvent.rawKey?).Nodup

instance (h : List AuthEvent) : Decidable (FreshKeys h) :=
  inferInstanceAs (Decidable (List.Nodup _))

variable {env} {h h' : List AuthEvent} {key key' : IssuedKey} {e : AuthEvent}

theorem unrevoked_append_singleton : Unrevoked (h ++ [e]) key ↔
    e = .createdKey key ∨ (Unrevoked h key ∧ e ≠ .revokedKey key.id) := by
  constructor
  · rintro ⟨before, after, heq, hnot⟩
    rcases List.eq_nil_or_concat after with rfl | ⟨after', a, rfl⟩
    · exact .inl (List.singleton_inj.1 (List.append_inj' heq rfl).2)
    · rw [List.concat_eq_append] at heq hnot
      rw [← List.cons_append, ← List.append_assoc] at heq
      obtain ⟨hh, he⟩ := List.append_inj' heq rfl
      obtain rfl := List.singleton_inj.1 he
      rw [List.mem_append, List.mem_singleton, not_or] at hnot
      exact .inr ⟨⟨before, after', hh, hnot.1⟩, Ne.symm hnot.2⟩
  · rintro (rfl | ⟨⟨before, after, rfl, hnot⟩, hne⟩)
    · exact ⟨h, [], rfl, List.not_mem_nil⟩
    · refine ⟨before, after ++ [e], by rw [List.append_assoc, List.cons_append], ?_⟩
      rw [List.mem_append, List.mem_singleton, not_or]
      exact ⟨hnot, Ne.symm hne⟩

theorem mem_of_unrevoked (hk : Unrevoked h key) : .createdKey key ∈ h := by
  obtain ⟨before, after, rfl, -⟩ := hk
  exact List.mem_append_right before List.mem_cons_self

/-- In a history without repeated raw keys, one key was created with a raw key, at one place. -/
theorem FreshKeys.unique (hfresh : FreshKeys h) {before after before' after' : List AuthEvent}
    (heq : h = before ++ .createdKey key :: after)
    (heq' : h = before' ++ .createdKey key' :: after') (hraw : key.raw = key'.raw) :
    key = key' ∧ after = after' := by
  have hsplit : ∀ {b a : List AuthEvent} {k : IssuedKey}, h = b ++ .createdKey k :: a →
      k.raw ∉ a.filterMap AuthEvent.rawKey? := by
    rintro b a k rfl
    rw [FreshKeys, List.filterMap_append, List.nodup_append] at hfresh
    exact (List.nodup_cons.1 hfresh.2.1).1
  have hmem : ∀ {k : IssuedKey} {a : List AuthEvent}, AuthEvent.createdKey k ∈ a →
      k.raw ∈ a.filterMap AuthEvent.rawKey? := fun hk => List.mem_filterMap.2 ⟨_, hk, rfl⟩
  rcases List.append_eq_append_iff.1 (heq.symm.trans heq') with
    ⟨mid, rfl, htail⟩ | ⟨mid, rfl, htail⟩
  · cases mid with
    | nil =>
      obtain ⟨hkey, hafter⟩ := List.cons.inj htail
      exact ⟨AuthEvent.createdKey.inj hkey, hafter⟩
    | cons e mid =>
      obtain ⟨-, rfl⟩ := List.cons.inj htail
      exact absurd (hraw ▸ hmem (List.mem_append_right mid List.mem_cons_self)) (hsplit heq)
  · cases mid with
    | nil =>
      obtain ⟨hkey, hafter⟩ := List.cons.inj htail
      exact ⟨(AuthEvent.createdKey.inj hkey).symm, hafter.symm⟩
    | cons e mid =>
      obtain ⟨-, rfl⟩ := List.cons.inj htail
      exact absurd (hraw ▸ hmem (List.mem_append_right mid List.mem_cons_self)) (hsplit heq')

/-- A key is unrevoked when it was created and is not among the revoked ones. -/
theorem FreshKeys.unrevoked_iff (hfresh : FreshKeys h) :
    Unrevoked h key ↔ .createdKey key ∈ h ∧ ¬ Revoked h key := by
  constructor
  · intro hk
    refine ⟨mem_of_unrevoked hk, ?_⟩
    obtain ⟨before, after, heq, hnot⟩ := hk
    rintro ⟨before', after', heq', hmem⟩
    obtain ⟨-, rfl⟩ := hfresh.unique heq heq' rfl
    exact hnot hmem
  · rintro ⟨hmem, hnot⟩
    obtain ⟨before, after, heq⟩ := List.append_of_mem hmem
    exact ⟨before, after, heq, fun hrev => hnot ⟨before, after, heq, hrev⟩⟩

/-- What is revoked stays revoked. -/
theorem Revoked.append (hk : Revoked h key) : Revoked (h ++ h') key := by
  obtain ⟨before, after, rfl, hmem⟩ := hk
  exact ⟨before, after ++ h', by rw [List.append_assoc, List.cons_append],
    List.mem_append_left h' hmem⟩

/-! ### What is stored of a key -/

variable {w w' : AuthWorld} {now : DateTime} {as : List AuthAction}

variable (env) in
/-- The row says what is stored of the key. -/
def RecordsKey (key : IssuedKey) (k : ApiKey) : Prop :=
  k.id = key.id ∧ k.userId = key.userId ∧ k.expiresAt = key.expiresAt ∧
    k.keyHash = env.hashToken key.raw

variable (env) in
/-- The key is stored. -/
def StoresKey (w : AuthWorld) (key : IssuedKey) : Prop :=
  ∃ k ∈ w.db.apiKeys, RecordsKey env key k

variable (env) in
/-- What a request does to the stored keys, and what it adds to the history. -/
inductive KeyEffect (w w' : AuthWorld) : List AuthEvent → Prop
  | kept (hkeys : ∀ key, StoresKey env w' key ↔ StoresKey env w key) : KeyEffect w w' []
  | issued {rawCode : String} {userId : Uuid} {expiresAt : DateTime}
      (hkeys : ∀ key, StoresKey env w' key ↔ StoresKey env w key) :
      KeyEffect w w' [.issuedCode rawCode userId expiresAt]
  | created {key : IssuedKey} (hargus : "argus_".toList <+: key.raw.toList)
      (hkeys : ∀ key', StoresKey env w' key' ↔ key = key' ∨ StoresKey env w key') :
      KeyEffect w w' [.createdKey key]
  | revoked {keyId : Uuid}
      (hkeys : ∀ key, StoresKey env w' key ↔ StoresKey env w key ∧ keyId ≠ key.id) :
      KeyEffect w w' [.revokedKey keyId]

theorem storesKey_congr (h : w'.db.apiKeys = w.db.apiKeys) (key : IssuedKey) :
    StoresKey env w' key ↔ StoresKey env w key := by
  rw [StoresKey, StoresKey, h]

/-- A request that does not write keys. -/
theorem storesKey_commit {ε : Type} {r : Except ε AuthDatabase}
    (h : ∀ db, r = .ok db → db.apiKeys = w.db.apiKeys) (key : IssuedKey) :
    StoresKey env (w.commit r) key ↔ StoresKey env w key := by
  cases r with
  | error e => rfl
  | ok db => exact storesKey_congr (h db rfl) key

theorem storesKey_touch {i : Uuid} {usedAt : DateTime} {key : IssuedKey} :
    StoresKey env { w with db := w.db.touchApiKey i usedAt } key ↔ StoresKey env w key := by
  -- the use is no part of what is recorded
  have hrec : ∀ a : ApiKey,
      RecordsKey env key (if a.id == i then { a with lastUsedAt := some usedAt } else a) ↔
        RecordsKey env key a := by
    intro a
    split_ifs <;> rfl
  constructor
  · rintro ⟨k, hk, hkey⟩
    obtain ⟨a, ha, rfl⟩ := AuthDatabase.mem_touchApiKey.1 hk
    exact ⟨a, ha, (hrec a).1 hkey⟩
  · rintro ⟨a, ha, hkey⟩
    exact ⟨_, AuthDatabase.mem_touchApiKey.2 ⟨a, ha, rfl⟩, (hrec a).2 hkey⟩

theorem storesKey_authenticate {rawKey : String} {usedAt : DateTime} {commits : Bool}
    {key : IssuedKey} :
    StoresKey env (w.step env (.authenticateApiKey rawKey usedAt commits)) key ↔
      StoresKey env w key := by
  cases commits with
  | false => rfl
  | true =>
    simp only [AuthWorld.step, if_true]
    rcases authenticateApiKey_cases env w.db rawKey w.now usedAt with
      ⟨k, -, -, -, -, u, -, heq⟩ | ⟨-, heq, -⟩
    · rw [heq]
      exact storesKey_touch
    · rw [heq]

theorem issueApiKey_eq_ok {userId newId : Uuid} {label token : String} {expiry : KeyExpiry}
    {db : AuthDatabase} (hinj : Function.Injective env.hashToken)
    (h : issueApiKey env w userId label expiry token newId = .ok (db, key)) :
    "argus_".toList <+: key.raw.toList ∧
      ∀ key', StoresKey env { w with db } key' ↔ key = key' ∨ StoresKey env w key' := by
  obtain ⟨expiresAt, -, h⟩ := bind_eq_ok.1 h
  obtain ⟨⟨db₁, raw⟩, hcreate, h⟩ := bind_eq_ok.1 h
  obtain ⟨rfl, rfl⟩ := Prod.mk.inj (Except.ok.inj h)
  obtain ⟨rfl, t, ht, htables⟩ := createApiKey_eq_ok hcreate
  refine ⟨⟨token.toList, by rw [rawApiKey, String.toList_append]⟩, fun key' => ?_⟩
  have hmem : ∀ k, k ∈ db₁.apiKeys ↔
      k ∈ w.db.apiKeys ∨ k = newApiKey env userId (cutText 255 label) expiresAt token newId := by
    intro k
    rw [htables]
    exact Table.mem_insert? ht
  constructor
  · rintro ⟨k, hk, hid, huser, hexp, hhash⟩
    rcases (hmem k).1 hk with hk | rfl
    · exact .inr ⟨k, hk, hid, huser, hexp, hhash⟩
    · left
      obtain ⟨raw', id', userId', expiresAt'⟩ := key'
      obtain rfl : rawApiKey token = raw' := hinj hhash
      cases hid
      cases huser
      cases hexp
      rfl
  · rintro (rfl | ⟨k, hk, hrec⟩)
    · exact ⟨_, (hmem _).2 (.inr rfl), rfl, rfl, rfl, rfl⟩
    · exact ⟨k, (hmem k).2 (.inl hk), hrec⟩

/-- **What each request does.** -/
theorem keyEffect_step (hinj : Function.Injective env.hashToken) (a : AuthAction) :
    KeyEffect env w (w.step env a) (authEvents env w a) := by
  cases a with
  | addUser user =>
    refine .kept (storesKey_commit fun db hdb => ?_)
    obtain ⟨t, -, htables⟩ := AuthDatabase.insertUser_eq_ok hdb
    rw [htables]
  | createLoginToken userId rawCode newId =>
    have hkeys : ∀ key, StoresKey env
        (w.step env (.createLoginToken userId rawCode newId)) key ↔ StoresKey env w key := by
      refine storesKey_commit fun db hdb => ?_
      obtain ⟨⟨db', code⟩, hcreate, rfl⟩ := map_eq_ok.1 hdb
      obtain ⟨-, t, -, htables⟩ := createLoginToken_eq_ok hcreate
      rw [htables]
    simp only [authEvents]
    split
    · exact .issued hkeys
    · exact .kept hkeys
  | verifyLoginToken rawToken email =>
    refine .kept (storesKey_commit fun db hdb => ?_)
    obtain ⟨⟨db', user⟩, hverify, rfl⟩ := map_eq_ok.1 hdb
    rcases verifyLoginToken_eq_ok hverify with ⟨-, rfl⟩ | ⟨t, -, -, rfl, -⟩
    · rfl
    · rfl
  | createApiKey userId label expiry token newId =>
    simp only [authEvents, AuthWorld.step]
    cases h : issueApiKey env w userId label expiry token newId with
    | error e => exact .kept fun key => Iff.rfl
    | ok r =>
      obtain ⟨hargus, hkeys⟩ := issueApiKey_eq_ok hinj h
      exact .created hargus hkeys
  | revokeApiKey keyId =>
    refine .revoked fun key => ?_
    constructor
    · rintro ⟨k, hk, hrec⟩
      obtain ⟨hk, hne⟩ := mem_revokeApiKey.1 hk
      exact ⟨⟨k, hk, hrec⟩, fun heq => hne (hrec.1.trans heq.symm)⟩
    · rintro ⟨⟨k, hk, hrec⟩, hne⟩
      exact ⟨k, mem_revokeApiKey.2 ⟨hk, fun heq => hne (heq.symm.trans hrec.1)⟩, hrec⟩
  | authenticateApiKey rawKey usedAt commits => exact .kept fun key => storesKey_authenticate
  | wait duration => exact .kept fun key => Iff.rfl

variable (env) in
/-- The stored keys are those that were created and not revoked since. -/
structure KeysRecorded (h : List AuthEvent) (w : AuthWorld) : Prop where
  stored : ∀ key, StoresKey env w key ↔ Unrevoked h key
  prefixed : ∀ key, .createdKey key ∈ h → "argus_".toList <+: key.raw.toList

theorem keysRecorded_step (hinj : Function.Injective env.hashToken) (hw : KeysRecorded env h w)
    (a : AuthAction) : KeysRecorded env (h ++ authEvents env w a) (w.step env a) := by
  have hmem : ∀ {e : AuthEvent}, (∀ key, e = .createdKey key → "argus_".toList <+: key.raw.toList) →
      ∀ key, .createdKey key ∈ h ++ [e] → "argus_".toList <+: key.raw.toList := by
    intro e he key hkey
    rcases List.mem_append.1 hkey with hkey | hkey
    · exact hw.prefixed key hkey
    · exact he key (List.mem_singleton.1 hkey).symm
  have heffect := keyEffect_step (w := w) hinj a
  generalize authEvents env w a = es at heffect ⊢
  cases heffect with
  | kept hkeys =>
    rw [List.append_nil]
    exact ⟨fun key => (hkeys key).trans (hw.stored key), hw.prefixed⟩
  | issued hkeys =>
    refine ⟨fun key => ?_, hmem fun key => by rintro ⟨⟩⟩
    rw [hkeys, hw.stored, unrevoked_append_singleton]
    simp
  | @created key₀ hargus hkeys =>
    refine ⟨fun key => ?_, hmem fun key heq => AuthEvent.createdKey.inj heq ▸ hargus⟩
    rw [hkeys, hw.stored, unrevoked_append_singleton]
    simp
  | revoked hkeys =>
    refine ⟨fun key => ?_, hmem fun key => by rintro ⟨⟩⟩
    rw [hkeys, hw.stored, unrevoked_append_singleton]
    simp

/-- **The stored keys after a run are those of its history.** -/
theorem keysRecorded_run (hinj : Function.Injective env.hashToken)
    (hrun : (authSystem env now).run (authSystem env now).init as = some w) :
    KeysRecorded env (authHistory env now as) w := by
  refine Machine.run_outputs (M := authSystem env now) (f := authEvents env) (h := [])
    (I := KeysRecorded env) ?_ ?_ hrun
  · intro h s a s' hs hst
    obtain rfl := Option.some.inj hst
    exact keysRecorded_step hinj hs a
  · refine ⟨fun key => iff_of_false ?_ ?_, fun key hkey => absurd hkey List.not_mem_nil⟩
    · rintro ⟨k, hk, -⟩
      exact Table.not_mem_empty k hk
    · exact fun hk => List.not_mem_nil (mem_of_unrevoked hk)

/-! ### The keys that are accepted -/

/-- The clock does not go back. -/
theorem now_le_run {as : List AuthAction}
    (hrun : (authSystem env now).run w as = some w') : w.now ≤ w'.now := by
  refine Machine.le_of_run (P := fun _ _ => True) (I := fun _ => True) (f := AuthWorld.now)
    (fun _ _ _ _ _ => trivial) ?_ trivial (Machine.allowed_true as w) hrun
  rintro s a s' - - hst
  obtain rfl := Option.some.inj hst
  cases a with
  | wait duration => exact Int.le_add_of_nonneg_right (Int.natCast_nonneg duration)
  | addUser user => simp only [AuthWorld.step, AuthWorld.commit]; split <;> rfl
  | createLoginToken => simp only [AuthWorld.step, AuthWorld.commit]; split <;> rfl
  | verifyLoginToken => simp only [AuthWorld.step, AuthWorld.commit]; split <;> rfl
  | createApiKey => simp only [AuthWorld.step, AuthWorld.commit]; split <;> rfl
  | revokeApiKey => exact Int.le_refl _
  | authenticateApiKey => exact Int.le_refl _

theorem expiryPassed_mono {now now' : DateTime} {expiresAt : Option DateTime} (hle : now ≤ now')
    (h : expiryPassed now expiresAt = true) : expiryPassed now' expiresAt = true := by
  cases expiresAt with
  | none => exact h
  | some t => exact decide_eq_true (le_trans (of_decide_eq_true h) hle)

/-- A token is accepted when it is the raw key of one that was created, not revoked and has not
expired. -/
theorem accepted_iff (hw : KeysRecorded env h w) (hfresh : FreshKeys h) {rawKey : String}
    {usedAt : DateTime} :
    (authenticateApiKey env w.db rawKey w.now usedAt).2.valid = true ↔
      ∃ key, .createdKey key ∈ h ∧ key.raw = rawKey ∧ ¬ Revoked h key ∧
        expiryPassed w.now key.expiresAt = false := by
  rw [valid_authenticateApiKey]
  constructor
  · rintro ⟨k, hk, -, hhash, hexp⟩
    have hstored : StoresKey env w ⟨rawKey, k.id, k.userId, k.expiresAt⟩ :=
      ⟨k, hk, rfl, rfl, rfl, hhash⟩
    obtain ⟨hmem, hnot⟩ := hfresh.unrevoked_iff.1 ((hw.stored _).1 hstored)
    exact ⟨_, hmem, rfl, hnot, hexp⟩
  · rintro ⟨key, hmem, rfl, hnot, hexp⟩
    obtain ⟨k, hk, -, -, hkexp, hhash⟩ := (hw.stored key).2 (hfresh.unrevoked_iff.2 ⟨hmem, hnot⟩)
    exact ⟨k, hk, hw.prefixed key hmem, hhash, by rw [hkexp, hexp]⟩

/-- **The lifecycle of API keys.**  After every run a token is accepted exactly when it is the raw
key of a key that was created, not revoked and has not expired; a rejected attempt changes nothing;
and a key that was revoked or has expired is not accepted after any longer run. -/
theorem apiKey_lifecycle (hinj : Function.Injective env.hashToken) {as later : List AuthAction}
    (hrun : (authSystem env now).run (authSystem env now).init as = some w)
    (hlater : (authSystem env now).run w later = some w')
    (hfresh : FreshKeys (authHistory env now (as ++ later))) (rawKey : String)
    (usedAt : DateTime) :
    ((authenticateApiKey env w.db rawKey w.now usedAt).2.valid = true ↔
      ∃ key, .createdKey key ∈ authHistory env now as ∧ key.raw = rawKey ∧
        ¬ Revoked (authHistory env now as) key ∧ expiryPassed w.now key.expiresAt = false) ∧
    ((authenticateApiKey env w.db rawKey w.now usedAt).2.valid = false →
      (authenticateApiKey env w.db rawKey w.now usedAt).1 = w.db) ∧
    ∀ key, .createdKey key ∈ authHistory env now as → key.raw = rawKey →
      Revoked (authHistory env now as) key ∨ expiryPassed w.now key.expiresAt = true →
        (authenticateApiKey env w'.db rawKey w'.now usedAt).2.valid = false := by
  have hrun' : (authSystem env now).run (authSystem env now).init (as ++ later) = some w' := by
    rw [Machine.run_append hrun, hlater]
  have hhistory : authHistory env now (as ++ later) =
      authHistory env now as ++ (authSystem env now).outputs (authEvents env) w later :=
    Machine.outputs_append hrun
  have hfresh' : FreshKeys (authHistory env now as) := by
    rw [hhistory, FreshKeys, List.filterMap_append] at hfresh
    exact (List.nodup_append.1 hfresh).1
  refine ⟨accepted_iff (keysRecorded_run hinj hrun) hfresh', fun hvalid => ?_, ?_⟩
  · rcases authenticateApiKey_cases env w.db rawKey w.now usedAt with
      ⟨k, -, -, -, -, u, -, heq⟩ | ⟨-, heq, -⟩
    · rw [heq] at hvalid
      cases hvalid
    · exact heq
  · rintro key hmem rfl hover
    refine Bool.eq_false_iff.2 fun hvalid => ?_
    obtain ⟨key', hmem', hraw, hnot, hexp⟩ :=
      (accepted_iff (keysRecorded_run hinj hrun') hfresh).1 hvalid
    -- the accepted key is the one that was created before
    have hlong : .createdKey key ∈ authHistory env now (as ++ later) := by
      rw [hhistory]
      exact List.mem_append_left _ hmem
    obtain ⟨before, after, heq⟩ := List.append_of_mem hlong
    obtain ⟨before', after', heq'⟩ := List.append_of_mem hmem'
    obtain ⟨rfl, -⟩ := hfresh.unique heq heq' hraw.symm
    rcases hover with hrev | hpassed
    · exact hnot (hhistory ▸ hrev.append)
    · rw [expiryPassed_mono (now_le_run hlater) hpassed] at hexp
      cases hexp

/-- The settings of the demonstration, with the secret itself in place of its hash. -/
def demoAuthEnv : AuthEnv where
  hashToken := id
  lower := PyStr.lower
  loginTokenExpireMinutes := 15
  apiKeyTtlDays := some 90

/-- A key without expiry and one with the default expiry, the first of which is revoked. -/
def demoKeys : List AuthAction :=
  [.addUser ⟨1, "admin@argus.local", true⟩, .createApiKey 1 "first" (.explicit none) "a" 10,
    .createApiKey 1 "second" .default "b" 11, .revokeApiKey 10]

/-- Ninety days pass. -/
def demoWait : List AuthAction := [.wait 7776000000000]

/-- Noon of the first day of the calendar. -/
def demoNoon : DateTime := 129600000000

theorem demoKeys_isSome : ((authSystem demoAuthEnv demoNoon).run
    (authSystem demoAuthEnv demoNoon).init demoKeys).isSome := by decide +kernel

theorem demoWait_isSome : ((authSystem demoAuthEnv demoNoon).run
    ((authSystem demoAuthEnv demoNoon).after demoKeys demoKeys_isSome) demoWait).isSome := by
  decide +kernel

/-- The second key is accepted after the run, and the first one is not, however long one waits. -/
theorem apiKey_lifecycle_demo :
    let w := (authSystem demoAuthEnv demoNoon).after demoKeys demoKeys_isSome
    let w' := (((authSystem demoAuthEnv demoNoon).run w demoWait).get demoWait_isSome)
    (authenticateApiKey demoAuthEnv w.db "argus_b" w.now w.now).2.valid = true ∧
      (∃ key, .createdKey key ∈ authHistory demoAuthEnv demoNoon demoKeys ∧ key.raw = "argus_b" ∧
        ¬ Revoked (authHistory demoAuthEnv demoNoon demoKeys) key ∧
        expiryPassed w.now key.expiresAt = false) ∧
      (authenticateApiKey demoAuthEnv w'.db "argus_a" w'.now w.now).2.valid = false := by
  intro w w'
  have hfresh : FreshKeys (authHistory demoAuthEnv demoNoon (demoKeys ++ demoWait)) := by
    decide +kernel
  have hlife := apiKey_lifecycle Function.injective_id (Option.some_get demoKeys_isSome).symm
    (Option.some_get demoWait_isSome).symm hfresh
  have hvalid : (authenticateApiKey demoAuthEnv w.db "argus_b" w.now w.now).2.valid = true := by
    decide +kernel
  have hrevoked : Revoked (authHistory demoAuthEnv demoNoon demoKeys) ⟨"argus_a", 10, 1, none⟩ :=
    ⟨[], [.createdKey ⟨"argus_b", 11, 1, some (demoNoon + 7776000000000)⟩, .revokedKey 10],
      by decide +kernel, by decide⟩
  refine ⟨hvalid, (hlife "argus_b" w.now).1.1 hvalid, ?_⟩
  exact (hlife "argus_a" w.now).2.2 _ (by decide +kernel) rfl (.inl hrevoked)

end ArgusSbomGuard
