import ArgusSbomGuard.Auth.World
import ArgusSbomGuard.Transition.Concurrent

/-!
# Concurrent verifications of a login code

`verify_login_token` as a routine: read the token, check it, mark it as used, read its user, and
commit with the request.  Two updates of one row wait for each other, but the second one does not
look at the flag again: when both calls read before either marks, both return the user
(`code_redeemed_twice`).  In the runs in which no call marks a token that another one has used since
it was read, a code is redeemed once (`loginToken_once`).

## Main definitions

* `LoginStore`, `LoginWrite` : the tables with the answers given so far, and what a call writes.
* `verifyRoutine`, `verifications` : the steps of a call, and any number of calls with one code.
* `MarksUnused`, `CodeOnce` : the condition on a move.
-/

namespace ArgusSbomGuard

/-- A call of `verify_login_token`, with what its clock says. -/
structure VerifyCall where
  email : String
  now : DateTime

/-- The tables, and the users that calls have returned. -/
structure LoginStore (ι : Type) where
  db : AuthDatabase
  answers : List (ι × User)

/-- A write of a call; its answer counts when its transaction commits. -/
inductive LoginWrite (ι : Type)
  | use (tokenId : Uuid)
  | answer (call : ι) (user : User)

/-- The next step of `verify_login_token`. -/
inductive VerifyPc
  | lookup
  | check (found : Option LoginToken)
  | mark (t : LoginToken)
  | fetch (t : LoginToken)
  | commit

variable {ι : Type}

def LoginStore.write (s : LoginStore ι) : LoginWrite ι → LoginStore ι
  | .use tokenId => { s with db := s.db.useLoginToken tokenId }
  | .answer call user => { s with answers := s.answers ++ [(call, user)] }

/-- Two updates of the same token. -/
def LoginWrite.Conflict : LoginWrite ι → LoginWrite ι → Prop
  | .use i, .use j => i = j
  | _, _ => False

instance : DecidableRel (LoginWrite.Conflict (ι := ι))
  | .use i, .use j => inferInstanceAs (Decidable (i = j))
  | .use _, .answer _ _ => .isFalse id
  | .answer _ _, .use _ => .isFalse id
  | .answer _ _, .answer _ _ => .isFalse id

theorem LoginWrite.Conflict.symm {w w' : LoginWrite ι} (h : w.Conflict w') : w'.Conflict w := by
  cases w <;> cases w' <;> first | exact Eq.symm h | exact h

section

variable (env : AuthEnv) (rawToken : String)

/-- One step of `verify_login_token` on what its transaction sees. -/
def verifyRoutine (i : ι) (call : VerifyCall) :
    VerifyPc → LoginStore ι → Outcome (LoginWrite ι) VerifyPc
  | .lookup, s => match lookupLoginToken env s.db rawToken call.email call.now with
    | .ok found => .next [] (.check found)
    | .error _ => .rollback
  | .check none, _ => .next [] .commit
  | .check (some t), _ => .next [] (.mark t)
  | .mark t, _ => .next [.use t.id] (.fetch t)
  | .fetch t, s => match getUserById s.db t.userId with
    | some user => .next [.answer i user] .commit
    | none => .next [] .commit
  | .commit, _ => .commit

/-- Calls with one code on a shared database. -/
def verifications (calls : ι → VerifyCall) :
    Transactions ι (LoginStore ι) (LoginWrite ι) VerifyPc where
  write := LoginStore.write
  routine i := verifyRoutine env rawToken i (calls i)
  Conflict := LoginWrite.Conflict
  decConflict := inferInstance

/-- The machine in which all calls begin. -/
def verificationMachine [DecidableEq ι] [Fintype ι] (calls : ι → VerifyCall) (db : AuthDatabase) :
    Machine (Shared ι (LoginStore ι) (LoginWrite ι) VerifyPc) (Move ι) :=
  (verifications env rawToken calls).machine ⟨db, []⟩ fun _ => .lookup

/-! ### One call alone -/

/-- The store after a call that has returned `user`. -/
def answered (i : ι) (s : LoginStore ι) (db : AuthDatabase) (user : Option User) : LoginStore ι :=
  ⟨db, s.answers ++ (user.map fun u => (i, u)).toList⟩

/-- What the rest of a call commits when nobody disturbs it. -/
def verifyRest (i : ι) (call : VerifyCall) : VerifyPc → LoginStore ι → Option (LoginStore ι)
  | .lookup, s => match verifyLoginToken env s.db rawToken call.email call.now with
    | .ok (db, user) => some (answered i s db user)
    | .error _ => none
  | .check none, s => some s
  | .check (some t), s => some (answered i s (s.db.useLoginToken t.id)
      (getUserById (s.db.useLoginToken t.id) t.userId))
  | .mark t, s => some (answered i s (s.db.useLoginToken t.id)
      (getUserById (s.db.useLoginToken t.id) t.userId))
  | .fetch t, s => some (answered i s s.db (getUserById s.db t.userId))
  | .commit, s => some s

end

variable {env : AuthEnv} {rawToken : String}

theorem answered_none {i : ι} {s : LoginStore ι} : answered i s s.db none = s := by
  simp only [answered, Option.map_none, Option.toList_none, List.append_nil]

/-- **Undisturbed, the routine commits what `verify_login_token` computes.** -/
theorem verifyRest_evaluates (i : ι) (call : VerifyCall) :
    Evaluates LoginStore.write (verifyRoutine env rawToken i call)
      (verifyRest env rawToken i call) := by
  intro pc s
  cases pc with
  | lookup =>
    simp only [verifyRoutine, verifyRest, verifyLoginToken]
    cases lookupLoginToken env s.db rawToken call.email call.now with
    | error e => rfl
    | ok found =>
      cases found with
      | none => exact congrArg some answered_none
      | some t => rfl
  | check found => cases found <;> rfl
  | mark t => rfl
  | fetch t =>
    simp only [verifyRoutine, verifyRest]
    cases getUserById s.db t.userId with
    | none => exact congrArg some answered_none
    | some user => rfl
  | commit => rfl

/-! ### The condition on a move -/

/-- The token that the next step of a call marks. -/
def marking : Status VerifyPc → Option LoginToken
  | .running (.mark t) => some t
  | _ => none

/-- The token is not used yet. -/
def Unused (db : AuthDatabase) (tokenId : Uuid) : Prop :=
  ∀ r ∈ db.loginTokens, r.id = tokenId → r.used = false

instance (db : AuthDatabase) (tokenId : Uuid) : Decidable (Unused db tokenId) :=
  inferInstanceAs (Decidable (∀ r ∈ db.loginTokens, _))

/-- At most one stored token has the code. -/
def CodeOnce (env : AuthEnv) (rawToken : String) (db : AuthDatabase) : Prop :=
  ∀ t ∈ db.loginTokens, ∀ t' ∈ db.loginTokens, t.tokenHash = env.hashToken rawToken →
    t'.tokenHash = env.hashToken rawToken → t = t'

instance (db : AuthDatabase) : Decidable (CodeOnce env rawToken db) :=
  inferInstanceAs (Decidable (∀ t ∈ db.loginTokens, ∀ t' ∈ db.loginTokens, _))

/-- At most one stored token has the code, and a call that marks a token marks one that is still
unused. -/
def MarksUnused (env : AuthEnv) (rawToken : String)
    (s : Shared ι (LoginStore ι) (LoginWrite ι) VerifyPc) : Move ι → Prop
  | .step i => CodeOnce env rawToken s.store.db ∧
      ∀ t, marking (s.txns i).status = some t → Unused s.store.db t.id
  | .abort _ => True

instance (s : Shared ι (LoginStore ι) (LoginWrite ι) VerifyPc) (m : Move ι) :
    Decidable (MarksUnused env rawToken s m) :=
  match m with
  | .step i => inferInstanceAs (Decidable (_ ∧ ∀ t, marking (s.txns i).status = some t → _))
  | .abort _ => .isTrue trivial

/-! ### Where the tokens come from -/

/-- Every stored token was issued. -/
def TokensIssued (env : AuthEnv) (h : List AuthEvent) (db : AuthDatabase) : Prop :=
  ∀ t ∈ db.loginTokens, ∃ code, .issuedCode code t.userId t.expiresAt ∈ h ∧
    t.tokenHash = env.hashToken code

variable {h h' : List AuthEvent} {db db' : AuthDatabase}

theorem TokensIssued.append (hdb : TokensIssued env h db) : TokensIssued env (h ++ h') db := by
  intro t ht
  obtain ⟨code, hmem, hhash⟩ := hdb t ht
  exact ⟨code, List.mem_append_left h' hmem, hhash⟩

theorem TokensIssued.use (hdb : TokensIssued env h db) (tokenId : Uuid) :
    TokensIssued env h (db.useLoginToken tokenId) := by
  intro t ht
  obtain ⟨a, ha, rfl⟩ := AuthDatabase.mem_useLoginToken.1 ht
  obtain ⟨code, hmem, hhash⟩ := hdb a ha
  refine ⟨code, ?_, ?_⟩
  · split_ifs <;> exact hmem
  · split_ifs <;> exact hhash

theorem TokensIssued.congr (hdb : TokensIssued env h db)
    (heq : db'.loginTokens = db.loginTokens) : TokensIssued env h db' := by
  rw [TokensIssued, heq]
  exact hdb

/-- A request whose outcome keeps the tokens issued. -/
theorem TokensIssued.commit {ε : Type} {w : AuthWorld} {r : Except ε AuthDatabase}
    (hdb : TokensIssued env h w.db) (hr : ∀ db, r = .ok db → TokensIssued env h db) :
    TokensIssued env h (w.commit r).db := by
  cases r with
  | error e => exact hdb
  | ok db => exact hr db rfl

theorem tokensIssued_step {w : AuthWorld} (hdb : TokensIssued env h w.db) (a : AuthAction) :
    TokensIssued env (h ++ authEvents env w a) (w.step env a).db := by
  cases a with
  | addUser user =>
    refine hdb.append.commit fun db hins => ?_
    obtain ⟨t, -, htables⟩ := AuthDatabase.insertUser_eq_ok hins
    exact hdb.append.congr (by rw [htables])
  | createLoginToken userId rawCode newId =>
    simp only [authEvents, AuthWorld.step]
    cases hcreate : createLoginToken env w.db userId rawCode newId w.now with
    | error e => exact hdb.append
    | ok r =>
      obtain ⟨db, code⟩ := r
      obtain ⟨rfl, table, htable, htables⟩ := createLoginToken_eq_ok hcreate
      intro t ht
      change t ∈ db.loginTokens at ht
      rw [htables] at ht
      rcases (Table.mem_insert? htable).1 ht with ht | rfl
      · exact hdb.append t ht
      · exact ⟨code, List.mem_append_right h List.mem_cons_self, rfl⟩
  | verifyLoginToken raw email =>
    refine hdb.append.commit fun db hr => ?_
    obtain ⟨⟨db', user⟩, hverify, rfl⟩ := map_eq_ok.1 hr
    rcases verifyLoginToken_eq_ok hverify with ⟨-, rfl⟩ | ⟨t, -, -, rfl, -⟩
    · exact hdb.append
    · exact hdb.append.use t.id
  | createApiKey userId label expiry token newId =>
    refine hdb.append.commit fun db hr => ?_
    obtain ⟨⟨db', key⟩, hissue, rfl⟩ := map_eq_ok.1 hr
    obtain ⟨expiresAt, -, hrest⟩ := bind_eq_ok.1 hissue
    obtain ⟨⟨db₁, raw⟩, hcreate, hrest⟩ := bind_eq_ok.1 hrest
    obtain ⟨-, t, -, htables⟩ := createApiKey_eq_ok hcreate
    cases hrest
    exact hdb.append.congr (by rw [htables])
  | revokeApiKey keyId =>
    refine hdb.append.congr ?_
    simp only [AuthWorld.step, revokeApiKey]
    split <;> rfl
  | authenticateApiKey rawKey usedAt commits =>
    refine hdb.append.congr ?_
    rcases authenticateApiKey_cases env w.db rawKey w.now usedAt with
      ⟨k, -, -, -, -, u, -, heq⟩ | ⟨-, heq, -⟩
    · cases commits with
      | false => rfl
      | true => simp only [AuthWorld.step, heq, if_true]; rfl
    · cases commits with
      | false => rfl
      | true => simp only [AuthWorld.step, heq, if_true]
  | wait duration => exact hdb.append

theorem tokensIssued_run {now : DateTime} {as : List AuthAction} {w : AuthWorld}
    (hrun : (authSystem env now).run (authSystem env now).init as = some w) :
    TokensIssued env (authHistory env now as) w.db := by
  refine Machine.run_outputs (M := authSystem env now) (f := authEvents env) (h := [])
    (I := fun h w => TokensIssued env h w.db) ?_ ?_ hrun
  · intro h s a s' hs hst
    obtain rfl := Option.some.inj hst
    exact tokensIssued_step hs a
  · exact fun t ht => absurd ht (Table.not_mem_empty t)

/-! ### What a call has found -/

/-- The code was issued for the user, and has not expired when the call looks. -/
def IssuedFor (rawToken : String) (h : List AuthEvent) (call : VerifyCall) (userId : Uuid) : Prop :=
  ∃ expiresAt, .issuedCode rawToken userId expiresAt ∈ h ∧ call.now < expiresAt

/-- A call may redeem the token: it is stored with the code, and issued. -/
structure Finds (env : AuthEnv) (rawToken : String) (h : List AuthEvent) (call : VerifyCall)
    (db : AuthDatabase) (t : LoginToken) : Prop where
  issued : IssuedFor rawToken h call t.userId
  held : ∃ r ∈ db.loginTokens, r.id = t.id ∧ r.tokenHash = env.hashToken rawToken

variable {call : VerifyCall} {t : LoginToken}

/-- The code was issued with no other text of the same hash. -/
def HashApart (env : AuthEnv) (rawToken : String) (h : List AuthEvent) : Prop :=
  ∀ code userId expiresAt, .issuedCode code userId expiresAt ∈ h →
    env.hashToken code = env.hashToken rawToken → code = rawToken

theorem finds_of_lookup (hdb : TokensIssued env h db) (hapart : HashApart env rawToken h)
    (hlookup : lookupLoginToken env db rawToken call.email call.now = .ok (some t)) :
    Finds env rawToken h call db t := by
  obtain ⟨ht, hred⟩ := lookupLoginToken_eq_some hlookup
  obtain ⟨hhash, -, hexp, -⟩ := redeemable_iff.1 hred
  obtain ⟨code, hmem, hcode⟩ := hdb t ht
  obtain rfl := hapart code t.userId t.expiresAt hmem (hcode.symm.trans hhash)
  exact ⟨⟨t.expiresAt, hmem, hexp⟩, t, ht, rfl, hhash⟩

theorem Finds.use (hf : Finds env rawToken h call db t) (tokenId : Uuid) :
    Finds env rawToken h call (db.useLoginToken tokenId) t := by
  obtain ⟨r, hr, hid, hhash⟩ := hf.held
  refine ⟨hf.issued, _, AuthDatabase.mem_useLoginToken.2 ⟨r, hr, rfl⟩, ?_, ?_⟩
  · split_ifs <;> exact hid
  · split_ifs <;> exact hhash

/-- Another token stays unused. -/
theorem Unused.use {tokenId : Uuid} (hu : Unused db t.id) (hne : t.id ≠ tokenId) :
    Unused (db.useLoginToken tokenId) t.id := by
  intro r hr hid
  obtain ⟨a, ha, rfl⟩ := AuthDatabase.mem_useLoginToken.1 hr
  by_cases hat : a.id = tokenId
  · rw [if_pos (beq_iff_eq.2 hat)] at hid
    exact absurd (hid.symm.trans hat) hne
  · rw [if_neg (by rwa [beq_iff_eq])] at hid ⊢
    exact hu a ha hid

variable (env rawToken h) in
/-- How far a call is, what it has written, and what it knows. -/
inductive VerifyProgress (i : ι) (call : VerifyCall) (db : AuthDatabase) :
    Txn (LoginWrite ι) VerifyPc → Prop
  | lookup : VerifyProgress i call db ⟨[], .running .lookup⟩
  | check {found : Option LoginToken}
      (hfinds : ∀ t, found = some t → Finds env rawToken h call db t) :
      VerifyProgress i call db ⟨[], .running (.check found)⟩
  | mark {t : LoginToken} (hfinds : Finds env rawToken h call db t) :
      VerifyProgress i call db ⟨[], .running (.mark t)⟩
  | fetch {t : LoginToken} (hfinds : Finds env rawToken h call db t) (hunused : Unused db t.id) :
      VerifyProgress i call db ⟨[.use t.id], .running (.fetch t)⟩
  | marked {t : LoginToken} (hfinds : Finds env rawToken h call db t) (hunused : Unused db t.id) :
      VerifyProgress i call db ⟨[.use t.id], .running .commit⟩
  | answered {t : LoginToken} {user : User} (hfinds : Finds env rawToken h call db t)
      (hunused : Unused db t.id) (huser : user.id = t.userId) :
      VerifyProgress i call db ⟨[.use t.id, .answer i user], .running .commit⟩
  | nothing : VerifyProgress i call db ⟨[], .running .commit⟩
  | ended {status : Status VerifyPc} (hended : status.pc? = none) :
      VerifyProgress i call db ⟨[], status⟩

variable {i : ι} {txn : Txn (LoginWrite ι) VerifyPc}

/-- A token that is marked by another call is none that this one has marked. -/
theorem VerifyProgress.use (hp : VerifyProgress env rawToken h i call db txn) {tokenId : Uuid}
    (hne : .use tokenId ∉ txn.pending) :
    VerifyProgress env rawToken h i call (db.useLoginToken tokenId) txn := by
  cases hp with
  | lookup => exact .lookup
  | check hfinds => exact .check fun t ht => (hfinds t ht).use tokenId
  | mark hfinds => exact .mark (hfinds.use tokenId)
  | @fetch t hfinds hunused =>
    have hid : t.id ≠ tokenId := fun heq => hne (heq ▸ List.mem_cons_self)
    exact .fetch (hfinds.use tokenId) (hunused.use hid)
  | @marked t hfinds hunused =>
    have hid : t.id ≠ tokenId := fun heq => hne (heq ▸ List.mem_cons_self)
    exact .marked (hfinds.use tokenId) (hunused.use hid)
  | @answered t user hfinds hunused huser =>
    have hid : t.id ≠ tokenId := fun heq => hne (heq ▸ List.mem_cons_self)
    exact .answered (hfinds.use tokenId) (hunused.use hid) huser
  | nothing => exact .nothing
  | ended hended => exact .ended hended

/-- A step in which a call goes on. -/
theorem VerifyProgress.next {p ws : List (LoginWrite ι)} {pc pc' : VerifyPc} {s : LoginStore ι}
    (hdb : TokensIssued env h s.db) (hapart : HashApart env rawToken h)
    (hp : VerifyProgress env rawToken h i call s.db ⟨p, .running pc⟩)
    (hmark : ∀ t, marking (.running pc) = some t → Unused s.db t.id)
    (hout : verifyRoutine env rawToken i call pc (p.foldl LoginStore.write s) = .next ws pc') :
    VerifyProgress env rawToken h i call s.db ⟨p ++ ws, .running pc'⟩ := by
  cases hp with
  | lookup =>
    simp only [verifyRoutine, List.foldl_nil] at hout
    split at hout
    · rename_i found hlookup
      cases hout
      refine .check fun t ht => finds_of_lookup hdb hapart ?_
      rw [hlookup, ht]
    · cases hout
  | @check found hfinds =>
    cases found with
    | none => cases hout; exact .nothing
    | some t => cases hout; exact .mark (hfinds t rfl)
  | @mark t hfinds => cases hout; exact .fetch hfinds (hmark t rfl)
  | @fetch t hfinds hunused =>
    simp only [verifyRoutine] at hout
    split at hout
    · rename_i user huser
      cases hout
      exact .answered hfinds hunused (id_of_getUserById huser)
    · cases hout
      exact .marked hfinds hunused
  | marked => cases hout
  | answered => cases hout
  | nothing => cases hout
  | ended hended => cases hended

/-- A call commits nothing, or the mark of a token that was unused, with an answer or without. -/
theorem VerifyProgress.commit {p : List (LoginWrite ι)} {pc : VerifyPc} {s : LoginStore ι}
    (hp : VerifyProgress env rawToken h i call db ⟨p, .running pc⟩)
    (hout : verifyRoutine env rawToken i call pc s = .commit) :
    p = [] ∨ ∃ t, Finds env rawToken h call db t ∧ Unused db t.id ∧
      (p = [.use t.id] ∨ ∃ user : User, user.id = t.userId ∧ p = [.use t.id, .answer i user]) := by
  cases hp with
  | lookup =>
    simp only [verifyRoutine] at hout
    split at hout <;> cases hout
  | check => exact .inl rfl
  | mark => exact .inl rfl
  | fetch =>
    simp only [verifyRoutine] at hout
    split at hout <;> cases hout
  | marked hfinds hunused => exact .inr ⟨_, hfinds, hunused, .inl rfl⟩
  | answered hfinds hunused huser => exact .inr ⟨_, hfinds, hunused, .inr ⟨_, huser, rfl⟩⟩
  | nothing => exact .inl rfl
  | ended hended => cases hended

/-! ### One answer -/

/-- The tokens with the code are used. -/
def CodeUsed (env : AuthEnv) (rawToken : String) (db : AuthDatabase) : Prop :=
  ∀ r ∈ db.loginTokens, r.tokenHash = env.hashToken rawToken → r.used = true

/-- The only token with the code is marked. -/
theorem codeUsed_use (honce : CodeOnce env rawToken db)
    (hheld : ∃ r ∈ db.loginTokens, r.id = t.id ∧ r.tokenHash = env.hashToken rawToken) :
    CodeUsed env rawToken (db.useLoginToken t.id) := by
  intro r hr hhash
  obtain ⟨a, ha, rfl⟩ := AuthDatabase.mem_useLoginToken.1 hr
  obtain ⟨b, hb, hid, hbhash⟩ := hheld
  have hahash : a.tokenHash = env.hashToken rawToken := by
    split_ifs at hhash <;> exact hhash
  obtain rfl := honce a ha b hb hahash hbhash
  rw [if_pos (beq_iff_eq.2 hid)]

theorem not_unused_of_codeUsed (hf : Finds env rawToken h call db t)
    (hused : CodeUsed env rawToken db) : ¬ Unused db t.id := by
  intro hu
  obtain ⟨r, hr, hid, hhash⟩ := hf.held
  exact Bool.false_ne_true ((hu r hr hid).symm.trans (hused r hr hhash))

/-- What holds between the moves: nobody has an answer yet, or one call has the answer and the code
is used. -/
structure Redeemed (env : AuthEnv) (rawToken : String) (h : List AuthEvent)
    (calls : ι → VerifyCall) (s : Shared ι (LoginStore ι) (LoginWrite ι) VerifyPc) : Prop where
  issued : TokensIssued env h s.store.db
  progress : ∀ i, VerifyProgress env rawToken h i (calls i) s.store.db (s.txns i)
  answers : s.store.answers = [] ∨ ∃ i user, s.store.answers = [(i, user)] ∧
    IssuedFor rawToken h (calls i) user.id ∧ CodeUsed env rawToken s.store.db

section Moves

variable [DecidableEq ι] {calls : ι → VerifyCall}
  {s s' : Shared ι (LoginStore ι) (LoginWrite ι) VerifyPc}

/-- A move that stores nothing. -/
theorem Redeemed.put (hs : Redeemed env rawToken h calls s)
    (htxn : VerifyProgress env rawToken h i (calls i) s.store.db txn) :
    Redeemed env rawToken h calls (s.put s.store i txn) := by
  refine ⟨hs.issued, fun j => ?_, hs.answers⟩
  by_cases hji : j = i
  · subst hji
    rwa [Shared.put_self]
  · rw [Shared.put_other hji]
    exact hs.progress j

/-- The commit of a call that has marked its token. -/
theorem Redeemed.use (hs : Redeemed env rawToken h calls s)
    (hapart : Transactions.Apart (verifications env rawToken calls) s)
    (honce : CodeOnce env rawToken s.store.db) (hf : Finds env rawToken h (calls i) s.store.db t)
    (hunused : Unused s.store.db t.id) (hmem : .use t.id ∈ (s.txns i).pending)
    {user : Option User} (huser : ∀ u, user = some u → u.id = t.userId) :
    Redeemed env rawToken h calls
      (s.put (answered i s.store (s.store.db.useLoginToken t.id) user) i ⟨[], .committed⟩) := by
  refine ⟨hs.issued.use t.id, fun j => ?_, ?_⟩
  · by_cases hji : j = i
    · subst hji
      rw [Shared.put_self]
      exact .ended rfl
    · rw [Shared.put_other hji]
      -- no other call has marked the same token
      exact (hs.progress j).use fun hj => hapart i j (Ne.symm hji) _ hmem _ hj rfl
  · rcases hs.answers with hnone | ⟨j, u, -, -, hused⟩
    · cases user with
      | none => exact .inl (by rw [Shared.put_store, answered, hnone]; rfl)
      | some u =>
        refine .inr ⟨i, u, by rw [Shared.put_store, answered, hnone]; rfl, ?_,
          codeUsed_use honce hf.held⟩
        rw [huser u rfl]
        exact hf.issued
    · exact absurd hunused (not_unused_of_codeUsed hf hused)

/-- Every move in which a call marks an unused token leaves at most one answer. -/
theorem redeemed_step [Fintype ι] {m : Move ι} (hcollision : HashApart env rawToken h)
    (hs : Redeemed env rawToken h calls s)
    (hapart : Transactions.Apart (verifications env rawToken calls) s)
    (hm : MarksUnused env rawToken s m)
    (hst : (verifications env rawToken calls).step s m = some s') :
    Redeemed env rawToken h calls s' := by
  rcases Transactions.step_cases hst with ⟨i, pc, rfl, hpc, hout⟩ | ⟨i, pc, rfl, -, rfl⟩
  · have hp : VerifyProgress env rawToken h i (calls i) s.store.db
        ⟨(s.txns i).pending, .running pc⟩ := hpc ▸ hs.progress i
    rcases hout with ⟨ws, pc', hout, -, rfl⟩ | ⟨hout, rfl⟩ | ⟨-, rfl⟩
    · exact hs.put (hp.next hs.issued hcollision (fun t ht => hm.2 t (hpc ▸ ht)) hout)
    · rcases hp.commit hout with hnil | ⟨t, hf, hunused, hmark | ⟨user, huser, hanswer⟩⟩
      · rw [Transactions.view_of_pending_nil hnil]
        exact hs.put (.ended rfl)
      · have hview : (verifications env rawToken calls).view s i =
            answered i s.store (s.store.db.useLoginToken t.id) none := by
          rw [Transactions.view, hmark]
          exact answered_none.symm
        rw [hview]
        exact hs.use hapart hm.1 hf hunused (hmark ▸ List.mem_cons_self) fun u hu => by cases hu
      · have hview : (verifications env rawToken calls).view s i =
            answered i s.store (s.store.db.useLoginToken t.id) (some user) := by
          rw [Transactions.view, hanswer]
          rfl
        rw [hview]
        refine hs.use hapart hm.1 hf hunused (hanswer ▸ List.mem_cons_self) fun u hu => ?_
        rw [← Option.some.inj hu, huser]
    · exact hs.put (.ended rfl)
  · exact hs.put (.ended rfl)

end Moves

/-- **A login code works once when every call marks an unused token.**  At most one call has
returned a user, to whom the code was issued and for whom it had not expired. -/
theorem loginToken_once [DecidableEq ι] [Fintype ι] {now : DateTime} {as : List AuthAction}
    {w : AuthWorld} (hrun : (authSystem env now).run (authSystem env now).init as = some w)
    (hcollision : HashApart env rawToken (authHistory env now as)) {calls : ι → VerifyCall}
    {s : Shared ι (LoginStore ι) (LoginWrite ι) VerifyPc}
    (hs : (verificationMachine env rawToken calls w.db).Reaches (MarksUnused env rawToken) s) :
    s.store.answers.length ≤ 1 ∧ ∀ i user, (i, user) ∈ s.store.answers →
      ∃ expiresAt, .issuedCode rawToken user.id expiresAt ∈ authHistory env now as ∧
        (calls i).now < expiresAt := by
  have hredeemed : Redeemed env rawToken (authHistory env now as) calls s := by
    refine hs.invariant_under
      (I := Transactions.Apart (verifications env rawToken calls))
      (J := Redeemed env rawToken (authHistory env now as) calls)
      (fun i j hij w hw => absurd hw List.not_mem_nil)
      (fun s m s' hs hst => Transactions.apart_step hs (fun _ _ hc => hc.symm) hst)
      ⟨tokensIssued_run hrun, fun i => .lookup, .inl rfl⟩
      (fun s m s' hapart hs hm hst => redeemed_step hcollision hs hapart hm hst)
  rcases hredeemed.answers with hnone | ⟨i, user, hone, hissued, -⟩
  · rw [hnone]
    exact ⟨Nat.zero_le 1, fun i user hmem => absurd hmem List.not_mem_nil⟩
  · rw [hone]
    refine ⟨Nat.le_refl 1, fun j u hmem => ?_⟩
    obtain ⟨rfl, rfl⟩ := Prod.mk.inj (List.mem_singleton.1 hmem)
    exact hissued

/-! ### Examples -/

/-- A user who has asked for a code. -/
def demoCode : List AuthAction :=
  [.addUser ⟨1, "admin@argus.local", true⟩, .createLoginToken 1 "ABCD-EFGH-JKLM-NPQR" 20]

theorem demoCode_isSome : ((authSystem demoAuthEnv demoNoon).run
    (authSystem demoAuthEnv demoNoon).init demoCode).isSome := by decide +kernel

/-- The tables with the code. -/
def demoCodeWorld : AuthWorld := (authSystem demoAuthEnv demoNoon).after demoCode demoCode_isSome

/-- Two calls with the code and the address of the user. -/
def demoVerifyCalls (_ : Fin 2) : VerifyCall := ⟨"admin@argus.local", demoNoon⟩

def demoVerifications :
    Machine (Shared (Fin 2) (LoginStore (Fin 2)) (LoginWrite (Fin 2)) VerifyPc) (Move (Fin 2)) :=
  verificationMachine demoAuthEnv "ABCD-EFGH-JKLM-NPQR" demoVerifyCalls demoCodeWorld.db

/-- Both calls read the token before either marks it; the second update waits for the first
commit. -/
def demoBothRead : List (Move (Fin 2)) :=
  [0, 1, 0, 1, 0, 0, 0, 1, 1, 1].map .step

theorem demoBothRead_isSome :
    (demoVerifications.run demoVerifications.init demoBothRead).isSome := by decide +kernel

/-- **A code is redeemed twice** when both calls read it before either marks it. -/
theorem code_redeemed_twice : (authSystem demoAuthEnv demoNoon).Reachable demoCodeWorld ∧
    ∃ s, demoVerifications.Reachable s ∧ s.store.answers.length = 2 :=
  ⟨Machine.reachable_after, demoVerifications.after demoBothRead demoBothRead_isSome,
    Machine.reachable_after, by decide +kernel⟩

/-- One call after the other. -/
def demoOneByOne : List (Move (Fin 2)) :=
  [0, 0, 0, 0, 0, 1, 1, 1].map .step

theorem demoOneByOne_isSome :
    (demoVerifications.run demoVerifications.init demoOneByOne).isSome := by decide +kernel

/-- The answers at the end of that run. -/
theorem loginToken_once_demo :
    (demoVerifications.after demoOneByOne demoOneByOne_isSome).store.answers.length = 1 ∧
      (demoVerifications.after demoOneByOne demoOneByOne_isSome).store.answers.length ≤ 1 := by
  refine ⟨by decide +kernel, ?_⟩
  have hreach : demoVerifications.Reaches (MarksUnused demoAuthEnv "ABCD-EFGH-JKLM-NPQR")
      (demoVerifications.after demoOneByOne demoOneByOne_isSome) :=
    Machine.reaches_after (by decide +kernel)
  have hcollision : HashApart demoAuthEnv "ABCD-EFGH-JKLM-NPQR"
      (authHistory demoAuthEnv demoNoon demoCode) := fun _ _ _ _ heq => heq
  exact (loginToken_once (Option.some_get demoCode_isSome).symm hcollision hreach).1

end ArgusSbomGuard
