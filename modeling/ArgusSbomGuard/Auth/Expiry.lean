import ArgusSbomGuard.Auth.World
import ArgusSbomGuard.Sbom.Retention
import ArgusSbomGuard.Sbom.Upload

/-!
# Numbers of days

`_resolve_expiry` of `api/pages/settings.py`, which reads the lifetime of a new API key, and the
validators of the settings `api_key_ttl_days` and `sbom_retention_days` in `config.py`.  All of
them admit any positive number of days, and adding it to the clock, or subtracting it from the
date, overflows when the result is not in the years 1 to 9999 (`expiry_arithmetic_iff`).

## Main definitions

* `Conversions` : `float` and `int` of a text.
* `resolveExpiry` : `_resolve_expiry`.
* `DaysSetting`, `daysSetting` : the values of a setting, and its validator.
-/

namespace ArgusSbomGuard

/-! ### Conversions -/

/-- The conversions of texts, `none` standing for a `ValueError`. -/
structure Conversions where
  /-- `float` of a text. -/
  floatText : String → Option PyFloat
  /-- `int` of a text. -/
  intText : String → Option ℤ
  /-- `repr`. -/
  repr : Json → String

/-- `x < 0`. -/
def PyFloat.isNegative : PyFloat → Bool
  | .finite q => q < 0
  | .infinite negative => negative
  | .nan => false

/-- `x.is_integer()`. -/
def PyFloat.isInteger : PyFloat → Bool
  | .finite q => q.den == 1
  | .infinite _ | .nan => false

/-- `int(x)`. -/
def PyFloat.toInt : PyFloat → Except PyError ℤ
  | .finite q => .ok (q.num.tdiv q.den)
  | .infinite _ => .error .overflowError
  | .nan => .error .valueError

variable (c : Conversions)

/-- `float(v)`. -/
def toPyFloat : Json → Except PyError PyFloat
  | .str s => (c.floatText s).elim (.error .valueError) .ok
  | .int n => PyFloat.ofInt n
  | .float x => .ok x
  | .bool b => .ok (.finite (if b then 1 else 0))
  | .null | .arr _ | .obj _ => .error .typeError

/-- `int(v)`. -/
def toPyInt : Json → Except PyError ℤ
  | .str s => (c.intText s).elim (.error .valueError) .ok
  | .int n => .ok n
  | .float x => x.toInt
  | .bool b => .ok (if b then 1 else 0)
  | .null | .arr _ | .obj _ => .error .typeError

/-- `timedelta(days=days)`. -/
def timedeltaDays (days : ℤ) : Except PyError ℤ :=
  if days.natAbs ≤ 999999999 then .ok (days * 86400000000) else .error .overflowError

/-! ### The settings -/

/-- A number of days that passed validation; without one the setting is off. -/
structure DaysSetting where
  days : Option ℕ
  pos : ∀ n ∈ days, 1 ≤ n
  deriving DecidableEq

/-- What a validator raises: an error with a message, or an exception it does not catch. -/
inductive SettingError
  | value (msg : String)
  | raised (e : PyError)
  deriving DecidableEq

/-- `_sbom_retention_days` and `_api_key_ttl_days`, for the text of the environment and the value of
the field. -/
def daysSetting (fieldName : String) (environ : Option String) (v : Json) :
    Except SettingError DaysSetting :=
  if environ = some "" then .ok ⟨none, nofun⟩
  else if [.null, .int 0, .str "0", .str ""].any v.pyEq then .ok ⟨none, nofun⟩
  else match toPyInt c v with
    | .error e =>
      if e = .typeError ∨ e = .valueError then
        .error (.value (fieldName ++ " must be an integer, got " ++ c.repr v))
      else .error (.raised e)
    | .ok value =>
      if h : value < 1 then
        .error (.value (fieldName ++ " must be >= 1 when set, got " ++ toString value))
      else .ok ⟨some value.toNat, fun n hn => by
        obtain rfl := Option.mem_some_iff.1 hn
        omega⟩

/-- `_sbom_retention_days`. -/
def sbomRetentionDays := daysSetting c "sbom_retention_days"

/-- `_api_key_ttl_days`. -/
def apiKeyTtlDays := daysSetting c "api_key_ttl_days"

/-- The environment with a setting for the lifetime of a key. -/
def AuthEnv.withTtl (env : AuthEnv) (ttl : DaysSetting) : AuthEnv :=
  { env with apiKeyTtlDays := ttl.days }

/-! ### The expiry -/

/-- `datetime.now(UTC) + timedelta(days=days)`. -/
def expiryIn (now : DateTime) (days : ℤ) : Except PyError DateTime := do
  addDuration now (← timedeltaDays days)

variable (env : AuthEnv)

/-- `raw in (None, "")`. -/
def isUnset (raw : Json) : Bool := [.null, .str ""].any raw.pyEq

/-- `_resolve_expiry`. -/
def resolveExpiry (now : DateTime) (raw : Json) : Except ApiError (Option DateTime) :=
  if isUnset raw then (apiKeyDefaultExpiry env now).mapError .unhandled
  else match toPyFloat c raw with
    | .error e =>
      if e = .typeError ∨ e = .valueError then .error (.http 400 "ttl_days must be an integer")
      else .error (.unhandled e)
    | .ok days =>
      if days.isNegative || !days.isInteger then
        .error (.http 400 "ttl_days must be a non-negative integer")
      else if days = .finite 0 then .ok none
      else ((days.toInt >>= expiryIn now).map some).mapError .unhandled

/-! ### The range of the clock -/

/-- The instants of the years 1 to 9999. -/
def Representable (t : DateTime) : Prop := Date.start 1 ≤ t ∧ t < Date.start 3652060

/-- What the clock shows. -/
structure Clock where
  now : DateTime
  today : Date
  now_representable : Representable now
  today_pos : 1 ≤ today
  today_le : today ≤ 3652059

/-- The instant after so many days comes before the year 10000. -/
def Within (now : DateTime) (days : ℤ) : Prop := now + days * 86400000000 < Date.start 3652060

/-- A time to live is rejected, or it is a number of days that ends before the year 10000. -/
def TtlWithin (now : DateTime) (raw : Json) : Prop :=
  match toPyFloat c raw with
  | .error e => e = .typeError ∨ e = .valueError
  | .ok days => days.isNegative = true ∨ days.isInteger = false ∨
      ∀ n, days.toInt = .ok n → Within now n

/-- An expiry that is not in the past, none, or an answer of 400. -/
def Resolved (now : DateTime) (r : Except ApiError (Option DateTime)) : Prop :=
  (∃ e, r = .ok e ∧ ∀ t ∈ e, Representable t ∧ now ≤ t) ∨ ∃ detail, r = .error (.http 400 detail)

/-- The results of the arithmetic: the expiry of a request, the default expiry, and a cutoff for the
retention, with which it succeeds. -/
structure ArithmeticHolds (ttl retention : DaysSetting) (clock : Clock) (raw : Json) : Prop where
  resolved : Resolved clock.now (resolveExpiry c (env.withTtl ttl) clock.now raw)
  defaulted : ∃ e, apiKeyDefaultExpiry (env.withTtl ttl) clock.now = .ok e ∧
    ∀ t ∈ e, Representable t
  cutoff : ∀ n ∈ retention.days, ∃ d, daysBefore clock.today n = .ok d ∧ Representable d.start
  pruned : ∀ db, ∃ db', pruneSboms db retention.days clock.today = .ok db'

variable {c} {env} {now : DateTime} {days : ℤ} {ttl retention : DaysSetting} {raw : Json}

/-! ### Adding days -/

/-- Later instants are after the year 1. -/
theorem representable_add (hnow : Representable now) (hdays : 0 ≤ days)
    (hwithin : Within now days) :
    Representable (now + days * 86400000000) ∧ now ≤ now + days * 86400000000 := by
  have hle : now ≤ now + days * 86400000000 :=
    Int.le_add_of_nonneg_right (Int.mul_nonneg hdays (by decide))
  exact ⟨⟨hnow.1.trans hle, hwithin⟩, hle⟩

theorem addDuration_of_within (hnow : Representable now) (hdays : 0 ≤ days)
    (hwithin : Within now days) :
    addDuration now (days * 86400000000) = .ok (now + days * 86400000000) :=
  if_pos (representable_add hnow hdays hwithin).1

theorem addDuration_of_not_within (hwithin : ¬ Within now days) :
    addDuration now (days * 86400000000) = .error .overflowError :=
  if_neg fun h => hwithin h.2

/-- Days that end before the year 10000 are a `timedelta`. -/
theorem timedeltaDays_of_within (hnow : Representable now) (hdays : 0 ≤ days)
    (hwithin : Within now days) : timedeltaDays days = .ok (days * 86400000000) := by
  have hbound : ∀ x : ℤ, 1 * 86400000000 ≤ x → x + days * 86400000000 < 3652060 * 86400000000 →
      days.natAbs ≤ 999999999 := by
    intro x hx hlt
    omega
  exact if_pos (hbound now hnow.1 hwithin)

theorem expiryIn_of_within (hnow : Representable now) (hdays : 0 ≤ days)
    (hwithin : Within now days) : expiryIn now days = .ok (now + days * 86400000000) := by
  rw [expiryIn, timedeltaDays_of_within hnow hdays hwithin]
  exact addDuration_of_within hnow hdays hwithin

theorem expiryIn_of_not_within (hwithin : ¬ Within now days) :
    expiryIn now days = .error .overflowError := by
  rw [expiryIn, timedeltaDays]
  split_ifs
  · exact addDuration_of_not_within hwithin
  · rfl

/-! ### The default expiry -/

theorem apiKeyDefaultExpiry_of_within (env : AuthEnv) (hnow : Representable now)
    (hwithin : ∀ n ∈ ttl.days, Within now n) :
    ∃ e, apiKeyDefaultExpiry (env.withTtl ttl) now = .ok e ∧
      ∀ t ∈ e, Representable t ∧ now ≤ t := by
  unfold apiKeyDefaultExpiry AuthEnv.withTtl
  dsimp only
  split
  · exact ⟨none, rfl, nofun⟩
  · exact ⟨none, rfl, nofun⟩
  · rename_i days _ hdays
    have hw := hwithin days hdays
    have hnonneg : (0 : ℤ) ≤ days := Int.natCast_nonneg days
    refine ⟨_, congrArg (Except.map some) (addDuration_of_within hnow hnonneg hw), ?_⟩
    intro t ht
    obtain rfl := Option.some.inj ht
    exact representable_add hnow hnonneg hw

theorem within_of_apiKeyDefaultExpiry {e : Option DateTime}
    (h : apiKeyDefaultExpiry (env.withTtl ttl) now = .ok e) : ∀ n ∈ ttl.days, Within now n := by
  intro n hn
  by_contra hwithin
  unfold apiKeyDefaultExpiry AuthEnv.withTtl at h
  dsimp only at h
  rw [Option.mem_def.1 hn] at h
  have hpos := ttl.pos n hn
  obtain ⟨m, rfl⟩ := Nat.exists_eq_succ_of_ne_zero (Nat.one_le_iff_ne_zero.1 hpos)
  have hadd : (addDuration now ((m.succ : ℕ) * 86400000000)).map some = .ok e := h
  rw [addDuration_of_not_within hwithin] at hadd
  cases hadd

/-! ### The time to live of a request -/

/-- An integer that is neither negative nor zero is a positive number of days. -/
theorem toInt_eq_ok {x : PyFloat} (hneg : x.isNegative = false) (hint : x.isInteger = true) :
    ∃ n : ℤ, x.toInt = .ok n ∧ 0 ≤ n := by
  cases x with
  | finite q =>
    have hden : q.den = 1 := beq_iff_eq.1 hint
    have hnonneg : ¬ q < 0 := of_decide_eq_false (show decide (q < 0) = false from hneg)
    exact ⟨q.num, by rw [PyFloat.toInt, hden]; exact congrArg _ (Int.tdiv_one _),
      Rat.num_nonneg.2 (Rat.not_lt.1 hnonneg)⟩
  | infinite negative => cases hint
  | nan => cases hint

/-- A number of days is resolved when it ends before the year 10000. -/
theorem resolved_expiryIn (hnow : Representable now) (hdays : 0 ≤ days) :
    Resolved now (((expiryIn now days).map some).mapError .unhandled) ↔ Within now days := by
  by_cases hwithin : Within now days
  · rw [expiryIn_of_within hnow hdays hwithin]
    refine iff_of_true (.inl ⟨_, rfl, fun t ht => ?_⟩) hwithin
    obtain rfl := Option.some.inj ht
    exact representable_add hnow hdays hwithin
  · rw [expiryIn_of_not_within hwithin]
    refine iff_of_false ?_ hwithin
    rintro (⟨_, h, -⟩ | ⟨_, h⟩) <;> cases h

/-- A value that was set is resolved when it is rejected or ends before the year 10000. -/
theorem resolveExpiry_iff (hnow : Representable now) (hset : isUnset raw = false) :
    Resolved now (resolveExpiry c env now raw) ↔ TtlWithin c now raw := by
  rw [resolveExpiry, hset, if_neg Bool.false_ne_true, TtlWithin]
  cases hfloat : toPyFloat c raw with
  | error e =>
    dsimp only
    split_ifs with he
    · exact iff_of_true (.inr ⟨_, rfl⟩) he
    · refine iff_of_false ?_ he
      rintro (⟨_, h, -⟩ | ⟨_, h⟩) <;> cases h
  | ok days =>
    dsimp only
    cases hneg : days.isNegative with
    | true => exact iff_of_true (.inr ⟨_, rfl⟩) (.inl rfl)
    | false =>
      cases hint : days.isInteger with
      | false => exact iff_of_true (.inr ⟨_, rfl⟩) (.inr (.inl rfl))
      | true =>
        obtain ⟨n, hn, hnonneg⟩ := toInt_eq_ok hneg hint
        have hcond : (false = true ∨ true = false ∨ ∀ m, days.toInt = .ok m → Within now m) ↔
            Within now n := by
          simp [hn]
        rw [hcond, Bool.not_true, Bool.or_self, if_neg Bool.false_ne_true]
        split_ifs with hzero
        · -- a lifetime of zero days is no expiry
          have hn0 : n = 0 := by
            rw [hzero] at hn
            exact (Except.ok.inj hn).symm
          refine iff_of_true (.inl ⟨none, rfl, nofun⟩) ?_
          rw [hn0, Within, Int.zero_mul, Int.add_zero]
          exact hnow.2
        · have hbind : (days.toInt >>= expiryIn now) = expiryIn now n := by
            rw [hn]
            rfl
          rw [hbind]
          exact resolved_expiryIn hnow hnonneg

/-! ### The cutoff of the retention -/

theorem daysBefore_of_lt {clock : Clock} {n : ℕ} (h : (n : ℤ) < clock.today) :
    ∃ d, daysBefore clock.today n = .ok d ∧ Representable d.start := by
  have hrange : ∀ x : ℤ, x ≤ 3652059 → (n : ℤ) < x → ¬ 999999999 < n ∧
      ¬ (x - n < 1 ∨ 3652059 < x - n) ∧
      1 * 86400000000 ≤ (x - n) * 86400000000 ∧ (x - n) * 86400000000 < 3652060 * 86400000000 := by
    intro x hx hn
    omega
  obtain ⟨hdelta, hdate, hlow, hhigh⟩ := hrange clock.today clock.today_le h
  refine ⟨clock.today - n, ?_, hlow, hhigh⟩
  rw [daysBefore, if_neg hdelta, if_neg hdate]

theorem lt_of_daysBefore {today d : Date} {n : ℕ} (h : daysBefore today n = .ok d) :
    (n : ℤ) < today := by
  unfold daysBefore at h
  split_ifs at h with hdelta hdate
  have hlow : ∀ x : ℤ, ¬ (x - n < 1 ∨ 3652059 < x - n) → (n : ℤ) < x := by
    intro x hx
    omega
  exact hlow today hdate
/-- **Expiry and retention.**  All of the arithmetic succeeds exactly when the time to live and the
lifetime of the settings end before the year 10000 and the retention starts in the year 1 or
later. -/
theorem expiry_arithmetic_iff (c : Conversions) (env : AuthEnv) (ttl retention : DaysSetting)
    (clock : Clock) (raw : Json) : ArithmeticHolds c env ttl retention clock raw ↔
      (isUnset raw = true ∨ TtlWithin c clock.now raw) ∧
      (∀ n ∈ ttl.days, Within clock.now n) ∧ ∀ n ∈ retention.days, (n : ℤ) < clock.today := by
  have hnow := clock.now_representable
  constructor
  · intro h
    refine ⟨?_, ?_, ?_⟩
    · cases hset : isUnset raw with
      | true => exact .inl rfl
      | false => exact .inr ((resolveExpiry_iff hnow hset).1 h.resolved)
    · obtain ⟨e, he, -⟩ := h.defaulted
      exact within_of_apiKeyDefaultExpiry he
    · intro n hn
      obtain ⟨d, hd, -⟩ := h.cutoff n hn
      exact lt_of_daysBefore hd
  · rintro ⟨hraw, httl, hretention⟩
    obtain ⟨e, he, hrange⟩ := apiKeyDefaultExpiry_of_within env hnow httl
    constructor
    · cases hset : isUnset raw with
      | true =>
        refine .inl ⟨e, ?_, hrange⟩
        rw [resolveExpiry, if_pos hset, he]
        rfl
      | false =>
        exact (resolveExpiry_iff hnow hset).2 (hraw.resolve_left (hset ▸ Bool.false_ne_true))
    · exact ⟨e, he, fun t ht => (hrange t ht).1⟩
    · exact fun n hn => daysBefore_of_lt (hretention n hn)
    · intro db
      cases hdays : retention.days with
      | none => exact ⟨db, rfl⟩
      | some n =>
        obtain ⟨d, hd, -⟩ := daysBefore_of_lt (hretention n hdays)
        obtain ⟨db', hdb', -⟩ := pruneSboms_eq db hd
        exact ⟨db', hdb'⟩

/-! ### Too many days -/

/-- A number in decimal digits. -/
def digitsValue (s : String) : Option ℕ :=
  if s.toList ≠ [] ∧ s.toList.all Char.isDigit then
    some (s.toList.foldl (fun n d => 10 * n + (d.toNat - 48)) 0)
  else none

/-- Conversions that know the numbers in digits. -/
def digitConversions : Conversions where
  floatText s := (digitsValue s).map fun n => .finite n
  intText s := (digitsValue s).map fun n => n
  repr _ := ""

/-- The first of January 2026. -/
def demoClock : Clock :=
  ⟨Date.start 739617, 739617, ⟨by decide, by decide⟩, by decide, by decide⟩

example : resolveExpiry digitConversions demoAuthEnv demoClock.now (.str "30") =
    .ok (some (Date.start 739647)) := by decide +kernel

/-- The default lifetime. -/
def defaultTtl : DaysSetting := ⟨some 90, by decide⟩

/-- Settings that pass validation. -/
def longTtl : DaysSetting := ⟨some 3000000, by decide⟩

def longRetention : DaysSetting := ⟨some 1000000, by decide⟩

/-- With the default lifetime, a time to live of 99999999 days is not rejected, and ends after the
year 9999; a lifetime of three million days and a retention of a million days are accepted as
settings, and reach the end of the range too. -/
theorem far_expiry_overflows :
    resolveExpiry digitConversions (demoAuthEnv.withTtl defaultTtl) demoClock.now
      (.str "99999999") = .error (.unhandled .overflowError) ∧
    (apiKeyTtlDays digitConversions none (.str "3000000") = .ok longTtl ∧
      apiKeyDefaultExpiry (demoAuthEnv.withTtl longTtl) demoClock.now = .error .overflowError) ∧
    sbomRetentionDays digitConversions none (.str "1000000") = .ok longRetention ∧
      pruneSboms .empty longRetention.days demoClock.today = .error .overflowError :=
  ⟨by decide +kernel, ⟨by decide +kernel, by decide +kernel⟩, by decide +kernel, rfl⟩

end ArgusSbomGuard
