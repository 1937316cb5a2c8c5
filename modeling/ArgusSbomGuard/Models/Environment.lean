import ArgusSbomGuard.Models.Schema

/-!
# The environment of the code

Standard library functions, the hash and the database's slug function that the code calls and
the model leaves open.  The only property assumed of them is that a UUID can be read back from
its text: a result that takes an `Env` holds whatever these functions return otherwise.

A text that is read from JSON can have lone surrogates, which are no characters.  In a document that
is uploaded, characters for private use that it does not have itself stand for them
(`Env.loneSurrogate`); a text with one of them cannot be sent to the database.

## Main definitions

* `Env` : the environment.
* `Env.sends`, `Env.varchar`, `Env.varcharParam` : texts as parameters of a statement.
* `Env.computeSha256`, `Env.jsonParam` : what becomes of a nested value.
-/

namespace ArgusSbomGuard

structure Env where
  /-- `json.loads` on bytes. -/
  loads : List UInt8 → Except PyError Json
  /-- `str` of the `JSONDecodeError` that `json.loads` raises on the bytes. -/
  loadsError : List UInt8 → String
  /-- The characters that stand for lone surrogates. -/
  loneSurrogate : Char → Bool
  loneSurrogate_private : ∀ c, loneSurrogate c = true → 0xF0000 ≤ c.toNat
  /-- How many calls of `_strip_nul_from_strings` the stack of the interpreter has room for. -/
  stripCalls : ℕ
  /-- How many nested objects and arrays `json.dumps` follows. -/
  dumpsDepth : ℕ
  /-- How many of them a JSON column takes, which the driver writes and the database parses. -/
  columnDepth : ℕ
  /-- The digest in `compute_sha256`, of the document with sorted keys. -/
  sha256 : Json → String
  /-- `datetime.fromisoformat`, `none` standing for its `ValueError`. -/
  fromisoformat : String → Option DateTime
  /-- `uuid.UUID`, `none` standing for its `ValueError`. -/
  parseUuid : String → Option Uuid
  /-- `str` of a `uuid.UUID`. -/
  strUuid : Uuid → String
  parseUuid_strUuid : ∀ i, parseUuid (strUuid i) = some i
  /-- The driver takes the text for a UUID: hexadecimal digits and hyphens, without the braces and
  the prefix that `uuid.UUID` skips. -/
  takesUuid : String → Bool
  /-- `public.slugify`, which computes `projects.slug` from the name. -/
  slugify : String → String

namespace Env

variable (env : Env)

/-- The text can be a parameter: it can be encoded, and the database takes its characters. -/
def sends (s : String) : Bool := fitsText s && !s.toList.any env.loneSurrogate

/-- The text can be written to a `varchar(n)` column. -/
def writes (n : ℕ) (s : String) : Bool := env.sends s && castsVarchar n s

/-- A text bound to a `varchar(n)` column. -/
def varchar (n : ℕ) (s : String) : Except PyError String :=
  if env.sends s then ArgusSbomGuard.varchar n s else .error .dataError

/-- A JSON value bound to a nullable `varchar(n)` column. -/
def varcharParam (n : ℕ) : Json → Except PyError (Option String)
  | .null => .ok none
  | .str s => (env.varchar n s).map some
  | _ => .error .dataError

/-- A JSON value bound to a `varchar(n) NOT NULL` column. -/
def varcharParamNotNull (n : ℕ) : Json → Except PyError String
  | .str s => env.varchar n s
  | .null => .error .integrityError
  | _ => .error .dataError

/-- `compute_sha256`. -/
def computeSha256 (raw : Json) : Except PyError String :=
  if raw.depth ≤ env.dumpsDepth then .ok (env.sha256 raw) else .error .recursionError

/-- A JSON value bound to a JSON column; the statement refuses what is no JSON of the database. -/
def jsonParam (j : Json) : Except PyError Json :=
  if j.depth ≤ env.columnDepth then .ok j else .error .dataError

theorem varchar_eq_ok {n : ℕ} {s t : String} :
    env.varchar n s = .ok t ↔ env.writes n s = true ∧ cutText n s = t := by
  rw [varchar, writes, Bool.and_eq_true]
  split_ifs with h
  · rw [ArgusSbomGuard.varchar_eq_ok, h, and_iff_right rfl]
  · exact ⟨nofun, fun heq => absurd heq.1.1 h⟩

theorem varchar_isOk {n : ℕ} {s : String} :
    (∃ t, env.varchar n s = .ok t) ↔ env.writes n s = true := by
  simp only [varchar_eq_ok, exists_and_left, exists_eq', and_true]

/-- A text of the code itself can be sent. -/
theorem sends_of_lt {s : String} (h : ∀ c ∈ s.toList, c ≠ '\x00' ∧ c.toNat < 0xF0000) :
    env.sends s = true := by
  have hnul : '\x00' ∉ s.toList := fun hc => (h _ hc).1 rfl
  have hlone : ¬ ∃ c ∈ s.toList, env.loneSurrogate c = true := fun ⟨c, hc, hlone⟩ =>
    absurd (h c hc).2 (not_lt.2 (env.loneSurrogate_private c hlone))
  rw [← List.any_eq_true, Bool.not_eq_true] at hlone
  rw [sends, fitsText, hlone]
  simpa using hnul

theorem computeSha256_eq_ok {raw : Json} {sha : String} :
    env.computeSha256 raw = .ok sha ↔ raw.depth ≤ env.dumpsDepth ∧ env.sha256 raw = sha := by
  unfold computeSha256
  split_ifs with h
  · exact ⟨fun heq => ⟨h, Except.ok.inj heq⟩, fun heq => congrArg Except.ok heq.2⟩
  · exact ⟨nofun, fun heq => absurd heq.1 h⟩

theorem jsonParam_eq_ok {j j' : Json} :
    env.jsonParam j = .ok j' ↔ j.depth ≤ env.columnDepth ∧ j = j' := by
  unfold jsonParam
  split_ifs with h
  · exact ⟨fun heq => ⟨h, Except.ok.inj heq⟩, fun heq => congrArg Except.ok heq.2⟩
  · exact ⟨nofun, fun heq => absurd heq.1 h⟩

end Env

end ArgusSbomGuard
