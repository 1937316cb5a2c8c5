import ArgusSbomGuard.Relational.Table
import ArgusSbomGuard.Python.Json
import Mathlib.Data.Prod.Lex

/-!
# The rows of the database

The tables of `app/models` that the upload, scan, reconcile, delete, prune and acceptance code
reads and writes, with the unique constraints of the initial migration.  An instant is a number
of microseconds, a date the number of days at whose start it begins; identifiers are compared
as numbers, like the database compares UUIDs.
-/

namespace ArgusSbomGuard

/-- A UUID, as a number. -/
abbrev Uuid := ℕ

/-- A `timestamptz` value, in microseconds. -/
abbrev DateTime := ℤ

/-- The order of an `ORDER BY` of an instant and another number. -/
instance instLinearOrderInstant : LinearOrder (DateTime ×ₗ ℕ) :=
  @Prod.Lex.instLinearOrder ℤ ℕ Int.instLinearOrder Nat.instLinearOrder

instance : Preorder (DateTime ×ₗ ℕ) := instLinearOrderInstant.toPreorder

/-- A `date` value, as its proleptic Gregorian ordinal. -/
abbrev Date := ℤ

/-- `datetime.combine(d, time.min, tzinfo=UTC)`. -/
def Date.start (d : Date) : DateTime := d * 86400000000

/-- `datetime.combine(d, time.max, tzinfo=UTC)`. -/
def Date.lastInstant (d : Date) : DateTime := (d + 1) * 86400000000 - 1

/-- The date of an instant, UTC. -/
def DateTime.date (t : DateTime) : Date := t / 86400000000

inductive SBOMFormat
  | CYCLONEDX | SPDX
  deriving DecidableEq

inductive VulnerabilitySeverity
  | CRITICAL | HIGH | MEDIUM | LOW | UNKNOWN
  deriving DecidableEq

/-- `VulnerabilitySeverity.value`. -/
def VulnerabilitySeverity.value : VulnerabilitySeverity → String
  | .CRITICAL => "CRITICAL"
  | .HIGH => "HIGH"
  | .MEDIUM => "MEDIUM"
  | .LOW => "LOW"
  | .UNKNOWN => "UNKNOWN"

inductive VulnerabilityStatus
  | OPEN | FIXED
  deriving DecidableEq

/-- A row of `projects`; the slug is computed by the database from the name. -/
structure Project where
  id : Uuid
  name : String
  slug : String
  deriving DecidableEq

instance : UniqueKeys Project where
  Clash a b := a.id = b.id ∨ a.name = b.name ∨ a.slug = b.slug
  decClash _ _ := inferInstanceAs (Decidable (_ ∨ _))
  clash_symm := by
    rintro a b (h | h | h)
    · exact .inl h.symm
    · exact .inr (.inl h.symm)
    · exact .inr (.inr h.symm)

/-- A row of `services`. -/
structure Service where
  id : Uuid
  projectId : Uuid
  name : String
  deriving DecidableEq

instance : UniqueKeys Service where
  Clash a b := a.id = b.id ∨ (a.projectId = b.projectId ∧ a.name = b.name)
  decClash _ _ := inferInstanceAs (Decidable (_ ∨ _))
  clash_symm := by
    rintro a b (h | h)
    · exact .inl h.symm
    · exact .inr ⟨h.1.symm, h.2.symm⟩

/-- A row of `sboms`. -/
structure SBOM where
  id : Uuid
  projectId : Uuid
  version : Option String
  format : Option SBOMFormat
  rawSbom : Json
  sha256 : String
  dependencyCount : Option ℕ
  uploadedAt : DateTime
  createdAt : DateTime
  serviceId : Option Uuid

instance : UniqueKeys SBOM where
  Clash a b := a.id = b.id ∨ a.sha256 = b.sha256
  decClash _ _ := inferInstanceAs (Decidable (_ ∨ _))
  clash_symm := Or.imp Eq.symm Eq.symm

/-- The (project, service or none) scope of an SBOM. -/
def SBOM.scope (s : SBOM) : Uuid × Option Uuid := (s.projectId, s.serviceId)

/-- A row of `dependencies`; its own identifier is read by no modelled function. -/
structure Dependency where
  sbomId : Uuid
  name : String
  version : String
  purl : Option String
  depType : Option String
  license : Option String
  isDirect : Bool
  extraData : Json

instance : UniqueKeys Dependency where
  Clash _ _ := False
  decClash _ _ := inferInstanceAs (Decidable False)
  clash_symm := id

/-- A row of `vulnerabilities`. -/
structure Vulnerability where
  id : Uuid
  cveId : String
  source : Option String
  severity : Option VulnerabilitySeverity
  cvssScore : Option PyFloat
  epssScore : Option PyFloat
  epssPercentile : Option PyFloat
  summary : Option String
  affectedPackages : List String
  publishedAt : Option DateTime
  extraData : Json

instance : UniqueKeys Vulnerability where
  Clash a b := a.id = b.id ∨ a.cveId = b.cveId
  decClash _ _ := inferInstanceAs (Decidable (_ ∨ _))
  clash_symm := Or.imp Eq.symm Eq.symm

/-- The primary key of `sbom_vulnerabilities`. -/
abbrev LinkKey := Uuid × String × Uuid

/-- A row of `sbom_vulnerabilities`, a *link* in the words of the code. -/
structure SBOMVulnerability where
  sbomId : Uuid
  dependencyPurl : String
  vulnerabilityId : Uuid
  status : VulnerabilityStatus
  fixedAt : Option DateTime
  detectedAt : DateTime
  deriving DecidableEq

/-- The primary key of a link. -/
def SBOMVulnerability.key (l : SBOMVulnerability) : LinkKey :=
  (l.sbomId, l.dependencyPurl, l.vulnerabilityId)

instance : UniqueKeys SBOMVulnerability where
  Clash a b := a.key = b.key
  decClash _ _ := inferInstanceAs (Decidable (_ = _))
  clash_symm := Eq.symm

/-- A row of `risk_acceptances`.  The two partial unique indexes, for rows with and without a
service, forbid two rows with the same project, service or none, and vulnerability. -/
structure RiskAcceptance where
  id : Uuid
  projectId : Uuid
  serviceId : Option Uuid
  vulnerabilityId : Uuid
  reason : String
  createdAt : DateTime
  deriving DecidableEq

instance : UniqueKeys RiskAcceptance where
  Clash a b := a.id = b.id ∨
    (a.projectId = b.projectId ∧ a.serviceId = b.serviceId ∧
      a.vulnerabilityId = b.vulnerabilityId)
  decClash _ _ := inferInstanceAs (Decidable (_ ∨ _))
  clash_symm := by
    rintro a b (h | ⟨h1, h2, h3⟩)
    · exact .inl h.symm
    · exact .inr ⟨h1.symm, h2.symm, h3.symm⟩

theorem clash_link_iff {a b : SBOMVulnerability} : Clash a b ↔ a.key = b.key := Iff.rfl

theorem clash_vulnerability_iff {a b : Vulnerability} :
    Clash a b ↔ a.id = b.id ∨ a.cveId = b.cveId := Iff.rfl

/-! ### Column types -/

/-- The text is one that a `varchar(n)` column holds. -/
def fitsVarchar (n : ℕ) (s : String) : Bool :=
  s.length ≤ n && !s.toList.contains '\x00'

/-- The text can be written to a `varchar(n)` column: nothing but spaces is beyond its length. -/
def castsVarchar (n : ℕ) (s : String) : Bool :=
  (s.toList.drop n).all (· == ' ') && !s.toList.contains '\x00'

/-- The first `n` characters of a text. -/
def cutText (n : ℕ) (s : String) : String := String.ofList (s.toList.take n)

/-- What a `varchar(n)` column holds of a text that is written to it: excess spaces are cut
silently, any other excess character is an error. -/
def varchar (n : ℕ) (s : String) : Except PyError String :=
  if castsVarchar n s then .ok (cutText n s) else .error .dataError

/-- The text can be stored in a `text` column. -/
def fitsText (s : String) : Bool := !s.toList.contains '\x00'

/-- The number can be stored in an `integer` column. -/
def fitsInteger (n : ℕ) : Bool := n < 2 ^ 31

/-- A JSON value bound to a nullable text column. -/
def textParam : Json → Except PyError (Option String)
  | .null => .ok none
  | .str s => if fitsText s then .ok (some s) else .error .dataError
  | _ => .error .dataError

/-- An instant bound to a `timestamptz` column, converted to UTC in the years 1 to 9999. -/
def timestampParam : Option DateTime → Except PyError (Option DateTime)
  | none => .ok none
  | some t => if Date.start 1 ≤ t ∧ t < Date.start 3652060 then .ok (some t)
    else .error .dataError

/-- A JSON value bound to a nullable float column; a Python `bool` is an `int`. -/
def floatParam : Json → Except PyError (Option PyFloat)
  | .null => .ok none
  | .bool b => .ok (some (.finite (if b then 1 else 0)))
  | .int n => (PyFloat.ofInt n).map some
  | .float x => .ok (some x)
  | _ => .error .dataError

theorem cutText_eq_self {n : ℕ} {s : String} : cutText n s = s ↔ s.length ≤ n := by
  rw [cutText, ← String.toList_inj, String.toList_ofList, List.take_eq_self_iff,
    String.length_toList]

theorem fitsVarchar_cutText {n : ℕ} {s : String} (h : castsVarchar n s = true) :
    fitsVarchar n (cutText n s) = true := by
  rw [castsVarchar, Bool.and_eq_true, Bool.not_eq_true', List.contains_eq_mem,
    decide_eq_false_iff_not] at h
  rw [fitsVarchar, Bool.and_eq_true, decide_eq_true_eq, Bool.not_eq_true', List.contains_eq_mem,
    decide_eq_false_iff_not, cutText, String.toList_ofList, ← String.length_toList,
    String.toList_ofList]
  exact ⟨List.length_take_le _ _, fun hnul => h.2 (List.mem_of_mem_take hnul)⟩

theorem varchar_eq_ok {n : ℕ} {s t : String} :
    varchar n s = .ok t ↔ castsVarchar n s = true ∧ cutText n s = t := by
  unfold varchar
  split_ifs with h
  · exact ⟨fun heq => ⟨h, Except.ok.inj heq⟩, fun heq => congrArg Except.ok heq.2⟩
  · exact ⟨nofun, fun heq => absurd heq.1 h⟩

end ArgusSbomGuard
