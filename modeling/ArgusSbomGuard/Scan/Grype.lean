import ArgusSbomGuard.Models.Environment

/-!
# Running grype and reading its report

`_run_grype` and the functions of `services/vulnerability_scanner.py` that read one match of a
report.  A run of grype is an input of the model (`GrypeRun`): it may fail to start, end with
any exit code and print anything.

A match that is not shaped as expected raises, like the code does; the exception leaves the
scan, whose transaction is then rolled back.  Values that the code only hands to the database
are converted where they are bound to a column.
-/

namespace ArgusSbomGuard

/-- What happened when grype was started on a document. -/
inductive GrypeRun
  /-- Writing the document, starting grype or talking to it raised. -/
  | raised
  | exited (returncode : ℤ) (stdout : List UInt8)

variable (env : Env)

/-- `_run_grype`: the report, or `none` when there is none; `json.loads` may also return
Python's `None`. -/
def runGrype : GrypeRun → Option Json
  | .raised => none
  | .exited returncode stdout =>
    if returncode ≠ 0 then none
    else match env.loads stdout with
      | .ok .null => none
      | .ok results => some results
      | .error _ => none

/-- `_map_severity`. -/
def mapSeverity (severityRaw : Json) : Except PyError VulnerabilitySeverity :=
  match severityRaw.pyOr (.str "") with
  | .str s => match PyStr.lower s with
    | "critical" => .ok .CRITICAL
    | "high" => .ok .HIGH
    | "medium" => .ok .MEDIUM
    | "low" => .ok .LOW
    | _ => .ok .UNKNOWN
  | _ => .error .attributeError

/-- `_parse_cvss_score`. -/
def parseCvssScore (vulnData : Json) : Except PyError Json := do
  let cvss ← vulnData.get "cvss" (.arr [])
  if !cvss.truthy then return .null
  let first ← cvss.index0
  let metrics ← first.get "metrics" (.obj [])
  let baseScore ← metrics.get "baseScore" .null
  let score ← first.get "score" .null
  -- a base score of 0 is falsy, and the other score is taken
  return baseScore.pyOr score

/-- `_parse_date`: a value that is no string has no `replace`, and the error is caught. -/
def parseDate (date : Json) : Option DateTime :=
  match date with
  | .str s => if s = "" then none else env.fromisoformat (PyStr.replaceChar s 'Z' "+00:00")
  | _ => none

/-- `_parse_published_at`. -/
def parsePublishedAt (vulnData : Json) : Except PyError (Option DateTime) := do
  match parseDate env (← vulnData.get "publishedDate" .null) with
  | some d => return some d
  | none =>
    -- without a publication date, the day the first fix came out
    let fix ← ((← vulnData.get "fix" .null).pyOr (.obj [])).get "available" .null
    let fix := fix.pyOr (.arr [])
    if !fix.truthy then return none
    return parseDate env (← (← fix.index0).get "date" .null)

/-- `_to_float`. -/
def toFloat : Json → Except PyError (Option PyFloat)
  | .int n => (PyFloat.ofInt n).map some
  | .float x => .ok (some x)
  | _ => .ok none

/-- The score and percentile of one record of `epss`. -/
def epssOf (entry : Json) : Except PyError (Option PyFloat × Option PyFloat) := do
  return (← toFloat (← entry.get "epss" .null), ← toFloat (← entry.get "percentile" .null))

/-- The first record of `epss` for the given CVE. -/
def findEpss (vulnId : String) : List Json → Except PyError (Option Json)
  | [] => .ok none
  | entry :: entries => do
    if (← entry.get "cve" .null).isStr vulnId then return some entry
    findEpss vulnId entries

/-- `_parse_epss`. -/
def parseEpss (vulnId : String) (vulnData : Json) :
    Except PyError (Option PyFloat × Option PyFloat) := do
  match ← vulnData.get "epss" .null with
  | .arr entries => match ← findEpss vulnId entries with
    | some entry => epssOf entry
    | none => match entries with
      | entry :: _ => epssOf entry
      | [] => return (none, none)
  | _ => return (none, none)

/-- What `_process_grype_results` takes from one match. -/
structure GrypeMatch where
  vulnId : String
  purl : String
  severity : VulnerabilitySeverity
  cvssScore : Json
  pubDate : Option DateTime
  vulnData : Json

/-- The value is compared with a text column: anything else than text is refused by the
database driver. -/
def textKey : Json → Except PyError String
  | .str s => if fitsText s then .ok s else .error .dataError
  | _ => .error .dataError

/-- The part of the loop body of `_process_grype_results` that reads the match; `none` is its
`continue`. -/
def parseMatch (m : Json) : Except PyError (Option GrypeMatch) := do
  let vulnData ← m.get "vulnerability" (.obj [])
  let artifact ← m.get "artifact" (.obj [])
  let vulnId ← vulnData.get "id" (.str "")
  -- `continue`: a match without an id is neither stored nor reported
  if !vulnId.truthy then return none
  let purl ← artifact.get "purl" (.str "")
  let severity ← mapSeverity (← vulnData.get "severity" .null)
  let cvssScore ← parseCvssScore vulnData
  let pubDate ← parsePublishedAt env vulnData
  let vulnId ← textKey vulnId
  -- a falsy purl is neither linked nor recorded, whatever its type
  let purl ← if purl.truthy then textKey purl else pure ""
  return some { vulnId, purl, severity, cvssScore, pubDate, vulnData }

/-- The matches of a report: `results.get("matches", [])`, iterated over. -/
def reportMatches (results : Json) : Except PyError (List Json) := do
  (← results.get "matches" (.arr [])).iter

/-! ### What a report says

The readings below follow the shape of grype's output and raise nothing; `parseMatch` agrees
with them whenever it does not raise. -/

/-- The value of a field, `null` when there is none. -/
def Json.field (j : Json) (k : String) : Json :=
  match j with
  | .obj kvs => (kvs.lookup k).getD .null
  | _ => .null

/-- The match is about the CVE `c`. -/
def MatchesCve (m : Json) (c : String) : Prop :=
  (m.field "vulnerability").field "id" = .str c ∧ c ≠ ""

/-- The match names the package `purl`. -/
def MatchesPurl (m : Json) (purl : String) : Prop :=
  (m.field "artifact").field "purl" = .str purl ∧ purl ≠ ""

/-- The matches of a well-shaped report. -/
def Json.matches (report : Json) : List Json :=
  match report.field "matches" with
  | .arr ms => ms
  | _ => []

/-- A text, or the empty text for any other value. -/
def Json.textOrEmpty : Json → String
  | .str s => s
  | _ => ""

/-- The CVE that a match is about, with the package it names, which may be empty. -/
def matchPair (m : Json) : Option (String × String) :=
  match (m.field "vulnerability").field "id" with
  | .str c =>
    if c = "" then none else some (c, ((m.field "artifact").field "purl").textOrEmpty)
  | _ => none

/-- The pairs of CVE and package of a report, in order. -/
def Json.pairs (report : Json) : List (String × String) := report.matches.filterMap matchPair

/-- Some match of the report is about the CVE `c`. -/
def ReportsCve (report : Json) (c : String) : Prop := ∃ m ∈ report.matches, MatchesCve m c

/-- Some match of the report has the non-empty id `c` and the non-empty purl `purl`. -/
def Reports (report : Json) (purl c : String) : Prop :=
  ∃ m ∈ report.matches, MatchesCve m c ∧ MatchesPurl m purl

theorem Reports.reportsCve {report : Json} {purl c : String} (h : Reports report purl c) :
    ReportsCve report c :=
  h.imp fun _ hm => ⟨hm.1, hm.2.1⟩

theorem get_str_iff {j v : Json} {k s : String} (h : j.get k (.str "") = .ok v) (hs : s ≠ "") :
    j.field k = .str s ↔ v = .str s := by
  obtain ⟨kvs, rfl, rfl⟩ := Json.get_eq_ok h
  simp only [Json.field]
  cases kvs.lookup k with
  | none => simp [hs.symm]
  | some w => rfl

theorem get_obj_field {j v : Json} {k : String} (h : j.get k (.obj []) = .ok v) (k' : String) :
    v.field k' = (j.field k).field k' := by
  obtain ⟨kvs, rfl, rfl⟩ := Json.get_eq_ok h
  simp only [Json.field]
  cases kvs.lookup k <;> rfl

theorem textKey_eq_ok {j : Json} {s : String} (h : textKey j = .ok s) : j = .str s := by
  cases j with
  | str t =>
    simp only [textKey] at h
    split_ifs at h
    rw [Except.ok.inj h]
  | _ => cases h

variable {env}

theorem MatchesCve.unique {m : Json} {c c' : String} (h : MatchesCve m c)
    (h' : MatchesCve m c') : c = c' :=
  Json.str.inj (h.1.symm.trans h'.1)

/-- A match that is read is about the CVE it is read with, and names the package it is read
with unless that is empty. -/
theorem parseMatch_eq_some {m : Json} {g : GrypeMatch} (h : parseMatch env m = .ok (some g)) :
    MatchesCve m g.vulnId ∧ g.vulnData.field "id" = .str g.vulnId ∧
      ∀ purl, MatchesPurl m purl ↔ g.purl = purl ∧ purl ≠ "" := by
  simp only [parseMatch, bind_eq_ok] at h
  obtain ⟨vulnData, hvuln, artifact, hart, vulnId, hid, h⟩ := h
  split at h
  · cases h
  rename_i htruthy
  simp only [bind_eq_ok, pure_bind] at h
  obtain ⟨purl, hpurl, _, -, severity, -, cvssScore, -, pubDate, -, id, hkey, h⟩ := h
  obtain rfl := textKey_eq_ok hkey
  have hne : id ≠ "" := by simpa using htruthy
  have hfield : vulnData.field "id" = .str id := (get_str_iff hid hne).2 rfl
  have hcve : MatchesCve m id := ⟨(get_obj_field hvuln "id").symm.trans hfield, hne⟩
  -- the package of the match is the value that was read, as far as it is a non-empty text
  have hmatch : ∀ p, MatchesPurl m p ↔ purl = .str p ∧ p ≠ "" := fun p =>
    and_congr_left fun hp => by rw [← get_obj_field hart, get_str_iff hpurl hp]
  split at h
  · obtain ⟨p, hp, hg⟩ := bind_eq_ok.1 h
    obtain rfl := textKey_eq_ok hp
    obtain rfl := Option.some.inj (Except.ok.inj hg)
    exact ⟨hcve, hfield, fun q => by rw [hmatch q, Json.str.injEq]⟩
  · rename_i hfalsy
    obtain rfl := Option.some.inj (Except.ok.inj h)
    refine ⟨hcve, hfield, fun q => ?_⟩
    rw [hmatch q]
    constructor
    · rintro ⟨rfl, hq⟩
      exact absurd (Json.truthy_str.2 hq) hfalsy
    · rintro ⟨rfl, hq⟩
      exact absurd rfl hq

/-- A match that is skipped has no id. -/
theorem parseMatch_eq_none {m : Json} (h : parseMatch env m = .ok none) (c : String) :
    ¬ MatchesCve m c := by
  rintro ⟨hc, hne⟩
  simp only [parseMatch, bind_eq_ok] at h
  obtain ⟨vulnData, hvuln, artifact, hart, vulnId, hid, h⟩ := h
  have hval : vulnId = .str c := by
    rwa [← get_obj_field hvuln, get_str_iff hid hne] at hc
  split at h
  · rename_i hfalsy
    rw [hval, Json.truthy_str.2 hne] at hfalsy
    cases hfalsy
  · simp only [bind_eq_ok, pure_bind] at h
    obtain ⟨purl, -, _, -, severity, -, cvssScore, -, pubDate, -, id, -, h⟩ := h
    split at h
    · obtain ⟨p, -, hg⟩ := bind_eq_ok.1 h
      cases hg
    · cases h

theorem matchesPurl_iff {m : Json} {purl : String} : MatchesPurl m purl ↔
    ((m.field "artifact").field "purl").textOrEmpty = purl ∧ purl ≠ "" := by
  refine and_congr_left fun hne => ?_
  cases (m.field "artifact").field "purl" with
  | str s => exact Json.str.injEq s purl ▸ Iff.rfl
  | _ => exact iff_of_false nofun hne.symm

theorem matchPair_eq_some {m : Json} {c purl : String} : matchPair m = some (c, purl) ↔
    MatchesCve m c ∧ ((m.field "artifact").field "purl").textOrEmpty = purl := by
  unfold matchPair MatchesCve
  cases (m.field "vulnerability").field "id" with
  | str s =>
    by_cases hs : s = ""
    · simp only [if_pos hs, reduceCtorEq, Json.str.injEq, false_iff, not_and]
      rintro ⟨rfl, hne⟩
      exact absurd hs hne
    · simp only [if_neg hs, Option.some.injEq, Prod.mk.injEq, Json.str.injEq]
      exact and_congr_left fun _ => ⟨fun hc => ⟨hc, hc ▸ hs⟩, And.left⟩
  | _ => simp

theorem reportsCve_iff {report : Json} {c : String} :
    ReportsCve report c ↔ ∃ purl, (c, purl) ∈ report.pairs := by
  simp only [Json.pairs, List.mem_filterMap, matchPair_eq_some]
  constructor
  · rintro ⟨m, hm, hcve⟩
    exact ⟨_, m, hm, hcve, rfl⟩
  · rintro ⟨purl, m, hm, hcve, -⟩
    exact ⟨m, hm, hcve⟩

/-- A match is read with the pair that it has, and one without a pair is skipped. -/
theorem matchPair_of_parseMatch {m : Json} {g? : Option GrypeMatch}
    (h : parseMatch env m = .ok g?) : matchPair m = g?.map fun g => (g.vulnId, g.purl) := by
  cases g? with
  | none =>
    cases hpair : matchPair m with
    | none => rfl
    | some pair => exact absurd (matchPair_eq_some.1 hpair).1 (parseMatch_eq_none h pair.1)
  | some g =>
    obtain ⟨hcve, -, hpurl⟩ := parseMatch_eq_some h
    refine matchPair_eq_some.2 ⟨hcve, ?_⟩
    have hsame := fun purl => matchesPurl_iff.symm.trans (hpurl purl)
    -- the two texts have the same non-empty values
    by_cases hne : g.purl = ""
    · by_contra htext
      exact htext ((hsame _).1 ⟨rfl, fun he => htext (he.trans hne.symm)⟩).1.symm
    · exact ((hsame g.purl).2 ⟨rfl, hne⟩).1

theorem reports_iff_mem_pairs {report : Json} {purl c : String} :
    Reports report purl c ↔ (c, purl) ∈ report.pairs ∧ purl ≠ "" := by
  rw [Json.pairs, List.mem_filterMap]
  constructor
  · rintro ⟨m, hm, hcve, hpurl⟩
    obtain ⟨htext, hne⟩ := matchesPurl_iff.1 hpurl
    exact ⟨⟨m, hm, matchPair_eq_some.2 ⟨hcve, htext⟩⟩, hne⟩
  · rintro ⟨⟨m, hm, hpair⟩, hne⟩
    obtain ⟨hcve, htext⟩ := matchPair_eq_some.1 hpair
    exact ⟨m, hm, hcve, matchesPurl_iff.2 ⟨htext, hne⟩⟩

/-- When the loop iterates over something, these are the matches of the report: the values of
any other type than a list have no `get`. -/
theorem reportMatches_eq_ok {results : Json} {ms : List Json}
    (h : reportMatches results = .ok ms) :
    results.matches = ms ∨ (results.matches = [] ∧ ∀ m ∈ ms, ∃ s, m = .str s) := by
  simp only [reportMatches, bind_eq_ok] at h
  obtain ⟨v, hget, hiter⟩ := h
  obtain ⟨kvs, rfl, rfl⟩ := Json.get_eq_ok hget
  simp only [Json.matches, Json.field]
  cases hl : kvs.lookup "matches" with
  | none =>
    rw [hl] at hiter
    exact .inl (Except.ok.inj hiter)
  | some w =>
    rw [hl] at hiter
    cases w with
    | arr xs => exact .inl (Except.ok.inj hiter)
    | obj kvs' =>
      obtain rfl := Except.ok.inj hiter
      refine .inr ⟨rfl, fun m hm => ?_⟩
      obtain ⟨kv, -, rfl⟩ := List.mem_map.1 hm
      exact ⟨kv.1, rfl⟩
    | str t =>
      obtain rfl := Except.ok.inj hiter
      refine .inr ⟨rfl, fun m hm => ?_⟩
      obtain ⟨c, -, rfl⟩ := List.mem_map.1 hm
      exact ⟨String.ofList [c], rfl⟩
    | null => cases hiter
    | bool b => cases hiter
    | int n => cases hiter
    | float x => cases hiter

end ArgusSbomGuard
