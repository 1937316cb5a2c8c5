import ArgusSbomGuard.Models.Write
import ArgusSbomGuard.Scan.Grype

/-!
# Storing the matches of a report

`_upsert_vulnerability`, `_link_vulnerability` and `_process_grype_results` of
`services/vulnerability_scanner.py`.  The first two compute the rows they write from the
database they see; the loop carries the writes out one after the other.

What the loop did is summed up by `Grown`: vulnerabilities and links were only added, and the
new links are the open links of the processed pairs that were not there before
(`processMatches_grown`).
-/

namespace ArgusSbomGuard

variable (env : Env)

/-- The row `_upsert_vulnerability` inserts for a CVE that is not stored yet. -/
def newVulnerability (id : Uuid) (g : GrypeMatch)
    (cvss epss percentile : Option PyFloat) (summary : Option String) : Vulnerability where
  id := id
  cveId := g.vulnId
  source := some "grype"
  severity := some g.severity
  cvssScore := cvss
  epssScore := epss
  epssPercentile := percentile
  summary := summary
  affectedPackages := if g.purl = "" then [] else [g.purl]
  publishedAt := g.pubDate
  extraData := g.vulnData

/-- The assignments at the end of `_upsert_vulnerability`: severity, score and raw data are
replaced, the other fields only by a value that is there. -/
def refreshVulnerability (g : GrypeMatch) (cvss epss percentile : Option PyFloat)
    (description : Option String) (v : Vulnerability) : Vulnerability :=
  { v with
    severity := some g.severity
    cvssScore := cvss
    epssScore := epss <|> v.epssScore
    epssPercentile := percentile <|> v.epssPercentile
    summary := description <|> v.summary
    publishedAt := g.pubDate <|> v.publishedAt
    extraData := g.vulnData
    affectedPackages :=
      if g.purl = "" ∨ g.purl ∈ v.affectedPackages then v.affectedPackages
      else v.affectedPackages ++ [g.purl] }

/-- The lookup of `_upsert_vulnerability`, followed by the insert of the row `mk` builds when
the CVE is not stored, with the row this ends up with. -/
def findOrInsertVulnerability (db : Database) (cveId : String)
    (mk : Except PyError Vulnerability) : Except PyError (List Write × Vulnerability) :=
  match db.vulnerabilities.find? fun a => a.cveId == cveId with
  | some a => .ok ([], a)
  | none => do
    let v ← mk
    match db.insertVulnerability v with
    | .ok _ => .ok ([.addVulnerability v], v)
    | .error .integrityError =>
      -- the other scan's row, if another scan inserted one since the lookup
      match db.vulnerabilities.find? fun a => a.cveId == cveId with
      | some a => .ok ([], a)
      | none => .error .noResultFound
    | .error e => .error e

/-- The summary the update takes over: a description that is there. -/
def freshSummary (description : Json) : Except PyError (Option String) :=
  if description.truthy then textParam description else .ok none

/-- `_upsert_vulnerability`: `newId` is the identifier drawn for a new row. -/
def upsertVulnerability (db : Database) (newId : Uuid) (g : GrypeMatch) :
    Except PyError (List Write × Vulnerability) := do
  let (epss, percentile) ← parseEpss g.vulnId g.vulnData
  let cvss ← floatParam g.cvssScore
  let _ ← timestampParam g.pubDate
  let description ← g.vulnData.get "description" (.str "")
  let (ws, v) ← findOrInsertVulnerability db g.vulnId do
    return newVulnerability newId g cvss epss percentile (← textParam description)
  let v := refreshVulnerability g cvss epss percentile (← freshSummary description) v
  -- the assignments reach the database with the next flush, which checks the raw data
  if g.vulnData.storable then return (ws ++ [.setVulnerability v], v) else throw .dataError

/-- The row `_link_vulnerability` inserts. -/
def newLink (sbom : SBOM) (purl : String) (vulnerabilityId : Uuid) : SBOMVulnerability where
  sbomId := sbom.id
  dependencyPurl := purl
  vulnerabilityId := vulnerabilityId
  status := .OPEN
  fixedAt := none
  detectedAt := sbom.createdAt

/-- `_link_vulnerability`: an existing link is left alone whatever its status. -/
def linkVulnerability (db : Database) (sbom : SBOM) (v : Vulnerability) (purl : String) :
    Except PyError (List Write) :=
  if purl = "" then .ok []
  else if ∃ l ∈ db.links, l.key = (sbom.id, purl, v.id) then .ok []
  else match db.insertLink (newLink sbom purl v.id) with
    | .ok _ => .ok [.addLink (newLink sbom purl v.id)]
    -- the savepoint is rolled back and the error swallowed, whatever the reason
    | .error .integrityError => .ok []
    | .error e => .error e

/-- One round of the loop of `_process_grype_results`; the second component is what it appends
to the result. -/
def processMatch (db : Database) (sbom : SBOM) (newId : String → Uuid) (m : Json) :
    Except PyError (Database × List Json) := do
  match ← parseMatch env m with
  | none => return (db, [])
  | some g =>
    let (ws, v) ← upsertVulnerability db (newId g.vulnId) g
    let db := db.writeAll ws
    let ws ← linkVulnerability db sbom v g.purl
    return (db.writeAll ws, [g.vulnData])

/-- The loop of `_process_grype_results`. -/
def processMatches (sbom : SBOM) (newId : String → Uuid) :
    Database → List Json → Except PyError (Database × List Json)
  | db, [] => .ok (db, [])
  | db, m :: ms => do
    let (db, vulns) ← processMatch env db sbom newId m
    let (db, rest) ← processMatches sbom newId db ms
    return (db, vulns ++ rest)

/-- `_process_grype_results`. -/
def processGrypeResults (db : Database) (sbom : SBOM) (newId : String → Uuid) (results : Json) :
    Except PyError (Database × List Json) := do
  processMatches env sbom newId db (← reportMatches results)

/-! ### Upserting -/

variable {env} {db db' : Database}

/-- The row found or inserted has the CVE id that was looked for, and only vulnerabilities are
written. -/
theorem findOrInsertVulnerability_eq_ok {c : String} {mk : Except PyError Vulnerability}
    {ws : List Write} {v : Vulnerability} (hmk : ∀ a, mk = .ok a → a.cveId = c)
    (h : findOrInsertVulnerability db c mk = .ok (ws, v)) :
    (∀ w ∈ ws, w.IsVulnerability) ∧ (db.writeAll ws).HasCve v.id c := by
  have hfound : ∀ {a}, (db.vulnerabilities.find? fun a => a.cveId == c) = some a →
      db.HasCve a.id c := fun ha =>
    ⟨_, (Table.mem_of_find? ha).1, rfl, by simpa using (Table.mem_of_find? ha).2⟩
  unfold findOrInsertVulnerability at h
  split at h
  · rename_i a ha
    obtain ⟨rfl, rfl⟩ := Prod.mk.inj (Except.ok.inj h)
    exact ⟨fun _ hw => absurd hw List.not_mem_nil, hfound ha⟩
  · rename_i hnone
    obtain ⟨a, hmka, h⟩ := bind_eq_ok.1 h
    split at h
    · rename_i db' hins
      obtain ⟨rfl, rfl⟩ := Prod.mk.inj (Except.ok.inj h)
      obtain ⟨t, ht, htab⟩ := Database.insertVulnerability_eq_ok hins
      refine ⟨by simp [Write.IsVulnerability], ?_⟩
      have hdb' : db.writeAll [.addVulnerability a] = db' := by
        simp [Database.writeAll, Database.write, hins]
      rw [hdb']
      unfold Database.HasCve
      rw [htab]
      exact ⟨a, (Table.mem_insert? ht).2 (.inr rfl), rfl, hmk a hmka⟩
    · cases h
    · cases h

/-- `_upsert_vulnerability` writes only vulnerabilities, and the row it returns has the CVE id
of the match. -/
theorem upsertVulnerability_eq_ok {newId : Uuid} {g : GrypeMatch} {ws : List Write}
    {v : Vulnerability} (h : upsertVulnerability db newId g = .ok (ws, v)) :
    (∀ w ∈ ws, w.IsVulnerability) ∧ (db.writeAll ws).HasCve v.id g.vulnId := by
  simp only [upsertVulnerability, bind_eq_ok, Prod.exists] at h
  obtain ⟨epss, percentile, -, cvss, -, _, -, description, -, ws₀, v₀, hfind, fresh, -, h⟩ := h
  split at h
  case isFalse => cases h
  obtain ⟨rfl, rfl⟩ := Prod.mk.inj (Except.ok.inj h)
  obtain ⟨hws, hcve⟩ := findOrInsertVulnerability_eq_ok (by
    intro a ha
    obtain ⟨summary, -, ha⟩ := bind_eq_ok.1 ha
    rw [← Except.ok.inj ha]
    rfl) hfind
  refine ⟨fun w hw => ?_, ?_⟩
  · rcases List.mem_append.1 hw with hw | hw
    · exact hws w hw
    · rw [List.mem_singleton.1 hw]
      trivial
  · rw [Database.writeAll_append]
    exact hcve.writeAll [_]

/-! ### Linking -/

/-- `_link_vulnerability` writes the new link or nothing; nothing when the package is empty,
the link is there already, or the database refuses it. -/
theorem linkVulnerability_eq_ok {sbom : SBOM} {v : Vulnerability} {purl : String}
    {ws : List Write} (h : linkVulnerability db sbom v purl = .ok ws) :
    (ws = [] ∧ (purl = "" ∨ (∃ l ∈ db.links, l.key = (sbom.id, purl, v.id)) ∨
        db.insertLink (newLink sbom purl v.id) = .error .integrityError)) ∨
      (purl ≠ "" ∧ ws = [.addLink (newLink sbom purl v.id)] ∧
        ∃ db', db.insertLink (newLink sbom purl v.id) = .ok db') := by
  unfold linkVulnerability at h
  split_ifs at h with hpurl hex
  · exact .inl ⟨(Except.ok.inj h).symm, .inl hpurl⟩
  · exact .inl ⟨(Except.ok.inj h).symm, .inr (.inl hex)⟩
  · split at h
    · rename_i db' hins
      exact .inr ⟨hpurl, (Except.ok.inj h).symm, db', hins⟩
    · rename_i hins
      exact .inl ⟨(Except.ok.inj h).symm, .inr (.inr hins)⟩
    · cases h

/-- A link insert that the database refuses although the SBOM and the vulnerability are there
is a duplicate. -/
theorem exists_link_of_refused {sbom : SBOM} {v : Vulnerability} {purl c : String}
    (hs : sbom ∈ db.sboms) (hv : db.HasCve v.id c)
    (h : db.insertLink (newLink sbom purl v.id) = .error .integrityError) :
    ∃ l ∈ db.links, l.key = (sbom.id, purl, v.id) := by
  rcases Database.insertLink_integrityError h with hn | hn | hex
  · exact absurd ⟨sbom, hs, rfl⟩ hn
  · exact absurd (hv.imp fun _ ha => ⟨ha.1, ha.2.1⟩) hn
  · exact hex

/-- What linking did when the SBOM and the vulnerability are stored: no link was removed or
changed, a new link is the one asked for, and afterwards there is a link. -/
theorem linkVulnerability_links {sbom : SBOM} {v : Vulnerability} {purl c : String}
    {ws : List Write} (hs : sbom ∈ db.sboms) (hv : db.HasCve v.id c)
    (h : linkVulnerability db sbom v purl = .ok ws) :
    (∀ l ∈ db.links, l ∈ (db.writeAll ws).links) ∧
      (∀ l ∈ (db.writeAll ws).links, l ∉ db.links → purl ≠ "" ∧ l = newLink sbom purl v.id) ∧
      (purl ≠ "" → ∃ l ∈ (db.writeAll ws).links, l.key = (sbom.id, purl, v.id)) := by
  rcases linkVulnerability_eq_ok h with ⟨rfl, hwhy⟩ | ⟨hpurl, rfl, db', hins⟩
  · refine ⟨fun l hl => hl, fun l hl hn => absurd hl hn, fun hpurl => ?_⟩
    rcases hwhy with hempty | hex | hrefused
    · exact absurd hempty hpurl
    · exact hex
    · exact exists_link_of_refused hs hv hrefused
  · obtain ⟨-, t, ht, htab⟩ := Database.insertLink_eq_ok hins
    have hdb' : db.writeAll [.addLink (newLink sbom purl v.id)] = db' := by
      simp [Database.writeAll, Database.write, hins]
    rw [hdb', htab]
    refine ⟨fun l hl => (Table.mem_insert? ht).2 (.inl hl), fun l hl hn => ?_, fun _ => ?_⟩
    · exact ⟨hpurl, ((Table.mem_insert? ht).1 hl).resolve_left hn⟩
    · exact ⟨_, (Table.mem_insert? ht).2 (.inr rfl), rfl⟩

/-! ### The loop -/

/-- Vulnerabilities and links were only added: the new links are open links of `sbom` for pairs
of package and CVE that satisfy `P`, and every pair that satisfies `P` has a link. -/
structure Grown (sbom : SBOM) (P : String → String → Prop) (db db' : Database) : Prop where
  frame : db'.toTables = { db.toTables with
    vulnerabilities := db'.vulnerabilities, links := db'.links }
  hasCve : ∀ {i c}, db.HasCve i c → db'.HasCve i c
  old : ∀ l ∈ db.links, l ∈ db'.links
  new : ∀ l ∈ db'.links, l ∉ db.links →
    ∃ purl c i, P purl c ∧ db'.HasCve i c ∧ l = newLink sbom purl i
  linked : ∀ purl c, P purl c →
    ∃ i, db'.HasCve i c ∧ ∃ l ∈ db'.links, l.key = (sbom.id, purl, i)

namespace Grown

variable {sbom : SBOM} {P Q : String → String → Prop} {db'' : Database}

theorem refl (sbom : SBOM) (db : Database) : Grown sbom (fun _ _ => False) db db where
  frame := rfl
  hasCve h := h
  old _ h := h
  new _ h hn := absurd h hn
  linked _ _ h := h.elim

theorem trans (h : Grown sbom P db db') (h' : Grown sbom Q db' db'') :
    Grown sbom (fun purl c => P purl c ∨ Q purl c) db db'' where
  frame := by rw [h'.frame, h.frame]
  hasCve hc := h'.hasCve (h.hasCve hc)
  old l hl := h'.old l (h.old l hl)
  new l hl hn := by
    by_cases hmid : l ∈ db'.links
    · obtain ⟨purl, c, i, hP, hi, rfl⟩ := h.new l hmid hn
      exact ⟨purl, c, i, .inl hP, h'.hasCve hi, rfl⟩
    · obtain ⟨purl, c, i, hQ, hi, rfl⟩ := h'.new l hl hmid
      exact ⟨purl, c, i, .inr hQ, hi, rfl⟩
  linked purl c hPQ := by
    rcases hPQ with hP | hQ
    · obtain ⟨i, hi, l, hl, hkey⟩ := h.linked purl c hP
      exact ⟨i, h'.hasCve hi, l, h'.old l hl, hkey⟩
    · exact h'.linked purl c hQ

theorem congr (h : Grown sbom P db db') (hPQ : ∀ purl c, P purl c ↔ Q purl c) :
    Grown sbom Q db db' := by
  obtain rfl : P = Q := funext fun purl => funext fun c => propext (hPQ purl c)
  exact h

theorem sboms (h : Grown sbom P db db') : db'.sboms = db.sboms := by rw [h.frame]

end Grown

/-- The ids that `do_scan_sbom` takes from the scan results. -/
def reportedIds (vulns : List Json) : List String :=
  vulns.filterMap fun v => match v.field "id" with
    | .str s => if s = "" then none else some s
    | _ => none

theorem mem_reportedIds {vulns : List Json} {c : String} :
    c ∈ reportedIds vulns ↔ ∃ v ∈ vulns, v.field "id" = .str c ∧ c ≠ "" := by
  simp only [reportedIds, List.mem_filterMap]
  refine exists_congr fun v => and_congr_right fun _ => ?_
  cases v.field "id" with
  | str s =>
    by_cases hs : s = ""
    · simp only [hs, ↓reduceIte, reduceCtorEq, Json.str.injEq, false_iff, not_and, not_not]
      exact fun h => h.symm
    · simp only [hs, ↓reduceIte, Option.some.injEq, Json.str.injEq]
      exact ⟨fun h => ⟨h, h ▸ hs⟩, fun h => h.1⟩
  | _ => simp

theorem reportedIds_append {vs vs' : List Json} :
    reportedIds (vs ++ vs') = reportedIds vs ++ reportedIds vs' :=
  List.filterMap_append

/-- One round of the loop adds the pair of its match, if it has one. -/
theorem processMatch_grown {sbom : SBOM} {newId : String → Uuid} {m : Json}
    {vulns : List Json} (hs : sbom ∈ db.sboms)
    (h : processMatch env db sbom newId m = .ok (db', vulns)) :
    Grown sbom (fun purl c => MatchesCve m c ∧ MatchesPurl m purl) db db' ∧
      ∀ c, c ∈ reportedIds vulns ↔ MatchesCve m c := by
  obtain ⟨g?, hparse, h⟩ := bind_eq_ok.1 h
  cases g? with
  | none =>
    obtain ⟨rfl, rfl⟩ := Prod.mk.inj (Except.ok.inj h)
    have hno := parseMatch_eq_none hparse
    refine ⟨(Grown.refl sbom db).congr fun purl c => ?_, fun c => ?_⟩
    · exact ⟨False.elim, fun hm => hno c hm.1⟩
    · exact ⟨fun hc => absurd hc List.not_mem_nil, fun hm => absurd hm (hno c)⟩
  | some g =>
    obtain ⟨hcve, hid, hpurl⟩ := parseMatch_eq_some hparse
    simp only [bind_eq_ok, Prod.exists] at h
    obtain ⟨ws, v, hups, ws', hlink, h⟩ := h
    obtain ⟨rfl, rfl⟩ := Prod.mk.inj (Except.ok.inj h)
    obtain ⟨hws, hv⟩ := upsertVulnerability_eq_ok hups
    have hlinks : (db.writeAll ws).links = db.links := Database.writeAll_links hws
    obtain ⟨hold, hnew, hlinked⟩ := linkVulnerability_links (by simpa using hs) hv hlink
    -- a match is about one CVE and one package
    have hpair : ∀ purl c, MatchesCve m c ∧ MatchesPurl m purl ↔
        g.vulnId = c ∧ g.purl = purl ∧ purl ≠ "" := fun purl c =>
      and_congr ⟨fun hc => hcve.unique hc, fun hc => hc ▸ hcve⟩ (hpurl purl)
    refine ⟨⟨?_, fun hc => (hc.writeAll ws).writeAll ws', fun l hl => hold l (hlinks ▸ hl),
      fun l hl hn => ?_, fun purl c hP => ?_⟩, fun c => ?_⟩
    · rw [Database.writeAll_frame ws', Database.writeAll_frame ws]
    · obtain ⟨hne, rfl⟩ := hnew l hl (hlinks ▸ hn)
      exact ⟨g.purl, g.vulnId, v.id, (hpair _ _).2 ⟨rfl, rfl, hne⟩, hv.writeAll ws', rfl⟩
    · obtain ⟨rfl, rfl, hne⟩ := (hpair purl c).1 hP
      exact ⟨v.id, hv.writeAll ws', hlinked hne⟩
    · rw [mem_reportedIds]
      simp only [List.mem_singleton, exists_eq_left, hid, Json.str.injEq]
      exact ⟨fun hc => hc.1 ▸ hcve, fun hc => ⟨hcve.unique hc, hc.2⟩⟩

/-- The whole loop adds the pairs of the matches, and its result names their CVEs. -/
theorem processMatches_grown {sbom : SBOM} {newId : String → Uuid} {ms : List Json}
    {vulns : List Json} (hs : sbom ∈ db.sboms)
    (h : processMatches env sbom newId db ms = .ok (db', vulns)) :
    Grown sbom (fun purl c => ∃ m ∈ ms, MatchesCve m c ∧ MatchesPurl m purl) db db' ∧
      ∀ c, c ∈ reportedIds vulns ↔ ∃ m ∈ ms, MatchesCve m c := by
  induction ms generalizing db vulns with
  | nil =>
    obtain ⟨rfl, rfl⟩ := Prod.mk.inj (Except.ok.inj h)
    refine ⟨(Grown.refl sbom db).congr fun purl c => by simp, fun c => by simp [reportedIds]⟩
  | cons m ms ih =>
    simp only [processMatches, bind_eq_ok, Prod.exists] at h
    obtain ⟨db₁, vs, hone, db₂, rest, hrest, h⟩ := h
    obtain ⟨rfl, rfl⟩ := Prod.mk.inj (Except.ok.inj h)
    obtain ⟨hgrown, hids⟩ := processMatch_grown hs hone
    obtain ⟨hgrown', hids'⟩ := ih (hgrown.sboms ▸ hs) hrest
    refine ⟨(hgrown.trans hgrown').congr fun purl c => ?_, fun c => ?_⟩
    · simp only [List.mem_cons, exists_eq_or_imp]
    · rw [reportedIds_append, List.mem_append, hids, hids']
      simp only [List.mem_cons, exists_eq_or_imp]

end ArgusSbomGuard
