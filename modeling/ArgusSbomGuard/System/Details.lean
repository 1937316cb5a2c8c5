import ArgusSbomGuard.Scan.Idempotence

/-!
# What the scans have found out about a CVE

Each scan merges what its report says about a CVE into the row of the CVE.  Over a whole run the
packages of a row are those of all matches that were processed, in the order in which they were
named first, and a detail that is known once is never unknown again (`details_kept`).

## Main definitions

* `committedReports` : the report of a scan that is committed.
* `packagesOf` : the packages that reports name for a CVE.
* `DetailsRecorded` : the rows and links agree with the reports.
* `Informs` : no detail is lost.
-/

namespace ArgusSbomGuard

/-- The report of the scan that an action carries out and commits, if it does. -/
def committedReports (env : Env) (w : World) : Action → List Json
  | .scanSbom message inp => match doScanSbom env w.db message inp with
    | .ok (_, .scanned) => (do
        let sbomUuid ← env.parseUuid message
        let sbom ← w.db.sboms.find? fun s => s.id == sbomUuid
        scanReport env sbom inp.grype).toList
    | _ => []
  | _ => []

/-- The packages that the reports name for the CVE `c`, in the order of their first
occurrences. -/
def packagesOf (reports : List Json) (c : String) : List String :=
  (((reports.flatMap Json.pairs).filter fun pair => pair.1 == c && pair.2 != "").map
    (·.2)).eraseDups

/-- The rows are those of the CVEs that the reports are about, with their packages, and every link
is for a pair of some report. -/
structure DetailsRecorded (reports : List Json) (db : Database) : Prop where
  packages : ∀ v ∈ db.vulnerabilities, v.affectedPackages = packagesOf reports v.cveId
  stored : ∀ r ∈ reports, ∀ c, ReportsCve r c → ∃ v ∈ db.vulnerabilities, v.cveId = c
  linked : ∀ l ∈ db.links, ∃ v ∈ db.vulnerabilities, v.id = l.vulnerabilityId ∧
    ∃ r ∈ reports, Reports r l.dependencyPurl v.cveId

/-- Of what was known about a CVE nothing is missing in its later row. -/
structure Informs (v v' : Vulnerability) : Prop where
  id : v'.id = v.id
  cveId : v'.cveId = v.cveId
  epssScore : v.epssScore ≠ none → v'.epssScore ≠ none
  epssPercentile : v.epssPercentile ≠ none → v'.epssPercentile ≠ none
  publishedAt : v.publishedAt ≠ none → v'.publishedAt ≠ none
  summary : (∃ s ∈ v.summary, s ≠ "") → ∃ s ∈ v'.summary, s ≠ ""

variable {env : Env} {db db' : Database} {us : List Refresh} {v : Vulnerability}
  {reports : List Json} {report : Json}

/-! ### One row -/

theorem mem_packagesOf {purl c : String} :
    purl ∈ packagesOf reports c ↔ ∃ r ∈ reports, Reports r purl c := by
  simp only [packagesOf, List.mem_eraseDups, List.mem_map, List.mem_filter, List.mem_flatMap,
    Bool.and_eq_true, beq_iff_eq, bne_iff_ne, reports_iff_mem_pairs]
  constructor
  · rintro ⟨⟨c', purl'⟩, ⟨⟨r, hr, hpair⟩, rfl, hne⟩, rfl⟩
    exact ⟨r, hr, hpair, hne⟩
  · rintro ⟨r, hr, hpair, hne⟩
    exact ⟨(c, purl), ⟨⟨r, hr, hpair⟩, rfl, hne⟩, rfl⟩

theorem affectedPackages_refreshAll : (refreshAll us v).affectedPackages =
    (us.filter fun u => u.m.vulnId == v.cveId).foldl (collect (· = "") fun u => u.m.purl)
      v.affectedPackages :=
  column_refreshAll fun v u h => by rw [apply_eq h]; rfl

/-- The packages of the refreshes of a report join those that were named before. -/
theorem foldl_collect_packagesOf (h : reportRefreshes env report = .ok us) {c : String} :
    (us.filter fun u => u.m.vulnId == c).foldl (collect (· = "") fun u => u.m.purl)
      (packagesOf reports c) = packagesOf (reports ++ [report]) c := by
  have hpairs : ((us.filter fun u => u.m.vulnId == c).map fun u => u.m.purl).filter
      (fun p => ¬ p = "") =
        (report.pairs.filter fun pair => pair.1 == c && pair.2 != "").map (·.2) := by
    rw [← reportRefreshes_pairs h, List.filter_map, List.filter_map, List.map_map,
      List.filter_filter]
    refine congrArg (List.map _) (List.filter_congr fun u _ => ?_)
    by_cases hp : u.m.purl = "" <;> simp [hp]
  rw [packagesOf, foldl_collect_eraseDups, hpairs, packagesOf, List.flatMap_append,
    List.filter_append, List.map_append]
  simp only [List.flatMap_cons, List.flatMap_nil, List.append_nil]

/-- The first row of a CVE has the packages of its report. -/
theorem FirstRow.affectedPackages (h : FirstRow us v) : (refreshAll us v).affectedPackages =
    (us.filter fun u => u.m.vulnId == v.cveId).foldl (collect (· = "") fun u => u.m.purl) [] := by
  rw [affectedPackages_refreshAll]
  obtain ⟨us₁, u, us₂, rfl, hfirst, id, summary, rfl⟩ := h
  have hfilter : ((us₁ ++ u :: us₂).filter fun x => x.m.vulnId == u.m.vulnId) =
      u :: us₂.filter fun x => x.m.vulnId == u.m.vulnId := by
    rw [List.filter_append, List.filter_cons_of_pos (by simp),
      List.filter_eq_nil_iff.2 fun x hx => by simpa using hfirst x hx, List.nil_append]
  change ((us₁ ++ u :: us₂).filter fun x => x.m.vulnId == u.m.vulnId).foldl _
    (if u.m.purl = "" then [] else [u.m.purl]) =
      ((us₁ ++ u :: us₂).filter fun x => x.m.vulnId == u.m.vulnId).foldl _ []
  rw [hfilter, List.foldl_cons, List.foldl_cons]
  -- the package of the first match is collected, whether or not the row has it already
  by_cases hp : u.m.purl = ""
  · simp [collect, hp]
  · simp [collect, hp]

theorem readRefresh_description {g : GrypeMatch} {u : Refresh} (h : readRefresh g = .ok u) :
    ∀ s ∈ u.description, s ≠ "" := by
  simp only [readRefresh, bind_eq_ok, Prod.exists] at h
  obtain ⟨epss, percentile, -, cvss, -, published, -, text, -, description, hfresh, h⟩ := h
  obtain rfl := Except.ok.inj h
  rintro s hs rfl
  unfold freshSummary at hfresh
  split_ifs at hfresh with htruthy
  · cases text with
    | str t =>
      simp only [textParam] at hfresh
      split_ifs at hfresh
      obtain rfl : t = "" := Option.some.inj ((Except.ok.inj hfresh).trans hs)
      cases htruthy
    | null => cases htruthy
    | _ => cases hfresh
  · cases hfresh
    cases hs

theorem readRefreshes_description {ms : List Json} (h : readRefreshes env ms = .ok us) :
    ∀ u ∈ us, ∀ s ∈ u.description, s ≠ "" := by
  induction ms generalizing us with
  | nil =>
    cases h
    exact fun u hu => absurd hu List.not_mem_nil
  | cons m ms ih =>
    obtain ⟨g?, -, h⟩ := bind_eq_ok.1 h
    cases g? with
    | none => exact ih h
    | some g =>
      simp only [bind_eq_ok] at h
      obtain ⟨u, hu, us', hus', h⟩ := h
      obtain rfl := Except.ok.inj h
      intro x hx
      rcases List.mem_cons.1 hx with rfl | hx
      · exact readRefresh_description hu
      · exact ih hus' x hx

theorem Informs.refl (v : Vulnerability) : Informs v v :=
  ⟨rfl, rfl, fun h => h, fun h => h, fun h => h, fun h => h⟩

theorem Informs.trans {v' v'' : Vulnerability} (h : Informs v v') (h' : Informs v' v'') :
    Informs v v'' where
  id := h'.id.trans h.id
  cveId := h'.cveId.trans h.cveId
  epssScore := h'.epssScore ∘ h.epssScore
  epssPercentile := h'.epssPercentile ∘ h.epssPercentile
  publishedAt := h'.publishedAt ∘ h.publishedAt
  summary := h'.summary ∘ h.summary

/-- A column that takes over what is there never becomes empty. -/
theorem column_ne_none {γ : Type*} {col : Vulnerability → Option γ} {g : Refresh → Option γ}
    (h : ∀ v u, v.cveId = u.m.vulnId → col (Refresh.apply v u) = coalesce g (col v) u)
    (hv : col v ≠ none) : col (refreshAll us v) ≠ none := by
  obtain ⟨x, hx⟩ := Option.ne_none_iff_exists'.1 hv
  obtain ⟨y, hy, -⟩ : ∃ y ∈ (us.filter fun u => u.m.vulnId == v.cveId).foldl (coalesce g) (col v),
      True := exists_foldl_coalesce (fun _ _ _ _ => trivial) ⟨x, hx, trivial⟩
  rw [column_refreshAll h]
  exact Option.ne_none_iff_exists'.2 ⟨y, hy⟩

/-- The refreshes of a report lose nothing. -/
theorem informs_refreshAll (hus : ∀ u ∈ us, ∀ s ∈ u.description, s ≠ "") :
    Informs v (refreshAll us v) where
  id := id_refreshAll
  cveId := cveId_refreshAll
  epssScore := column_ne_none (g := fun u => u.epss) fun v u h => by rw [apply_eq h]; rfl
  epssPercentile :=
    column_ne_none (g := fun u => u.percentile) fun v u h => by rw [apply_eq h]; rfl
  publishedAt := column_ne_none (g := fun u => u.m.pubDate) fun v u h => by rw [apply_eq h]; rfl
  summary hv := by
    have hsummary : (refreshAll us v).summary = (us.filter fun u => u.m.vulnId == v.cveId).foldl
        (coalesce fun u => u.description) v.summary :=
      column_refreshAll fun v u h => by rw [apply_eq h]; rfl
    rw [hsummary]
    exact exists_foldl_coalesce (fun u hu => hus u (List.mem_filter.1 hu).1) hv

/-! ### One action -/

variable {w w' : World} {a : Action}

/-- What an action did to the details: nothing, while links may have disappeared, or what the
report of its scan says. -/
inductive DetailsEffect (env : Env) (new : List Json) (db db' : Database) : Prop
  | same (hnew : new = []) (hvulnerabilities : db'.vulnerabilities = db.vulnerabilities)
    (hlinks : ∀ l' ∈ db'.links, ∃ l ∈ db.links, l.key = l'.key)
  | scanned {report : Json} {us : List Refresh} (hnew : new = [report])
    (hus : reportRefreshes env report = .ok us) (hrefreshed : Refreshed us db db')
    (hlinks : ∀ l' ∈ db'.links, (∃ l ∈ db.links, l.key = l'.key) ∨
      ∃ c, db'.HasCve l'.vulnerabilityId c ∧ Reports report l'.dependencyPurl c)

/-- An action that is no scan names no package. -/
theorem StepEffect.details (howned : ServiceOwned db) (h : World.StepEffect env a db db')
    (ha : ∀ message inp, a ≠ .scanSbom message inp) :
    db'.vulnerabilities = db.vulnerabilities ∧
      ∀ l' ∈ db'.links, ∃ l ∈ db.links, l.key = l'.key := by
  have hkept : db'.links = db.links → ∀ l' ∈ db'.links, ∃ l ∈ db.links, l.key = l'.key := by
    intro heq l' hl'
    exact ⟨l', heq ▸ hl', rfl⟩
  cases h with
  | unchanged h =>
    rw [h]
    exact ⟨rfl, fun l hl => ⟨l, hl, rfl⟩⟩
  | createProject h => exact ⟨by rw [createProject_eq_ok h], hkept (by rw [createProject_eq_ok h])⟩
  | deleteProject h =>
    refine ⟨?_, fun l' hl' => ⟨l', (deleteProject_trimmed h).links l' hl', rfl⟩⟩
    obtain ⟨target, h⟩ := deleteProject_eq_ok h
    rw [h]
  | deleteService h => exact ⟨by rw [deleteService_eq_ok h], hkept (by rw [deleteService_eq_ok h])⟩
  | storeSbom h =>
    rcases storeSbom_eq_ok h with ⟨rfl, -⟩ | hstored
    · exact ⟨rfl, hkept rfl⟩
    · exact ⟨by rw [hstored.frame], hkept hstored.links⟩
  | scanSbom ha' => exact absurd ha' (ha _ _)
  | deleteSbom ha' h =>
    obtain ⟨sbom, -, -, heffect⟩ := deleteSbom_eq_ok howned h
    refine ⟨by rw [heffect.frame], fun l' hl' => ?_⟩
    obtain ⟨l, hl, -, himg⟩ := heffect.origin l' hl'
    exact ⟨l, hl, himg.key.symm⟩
  | pruneSboms h =>
    refine ⟨?_, fun l' hl' => ⟨l', (pruneSboms_trimmed h).links l' hl', rfl⟩⟩
    obtain ⟨target, h⟩ := pruneSboms_eq_ok h
    rw [h]
  | createRiskAcceptance h =>
    exact ⟨by rw [createRiskAcceptance_eq_ok h], hkept (by rw [createRiskAcceptance_eq_ok h])⟩
  | deleteRiskAcceptance h =>
    exact ⟨by rw [deleteRiskAcceptance_eq_ok h], hkept (by rw [deleteRiskAcceptance_eq_ok h])⟩

/-- A scan that is committed carries out its report. -/
theorem scan_details {message : String} {inp : ScanInput}
    (h : w.scan env message inp = w') :
    DetailsEffect env (committedReports env w (.scanSbom message inp)) w.db w'.db := by
  simp only [committedReports]
  rcases World.scan_outcome h with ⟨db', hscan, rfl⟩ | ⟨rfl, hnone⟩
  · obtain ⟨sbom, hsbom, hid, report, us, hreport, hus, hrefreshed⟩ := doScanSbom_refreshed hscan
    have heffect := scanEffect_of_message hsbom hid hreport hscan
    have hfind : (w.db.sboms.find? fun s => s.id == sbom.id) = some sbom :=
      Table.find?_eq_some hsbom (beq_self_eq_true _) fun a ha => .inl (beq_iff_eq.1 ha)
    refine .scanned ?_ hus hrefreshed fun l' hl' => ?_
    · simp only [hscan, hid, Option.bind_eq_bind, Option.bind_some, hfind, hreport]
      rfl
    · rcases heffect.origin l' hl' with ⟨l, hl, himg⟩ | ⟨purl, c, i, hrep, hc, -, rfl⟩
      · exact .inl ⟨l, hl, himg.key.symm⟩
      · exact .inr ⟨c, hc, hrep⟩
  · refine .same ?_ rfl fun l hl => ⟨l, hl, rfl⟩
    split
    · rename_i db' hscan
      exact absurd hscan (hnone db')
    · rfl

theorem step_details (howned : ServiceOwned w.db) (hst : World.step env w a = some w') :
    DetailsEffect env (committedReports env w a) w.db w'.db := by
  by_cases ha : ∃ message inp, a = .scanSbom message inp
  · obtain ⟨message, inp, rfl⟩ := ha
    simp only [World.step] at hst
    split at hst
    · exact scan_details (Option.some.inj hst)
    · cases hst
  · have hno : ∀ message inp, a ≠ .scanSbom message inp := fun message inp heq =>
      ha ⟨message, inp, heq⟩
    obtain ⟨hvulnerabilities, hlinks⟩ := StepEffect.details howned (World.step_effect hst) hno
    refine .same ?_ hvulnerabilities hlinks
    cases a with
    | scanSbom message inp => exact absurd rfl (hno message inp)
    | _ => rfl

/-! ### Runs -/

/-- The rows and links still agree with the reports. -/
theorem detailsRecorded_step (howned : ServiceOwned w.db) (h : DetailsRecorded reports w.db)
    (hst : World.step env w a = some w') :
    DetailsRecorded (reports ++ committedReports env w a) w'.db := by
  cases step_details howned hst with
  | same hnew hvulnerabilities hlinks =>
    rw [hnew, List.append_nil]
    refine ⟨fun v hv => h.packages v (hvulnerabilities ▸ hv), fun r hr c hc => ?_,
      fun l' hl' => ?_⟩
    · rw [hvulnerabilities]
      exact h.stored r hr c hc
    · obtain ⟨l, hl, hkey⟩ := hlinks l' hl'
      obtain ⟨v, hv, hid, r, hr, hrep⟩ := h.linked l hl
      have hpurl : l.dependencyPurl = l'.dependencyPurl := congrArg (·.2.1) hkey
      have hvuln : l.vulnerabilityId = l'.vulnerabilityId := congrArg (·.2.2) hkey
      exact ⟨v, hvulnerabilities ▸ hv, hid.trans hvuln, r, hr, hpurl ▸ hrep⟩
  | @scanned report us hnew hus hrefreshed hlinks =>
    rw [hnew]
    refine ⟨fun v' hv' => ?_, fun r hr c hc => ?_, fun l' hl' => ?_⟩
    · obtain ⟨v, rfl, hv | ⟨hno, hfirst⟩⟩ := hrefreshed.origin v' hv'
      · rw [affectedPackages_refreshAll, cveId_refreshAll, h.packages v hv,
          foldl_collect_packagesOf hus]
      -- a new row: no earlier report is about its CVE
      · have hnone : packagesOf reports v.cveId = [] := by
          refine List.eq_nil_iff_forall_not_mem.2 fun purl hpurl => ?_
          obtain ⟨r, hr, hrep⟩ := mem_packagesOf.1 hpurl
          obtain ⟨b, hb, hbc⟩ := h.stored r hr _ hrep.reportsCve
          exact hno b hb hbc
        rw [hfirst.affectedPackages, cveId_refreshAll, ← foldl_collect_packagesOf hus, hnone]
    · rcases List.mem_append.1 hr with hr | hr
      · obtain ⟨v, hv, rfl⟩ := h.stored r hr c hc
        exact ⟨_, hrefreshed.kept v hv, cveId_refreshAll⟩
      · obtain rfl := List.mem_singleton.1 hr
        obtain ⟨purl, hpair⟩ := reportsCve_iff.1 hc
        rw [← reportRefreshes_pairs hus, List.mem_map] at hpair
        obtain ⟨u, hu, heq⟩ := hpair
        obtain rfl : u.m.vulnId = c := congrArg Prod.fst heq
        exact hrefreshed.stored u hu
    · rcases hlinks l' hl' with ⟨l, hl, hkey⟩ | ⟨c, ⟨v, hv, hid, rfl⟩, hrep⟩
      · obtain ⟨v, hv, hid, r, hr, hrep⟩ := h.linked l hl
        have hpurl : l.dependencyPurl = l'.dependencyPurl := congrArg (·.2.1) hkey
        have hvuln : l.vulnerabilityId = l'.vulnerabilityId := congrArg (·.2.2) hkey
        refine ⟨_, hrefreshed.kept v hv, ?_, r, List.mem_append_left _ hr, ?_⟩
        · rw [id_refreshAll, hid, hvuln]
        · rw [cveId_refreshAll, ← hpurl]
          exact hrep
      · exact ⟨v, hv, hid, report, List.mem_append_right _ List.mem_cons_self, hrep⟩

theorem reportRefreshes_description (h : reportRefreshes env report = .ok us) :
    ∀ u ∈ us, ∀ s ∈ u.description, s ≠ "" := by
  obtain ⟨ms, -, hus⟩ := bind_eq_ok.1 h
  exact readRefreshes_description hus

/-- No action loses a detail. -/
theorem informs_step (howned : ServiceOwned w.db) (hst : World.step env w a = some w')
    (hv : v ∈ w.db.vulnerabilities) : ∃ v' ∈ w'.db.vulnerabilities, Informs v v' := by
  cases step_details howned hst with
  | same hnew hvulnerabilities hlinks => exact ⟨v, hvulnerabilities ▸ hv, .refl v⟩
  | scanned hnew hus hrefreshed hlinks =>
    exact ⟨_, hrefreshed.kept v hv, informs_refreshAll (reportRefreshes_description hus)⟩

theorem informs_run (hinv : SystemInvariant w.db)
    (hw' : ((system env).startingAt w).Reachable w') (hv : v ∈ w.db.vulnerabilities) :
    ∃ v' ∈ w'.db.vulnerabilities, Informs v v' := by
  refine hw'.invariant_under (I := fun s => SystemInvariant s.db)
    (J := fun s => ∃ v' ∈ s.db.vulnerabilities, Informs v v') hinv
    (fun s a s' hs hst => systemInvariant_step hs hst) ⟨v, hv, .refl v⟩ ?_
  rintro s a s' hs ⟨v', hv', hinf⟩ - hst
  obtain ⟨v'', hv'', hinf'⟩ := informs_step hs.owned hst hv'
  exact ⟨v'', hv'', hinf.trans hinf'⟩

theorem detailsRecorded_empty : DetailsRecorded [] .empty where
  packages _ hv := absurd hv (Table.not_mem_empty _)
  stored _ hr := absurd hr List.not_mem_nil
  linked _ hl := absurd hl (Table.not_mem_empty _)

/-- Every run leaves the rows and links that its reports say. -/
theorem detailsRecorded_run {as : List Action}
    (hrun : (system env).run (system env).init as = some w) :
    DetailsRecorded ((system env).outputs (committedReports env) (system env).init as) w.db := by
  have hboth := Machine.run_outputs (M := system env) (f := committedReports env)
    (I := fun reports s => SystemInvariant s.db ∧ DetailsRecorded reports s.db) (h := [])
    (fun reports s a s' hs hst =>
      ⟨systemInvariant_step hs.1 hst, detailsRecorded_step hs.1.owned hs.2 hst⟩)
    ⟨systemInvariant_empty, detailsRecorded_empty⟩ hrun
  exact hboth.2

/-- Two scans of one release, which name the two packages of a CVE in different orders. -/
def demoRescans : List Action :=
  [demoProject, demoUpload 1 10 100, demoScan 10 [1, 1, 2, 1, 1, 1] 110,
    demoScan 10 [2, 1, 1, 1] 120]

theorem demoRescans_isSome : ((system demoEnv).run (system demoEnv).init demoRescans).isSome := by
  decide +kernel

end ArgusSbomGuard
