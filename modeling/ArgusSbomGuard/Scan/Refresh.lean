import ArgusSbomGuard.Relational.Upsert
import ArgusSbomGuard.Scan.Links

/-!
# What a report does to the vulnerabilities

Each match of a report refreshes the row of its CVE.  The values it brings along (`Refresh`) are
read from the match alone, so that the loop over the matches is a fold of refreshes over the
rows; a CVE that is not stored yet gets a row first.  `processMatches_refreshed` is the
specification of the loop, and `refreshAll_replay` says that the same refreshes once more change
no row.

## Main definitions

* `Refresh` : the values that one match has for the row of its CVE.
* `readRefreshes` : the refreshes of a list of matches.
* `refreshAll` : a row after a list of refreshes.
* `Refreshed` : the effect of the loop on the table of vulnerabilities.
-/

namespace ArgusSbomGuard

variable (env : Env)

/-- The values that a match has for the row of its CVE. -/
structure Refresh where
  m : GrypeMatch
  cvss : Option PyFloat
  epss : Option PyFloat
  percentile : Option PyFloat
  description : Option String

/-- The row of the CVE after the update at the end of `_upsert_vulnerability`; the rows of other
CVEs stay what they are. -/
def Refresh.apply (v : Vulnerability) (u : Refresh) : Vulnerability :=
  if v.cveId = u.m.vulnId then
    refreshVulnerability u.m u.cvss u.epss u.percentile u.description v
  else v

/-- The row after all refreshes, in order. -/
def refreshAll (us : List Refresh) (v : Vulnerability) : Vulnerability := us.foldl Refresh.apply v

/-- The values that `_upsert_vulnerability` reads from a match, as far as the columns take them. -/
def readRefresh (g : GrypeMatch) : Except PyError Refresh := do
  let (epss, percentile) ← parseEpss g.vulnId g.vulnData
  let cvss ← floatParam g.cvssScore
  let _ ← timestampParam g.pubDate
  let description ← freshSummary (← g.vulnData.get "description" (.str ""))
  return ⟨g, cvss, epss, percentile, description⟩

/-- The refreshes of a list of matches; a match without an id has none. -/
def readRefreshes : List Json → Except PyError (List Refresh)
  | [] => .ok []
  | m :: ms => do
    match ← parseMatch env m with
    | none => readRefreshes ms
    | some g => return (← readRefresh g) :: (← readRefreshes ms)

variable {env} {db db' db'' : Database} {us us' : List Refresh} {u : Refresh}
  {v v' : Vulnerability}

theorem m_of_readRefresh {g : GrypeMatch} (h : readRefresh g = .ok u) : u.m = g := by
  simp only [readRefresh, bind_eq_ok, Prod.exists] at h
  obtain ⟨_, _, -, _, -, _, -, _, -, _, -, h⟩ := h
  exact congrArg Refresh.m (Except.ok.inj h).symm

/-! ### Rows -/

theorem refreshAll_append : refreshAll (us ++ us') v = refreshAll us' (refreshAll us v) :=
  List.foldl_append

@[simp] theorem cveId_apply : (Refresh.apply v u).cveId = v.cveId := by
  unfold Refresh.apply
  split_ifs <;> rfl

@[simp] theorem id_apply : (Refresh.apply v u).id = v.id := by
  unfold Refresh.apply
  split_ifs <;> rfl

/-- A column on which a refresh of the row's own CVE acts by `f` is folded by `f`. -/
theorem column_refreshAll {γ : Type*} {col : Vulnerability → γ} {f : γ → Refresh → γ}
    (h : ∀ v u, v.cveId = u.m.vulnId → col (Refresh.apply v u) = f (col v) u) :
    col (refreshAll us v) = (us.filter fun u => u.m.vulnId == v.cveId).foldl f (col v) := by
  induction us generalizing v with
  | nil => rfl
  | cons u us ih =>
    change col (refreshAll us (Refresh.apply v u)) = _
    rw [ih, cveId_apply]
    by_cases hu : v.cveId = u.m.vulnId
    · rw [h v u hu, List.filter_cons_of_pos (by simpa using hu.symm), List.foldl_cons]
    · rw [List.filter_cons_of_neg (by simpa using Ne.symm hu), Refresh.apply, if_neg hu]

/-- A column that no refresh changes. -/
theorem column_refreshAll_eq {γ : Type*} {col : Vulnerability → γ}
    (h : ∀ v u, col (Refresh.apply v u) = col v) : col (refreshAll us v) = col v := by
  induction us generalizing v with
  | nil => rfl
  | cons u us ih => exact ih.trans (h v u)

@[simp] theorem cveId_refreshAll : (refreshAll us v).cveId = v.cveId :=
  column_refreshAll_eq fun _ _ => cveId_apply

@[simp] theorem id_refreshAll : (refreshAll us v).id = v.id :=
  column_refreshAll_eq fun _ _ => id_apply

/-- The refreshes of other CVEs leave a row alone. -/
theorem refreshAll_of_ne (h : ∀ u ∈ us, u.m.vulnId ≠ v.cveId) : refreshAll us v = v := by
  induction us with
  | nil => rfl
  | cons u us ih =>
    have hu : Refresh.apply v u = v := if_neg (Ne.symm (h u List.mem_cons_self))
    change refreshAll us (Refresh.apply v u) = v
    rw [hu]
    exact ih fun u' hu' => h u' (List.mem_cons_of_mem _ hu')

/-- A column whose rule is replayed without effect. -/
theorem column_replay {γ : Type*} {col : Vulnerability → γ} {f : γ → Refresh → γ}
    (h : ∀ v u, v.cveId = u.m.vulnId → col (Refresh.apply v u) = f (col v) u)
    (hf : ∀ (xs : List Refresh) a, xs.foldl f (xs.foldl f a) = xs.foldl f a) :
    col (refreshAll us (refreshAll us v)) = col (refreshAll us v) := by
  rw [column_refreshAll h, column_refreshAll h, cveId_refreshAll, hf]

attribute [ext] Vulnerability

theorem apply_eq (h : v.cveId = u.m.vulnId) : Refresh.apply v u =
    refreshVulnerability u.m u.cvss u.epss u.percentile u.description v :=
  if_pos h

/-- **The same refreshes once more change nothing.** -/
theorem refreshAll_replay : refreshAll us (refreshAll us v) = refreshAll us v := by
  ext1
  case id => simp only [id_refreshAll]
  case cveId => simp only [cveId_refreshAll]
  case source =>
    have hsource : ∀ v u, (Refresh.apply v u).source = v.source := fun v u => by
      unfold Refresh.apply
      split_ifs <;> rfl
    exact column_refreshAll_eq hsource
  case severity =>
    exact column_replay (fun v u h => by rw [apply_eq h]; rfl)
      (foldl_overwrite_replay fun u => some u.m.severity)
  case cvssScore =>
    exact column_replay (fun v u h => by rw [apply_eq h]; rfl)
      (foldl_overwrite_replay fun u => u.cvss)
  case epssScore =>
    exact column_replay (fun v u h => by rw [apply_eq h]; rfl)
      (foldl_coalesce_replay fun u => u.epss)
  case epssPercentile =>
    exact column_replay (fun v u h => by rw [apply_eq h]; rfl)
      (foldl_coalesce_replay fun u => u.percentile)
  case summary =>
    exact column_replay (fun v u h => by rw [apply_eq h]; rfl)
      (foldl_coalesce_replay fun u => u.description)
  case affectedPackages =>
    exact column_replay (f := collect (· = "") fun u => u.m.purl)
      (fun v u h => by rw [apply_eq h]; rfl) fun _ _ => foldl_collect_replay
  case publishedAt =>
    exact column_replay (fun v u h => by rw [apply_eq h]; rfl)
      (foldl_coalesce_replay fun u => u.m.pubDate)
  case extraData =>
    exact column_replay (fun v u h => by rw [apply_eq h]; rfl)
      (foldl_overwrite_replay fun u => u.m.vulnData)

/-! ### The table -/

/-- `v` is the row that a CVE without a row gets from the first of the refreshes `us` about it. -/
def FirstRow (us : List Refresh) (v : Vulnerability) : Prop :=
  ∃ us₁ u us₂, us = us₁ ++ u :: us₂ ∧ (∀ x ∈ us₁, x.m.vulnId ≠ u.m.vulnId) ∧
    ∃ id summary, v = newVulnerability id u.m u.cvss u.epss u.percentile summary

/-- The effect of the refreshes `us` on the table of vulnerabilities: every row is refreshed, and
the CVEs without a row get one first. -/
structure Refreshed (us : List Refresh) (db db' : Database) : Prop where
  kept : ∀ v ∈ db.vulnerabilities, refreshAll us v ∈ db'.vulnerabilities
  origin : ∀ v' ∈ db'.vulnerabilities, ∃ v, v' = refreshAll us v ∧
    (v ∈ db.vulnerabilities ∨ ((∀ a ∈ db.vulnerabilities, a.cveId ≠ v.cveId) ∧ FirstRow us v))
  stored : ∀ u ∈ us, ∃ v ∈ db'.vulnerabilities, v.cveId = u.m.vulnId

theorem FirstRow.exists_mem (h : FirstRow us v) : ∃ u ∈ us, u.m.vulnId = v.cveId := by
  obtain ⟨us₁, u, us₂, rfl, -, id, summary, rfl⟩ := h
  exact ⟨u, by simp, rfl⟩

theorem FirstRow.append_right (h : FirstRow us v) : FirstRow (us ++ us') v := by
  obtain ⟨us₁, u, us₂, rfl, hfirst, hrow⟩ := h
  exact ⟨us₁, u, us₂ ++ us', by simp, hfirst, hrow⟩

theorem FirstRow.append_left (h : FirstRow us' v) (hno : ∀ x ∈ us, x.m.vulnId ≠ v.cveId) :
    FirstRow (us ++ us') v := by
  obtain ⟨us₁, u, us₂, rfl, hfirst, id, summary, rfl⟩ := h
  refine ⟨us ++ us₁, u, us₂, by simp, fun x hx => ?_, id, summary, rfl⟩
  exact (List.mem_append.1 hx).elim (hno x) (hfirst x)

namespace Refreshed

theorem refl (db : Database) : Refreshed [] db db where
  kept _ hv := hv
  origin v' hv' := ⟨v', rfl, .inl hv'⟩
  stored _ hu := absurd hu List.not_mem_nil

theorem trans (h : Refreshed us db db') (h' : Refreshed us' db' db'') :
    Refreshed (us ++ us') db db'' where
  kept v hv := by
    rw [refreshAll_append]
    exact h'.kept _ (h.kept v hv)
  origin v'' hv'' := by
    obtain ⟨v', rfl, hv' | ⟨hno', hfirst⟩⟩ := h'.origin v'' hv''
    · obtain ⟨v, rfl, hv | ⟨hno, hfirst⟩⟩ := h.origin v' hv'
      · exact ⟨v, refreshAll_append.symm, .inl hv⟩
      · exact ⟨v, refreshAll_append.symm, .inr ⟨hno, hfirst.append_right⟩⟩
    -- a row of the second part: the first part had no refresh for its CVE
    · have hnone : ∀ x ∈ us, x.m.vulnId ≠ v'.cveId := by
        intro x hx heq
        obtain ⟨a, ha, hac⟩ := h.stored x hx
        exact hno' a ha (hac.trans heq)
      refine ⟨v', ?_, .inr ⟨fun a ha heq => ?_, hfirst.append_left hnone⟩⟩
      · rw [refreshAll_append, refreshAll_of_ne hnone]
      · exact hno' _ (h.kept a ha) (by rw [cveId_refreshAll, heq])
  stored u hu := by
    rcases List.mem_append.1 hu with hu | hu
    · obtain ⟨v, hv, hc⟩ := h.stored u hu
      exact ⟨_, h'.kept v hv, by rw [cveId_refreshAll, hc]⟩
    · exact h'.stored u hu

end Refreshed

/-! ### The loop -/

/-- The update at the end of `_upsert_vulnerability`, on the whole table. -/
theorem mem_write_setVulnerability (hv : v ∈ db.vulnerabilities) (hc : v.cveId = u.m.vulnId)
    (v' : Vulnerability) : v' ∈ (db.write (.setVulnerability (Refresh.apply v u))).vulnerabilities ↔
      ∃ a ∈ db.vulnerabilities, v' = Refresh.apply a u := by
  refine List.mem_map.trans (exists_congr fun a => and_congr_right fun ha => ?_)
  have hrow : (if a.id == (Refresh.apply v u).id then
      { Refresh.apply v u with id := a.id, cveId := a.cveId } else a) = Refresh.apply a u := by
    rw [id_apply]
    split_ifs with hid
    · obtain rfl := Table.eq_of_clash ha hv (.inl (beq_iff_eq.1 hid))
      rw [apply_eq hc]
      rfl
    · refine (if_neg fun hca => hid (beq_iff_eq.2 ?_)).symm
      rw [Table.eq_of_clash ha hv (.inr (hca.trans hc.symm))]
  rw [hrow, eq_comm]

/-- What looking a CVE up and inserting it did to the table, up to the update that follows. -/
theorem findOrInsertVulnerability_refreshed {mk : Except PyError Vulnerability}
    {ws : List Write} (hmk : ∀ a, mk = .ok a → ∃ id summary,
      a = newVulnerability id u.m u.cvss u.epss u.percentile summary)
    (h : findOrInsertVulnerability db u.m.vulnId mk = .ok (ws, v)) :
    v.cveId = u.m.vulnId ∧
      Refreshed [u] db (db.writeAll (ws ++ [.setVulnerability (Refresh.apply v u)])) := by
  unfold findOrInsertVulnerability at h
  rw [Database.writeAll_append]
  split at h
  · rename_i a ha
    obtain ⟨rfl, rfl⟩ := Prod.mk.inj (Except.ok.inj h)
    obtain ⟨hmem, hcve⟩ := Table.mem_of_find? ha
    have hset := mem_write_setVulnerability hmem (beq_iff_eq.1 hcve)
    refine ⟨beq_iff_eq.1 hcve, fun v hv => (hset _).2 ⟨v, hv, rfl⟩, fun v' hv' => ?_,
      fun x hx => ?_⟩
    · obtain ⟨v, hv, rfl⟩ := (hset v').1 hv'
      exact ⟨v, rfl, .inl hv⟩
    · rw [List.mem_singleton.1 hx]
      exact ⟨_, (hset _).2 ⟨a, hmem, rfl⟩, by rw [cveId_apply, beq_iff_eq.1 hcve]⟩
  · rename_i hnone
    obtain ⟨a, hmka, h⟩ := bind_eq_ok.1 h
    split at h
    · rename_i db₁ hins
      obtain ⟨rfl, rfl⟩ := Prod.mk.inj (Except.ok.inj h)
      obtain ⟨t, ht, htab⟩ := Database.insertVulnerability_eq_ok hins
      have hdb₁ : db.writeAll [.addVulnerability a] = db₁ := by
        simp [Database.writeAll, Database.write, hins]
      have hmem : ∀ {b}, b ∈ db₁.vulnerabilities ↔ b ∈ db.vulnerabilities ∨ b = a := by
        intro b
        rw [htab]
        exact Table.mem_insert? ht
      obtain ⟨id, summary, hrow⟩ := hmk a hmka
      have hcve : a.cveId = u.m.vulnId := by rw [hrow]; rfl
      have hset := mem_write_setVulnerability (hmem.2 (.inr rfl)) hcve
      rw [hdb₁]
      refine ⟨hcve, fun v hv => (hset _).2 ⟨v, hmem.2 (.inl hv), rfl⟩, fun v' hv' => ?_,
        fun x hx => ?_⟩
      · obtain ⟨v, hv, rfl⟩ := (hset v').1 hv'
        refine ⟨v, rfl, (hmem.1 hv).imp_right fun heq => ?_⟩
        rw [heq]
        refine ⟨fun b hb hbc => ?_, [], u, [], rfl, fun _ hx => absurd hx List.not_mem_nil,
          id, summary, hrow⟩
        have hne : (b.cveId == u.m.vulnId) = false := Table.find?_eq_none.1 hnone b hb
        rw [hbc, hcve, beq_self_eq_true] at hne
        cases hne
      · rw [List.mem_singleton.1 hx]
        exact ⟨_, (hset _).2 ⟨a, hmem.2 (.inr rfl), rfl⟩, by rw [cveId_apply, hcve]⟩
    · cases h
    · cases h

/-- One upsert refreshes the table with the values of its match. -/
theorem upsertVulnerability_refreshed {newId : Uuid} {g : GrypeMatch} {ws : List Write}
    (h : upsertVulnerability db newId g = .ok (ws, v)) :
    ∃ u, readRefresh g = .ok u ∧ Refreshed [u] db (db.writeAll ws) := by
  simp only [upsertVulnerability, bind_eq_ok, Prod.exists] at h
  obtain ⟨epss, percentile, hepss, cvss, hcvss, published, hpub, description, hdesc, ws₀, v₀,
    hfind, fresh, hfresh, h⟩ := h
  split at h
  case isFalse => cases h
  obtain ⟨rfl, rfl⟩ := Prod.mk.inj (Except.ok.inj h)
  refine ⟨⟨g, cvss, epss, percentile, fresh⟩, ?_, ?_⟩
  · simp only [readRefresh, bind_eq_ok, Prod.exists]
    exact ⟨epss, percentile, hepss, cvss, hcvss, published, hpub, description, hdesc, fresh, hfresh,
      rfl⟩
  · have hmk : ∀ a, (do
        return newVulnerability newId g cvss epss percentile (← textParam description)) = .ok a →
          ∃ id summary, a = newVulnerability id g cvss epss percentile summary := by
      intro a ha
      obtain ⟨summary, -, ha⟩ := bind_eq_ok.1 ha
      exact ⟨newId, summary, (Except.ok.inj ha).symm⟩
    obtain ⟨hcve, hrefreshed⟩ :=
      findOrInsertVulnerability_refreshed (u := ⟨g, cvss, epss, percentile, fresh⟩) hmk hfind
    rwa [apply_eq hcve] at hrefreshed

/-- Linking leaves the vulnerabilities alone. -/
theorem linkVulnerability_vulnerabilities {sbom : SBOM} {purl : String} {ws : List Write}
    (h : linkVulnerability db sbom v purl = .ok ws) :
    (db.writeAll ws).vulnerabilities = db.vulnerabilities := by
  rcases linkVulnerability_eq_ok h with ⟨rfl, -⟩ | ⟨-, rfl, db', hins⟩
  · rfl
  · obtain ⟨-, t, -, htab⟩ := Database.insertLink_eq_ok hins
    have hdb' : db.writeAll [.addLink (newLink sbom purl v.id)] = db' := by
      simp [Database.writeAll, Database.write, hins]
    rw [hdb', htab]

/-- **The loop over the matches refreshes the table with their values.** -/
theorem processMatches_refreshed {sbom : SBOM} {newId : String → Uuid} {ms vulns : List Json}
    (h : processMatches env sbom newId db ms = .ok (db', vulns)) :
    ∃ us, readRefreshes env ms = .ok us ∧ Refreshed us db db' := by
  induction ms generalizing db vulns with
  | nil =>
    obtain ⟨rfl, rfl⟩ := Prod.mk.inj (Except.ok.inj h)
    exact ⟨[], rfl, .refl db⟩
  | cons m ms ih =>
    simp only [processMatches, bind_eq_ok, Prod.exists] at h
    obtain ⟨db₁, vs, hone, db₂, rest, hrest, h⟩ := h
    obtain ⟨rfl, rfl⟩ := Prod.mk.inj (Except.ok.inj h)
    obtain ⟨us, hus, hrefreshed⟩ := ih hrest
    obtain ⟨g?, hparse, hone⟩ := bind_eq_ok.1 hone
    simp only [readRefreshes, bind_eq_ok]
    cases g? with
    | none =>
      obtain ⟨rfl, rfl⟩ := Prod.mk.inj (Except.ok.inj hone)
      exact ⟨us, ⟨none, hparse, hus⟩, hrefreshed⟩
    | some g =>
      simp only [bind_eq_ok, Prod.exists] at hone
      obtain ⟨ws, v, hups, ws', hlink, hone⟩ := hone
      obtain ⟨rfl, rfl⟩ := Prod.mk.inj (Except.ok.inj hone)
      obtain ⟨u, hu, hfirst⟩ := upsertVulnerability_refreshed hups
      refine ⟨u :: us, ⟨some g, hparse, bind_eq_ok.2 ⟨u, hu, bind_eq_ok.2 ⟨us, hus, rfl⟩⟩⟩, ?_⟩
      have hsame := linkVulnerability_vulnerabilities hlink
      have hlinked : Refreshed [u] db ((db.writeAll ws).writeAll ws') :=
        ⟨hsame ▸ hfirst.kept, hsame ▸ hfirst.origin, hsame ▸ hfirst.stored⟩
      exact hlinked.trans hrefreshed

end ArgusSbomGuard
