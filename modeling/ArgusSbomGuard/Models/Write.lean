import ArgusSbomGuard.Models.Database

/-!
# Row writes of the scan, and how its tables are read

A statement of the scan computes, from the database it sees, the rows it writes.  The writes
are first-order data (`Write`), so that the same statement can be run against the database
itself (`Database.writeAll`) or inside an open transaction whose writes other transactions do
not see yet.

Vulnerabilities are read through `Database.HasCve`, the relation between the identifier and
the CVE id of a stored vulnerability, which no statement ever breaks, and links through
`Database.HasLink`, which names a link by SBOM, package and CVE id.
-/

namespace ArgusSbomGuard

/-- `.values(status=FIXED, fixed_at=now)`. -/
def SBOMVulnerability.fix (now : DateTime) (l : SBOMVulnerability) : SBOMVulnerability :=
  { l with status := .FIXED, fixedAt := some now }

/-- `.values(status=OPEN, fixed_at=None)`. -/
def SBOMVulnerability.reopen (l : SBOMVulnerability) : SBOMVulnerability :=
  { l with status := .OPEN, fixedAt := none }

@[simp] theorem key_fix (now : DateTime) (l : SBOMVulnerability) : (l.fix now).key = l.key := rfl

@[simp] theorem key_reopen (l : SBOMVulnerability) : l.reopen.key = l.key := rfl

/-- A row written by a statement of a scan. -/
inductive Write
  | addVulnerability (v : Vulnerability)
  | setVulnerability (v : Vulnerability)
  | addLink (l : SBOMVulnerability)
  | fixLinks (keys : List LinkKey) (now : DateTime)

/-- The write is one of a vulnerability, not of links. -/
def Write.IsVulnerability : Write → Prop
  | .addVulnerability _ => True
  | .setVulnerability _ => True
  | .addLink _ => False
  | .fixLinks _ _ => False

namespace Database

variable (db : Database)

/-- Carry out one write; a write that violates a constraint has no effect. -/
def write : Write → Database
  | .addVulnerability v => match db.insertVulnerability v with
    | .ok db' => db'
    | .error _ => db
  | .setVulnerability v => db.updateVulnerability (fun a => a.id == v.id)
      (fun a => { v with id := a.id, cveId := a.cveId }) (fun _ => rfl) (fun _ => rfl)
  | .addLink l => match db.insertLink l with
    | .ok db' => db'
    | .error _ => db
  | .fixLinks keys now => db.updateLinks (fun l => keys.contains l.key) (·.fix now)
      (key_fix now)

/-- Carry out writes in order. -/
def writeAll (ws : List Write) : Database := ws.foldl write db

/-- The write of `UPDATE sbom_vulnerabilities SET status = 'fixed', fixed_at = now WHERE p`. -/
def fixWhere (p : SBOMVulnerability → Bool) (now : DateTime) : Write :=
  .fixLinks ((db.links.rows.filter p).map (·.key)) now

/-- A stored vulnerability has identifier `i` and CVE id `c`. -/
def HasCve (i : Uuid) (c : String) : Prop := ∃ v ∈ db.vulnerabilities, v.id = i ∧ v.cveId = c

instance (i : Uuid) (c : String) : Decidable (db.HasCve i c) :=
  inferInstanceAs (Decidable (∃ v ∈ db.vulnerabilities, _))

/-- A link of SBOM `s` for the package `purl` and the CVE id `c` has status `st`. -/
def HasLink (s : Uuid) (purl c : String) (st : VulnerabilityStatus) : Prop :=
  ∃ l ∈ db.links, (l.sbomId = s ∧ l.dependencyPurl = purl ∧ l.status = st) ∧
    db.HasCve l.vulnerabilityId c

instance (s : Uuid) (purl c : String) (st : VulnerabilityStatus) :
    Decidable (db.HasLink s purl c st) :=
  inferInstanceAs (Decidable (∃ l ∈ db.links, _))

/-- The vulnerabilities with an open link on SBOM `s`. -/
def OpenOn (s v : Uuid) : Prop :=
  ∃ l ∈ db.links, l.sbomId = s ∧ l.vulnerabilityId = v ∧ l.status = .OPEN

instance (s v : Uuid) : Decidable (db.OpenOn s v) :=
  inferInstanceAs (Decidable (∃ l ∈ db.links, _))

/-- The vulnerabilities with a link, open or fixed, on SBOM `s`. -/
def LinkedOn (s v : Uuid) : Prop := ∃ l ∈ db.links, l.sbomId = s ∧ l.vulnerabilityId = v

instance (s v : Uuid) : Decidable (db.LinkedOn s v) :=
  inferInstanceAs (Decidable (∃ l ∈ db.links, _))

variable {db} {db' : Database}

/-! ### Identifiers and CVE ids -/

theorem HasCve.cve_unique {i : Uuid} {c c' : String} (h : db.HasCve i c)
    (h' : db.HasCve i c') : c = c' := by
  obtain ⟨v, hv, hi, rfl⟩ := h
  obtain ⟨v', hv', hi', rfl⟩ := h'
  rw [Table.eq_of_clash hv hv' (.inl (hi.trans hi'.symm))]

theorem HasCve.id_unique {i i' : Uuid} {c : String} (h : db.HasCve i c)
    (h' : db.HasCve i' c) : i = i' := by
  obtain ⟨v, hv, rfl, hc⟩ := h
  obtain ⟨v', hv', rfl, hc'⟩ := h'
  rw [Table.eq_of_clash hv hv' (.inr (hc.trans hc'.symm))]

/-- Every link has a CVE id. -/
theorem exists_hasCve {l : SBOMVulnerability} (hl : l ∈ db.links) :
    ∃ c, db.HasCve l.vulnerabilityId c := by
  obtain ⟨v, hv, hid⟩ := db.linksVulnerability l hl
  exact ⟨v.cveId, v, hv, hid, rfl⟩

theorem link_eq {a b : SBOMVulnerability} (ha : a ∈ db.links) (hb : b ∈ db.links)
    (h : a.key = b.key) : a = b :=
  Table.eq_of_clash ha hb h

theorem sbom_eq {a b : SBOM} (ha : a ∈ db.sboms) (hb : b ∈ db.sboms) (h : a.id = b.id) :
    a = b :=
  Table.eq_of_clash ha hb (.inl h)

theorem service_eq {a b : Service} (ha : a ∈ db.services) (hb : b ∈ db.services)
    (h : a.id = b.id) : a = b :=
  Table.eq_of_clash ha hb (.inl h)

/-! ### The effect of a write -/

/-- A write of a scan changes nothing but vulnerabilities and links. -/
theorem write_frame (w : Write) :
    (db.write w).toTables = { db.toTables with
      vulnerabilities := (db.write w).vulnerabilities, links := (db.write w).links } := by
  cases w with
  | addVulnerability v =>
    simp only [write]
    split
    · rename_i db' h
      obtain ⟨t, -, ht⟩ := insertVulnerability_eq_ok h
      rw [ht]
    · rfl
  | setVulnerability v => rfl
  | addLink l =>
    simp only [write]
    split
    · rename_i db' h
      obtain ⟨-, t, -, ht⟩ := insertLink_eq_ok h
      rw [ht]
    · rfl
  | fixLinks keys now => rfl

@[simp] theorem write_sboms (w : Write) : (db.write w).sboms = db.sboms := by
  rw [write_frame]

theorem writeAll_frame (ws : List Write) :
    (db.writeAll ws).toTables = { db.toTables with
      vulnerabilities := (db.writeAll ws).vulnerabilities,
      links := (db.writeAll ws).links } := by
  induction ws generalizing db with
  | nil => rfl
  | cons w ws ih =>
    change ((db.write w).writeAll ws).toTables = _
    rw [ih, write_frame w]
    rfl

@[simp] theorem writeAll_sboms (ws : List Write) : (db.writeAll ws).sboms = db.sboms := by
  rw [writeAll_frame]

/-- No write removes a vulnerability or changes its identifier or CVE id. -/
theorem HasCve.write {i : Uuid} {c : String} (h : db.HasCve i c) (w : Write) :
    (db.write w).HasCve i c := by
  cases w with
  | addVulnerability v =>
    simp only [Database.write]
    split
    · rename_i db' hdb'
      obtain ⟨t, ht, htab⟩ := insertVulnerability_eq_ok hdb'
      unfold HasCve
      rw [htab]
      exact Table.exists_mem_insert? ht h
    · exact h
  | setVulnerability v =>
    obtain ⟨a, ha, hi, hc⟩ := h
    refine ⟨_, List.mem_map.2 ⟨a, ha, rfl⟩, ?_⟩
    split_ifs <;> exact ⟨hi, hc⟩
  | addLink l =>
    simp only [Database.write]
    split
    · rename_i db' hdb'
      obtain ⟨-, t, -, htab⟩ := insertLink_eq_ok hdb'
      unfold HasCve
      rw [htab]
      exact h
    · exact h
  | fixLinks keys now => exact h

theorem HasCve.writeAll {i : Uuid} {c : String} (h : db.HasCve i c) (ws : List Write) :
    (db.writeAll ws).HasCve i c := by
  induction ws generalizing db with
  | nil => exact h
  | cons w ws ih => exact ih (h.write w)

/-- A write of a vulnerability leaves the links alone. -/
theorem write_links {w : Write} (hw : w.IsVulnerability) : (db.write w).links = db.links := by
  cases w with
  | addVulnerability v =>
    simp only [write]
    split
    · rename_i db' h
      obtain ⟨t, -, ht⟩ := insertVulnerability_eq_ok h
      rw [ht]
    · rfl
  | setVulnerability v => rfl
  | addLink l => exact hw.elim
  | fixLinks keys now => exact hw.elim

theorem writeAll_links {ws : List Write} (hws : ∀ w ∈ ws, w.IsVulnerability) :
    (db.writeAll ws).links = db.links := by
  induction ws generalizing db with
  | nil => rfl
  | cons w ws ih =>
    change ((db.write w).writeAll ws).links = _
    rw [ih fun w' hw' => hws w' (List.mem_cons_of_mem _ hw'),
      write_links (hws w List.mem_cons_self)]

theorem writeAll_append (ws ws' : List Write) :
    db.writeAll (ws ++ ws') = (db.writeAll ws).writeAll ws' :=
  List.foldl_append

/-! ### Updates of many links at once -/

/-- `db'` is `db` with `f` applied to the links that satisfy `P`. -/
structure LinksUpdated (P : SBOMVulnerability → Prop) (f : SBOMVulnerability → SBOMVulnerability)
    (db db' : Database) : Prop where
  frame : db'.toTables = { db.toTables with links := db'.links }
  mem : ∀ l, l ∈ db'.links ↔ ∃ a ∈ db.links, (P a ∧ f a = l) ∨ (¬ P a ∧ a = l)

namespace LinksUpdated

variable {P Q : SBOMVulnerability → Prop} {f : SBOMVulnerability → SBOMVulnerability}
  {a l : SBOMVulnerability}

theorem changed (h : LinksUpdated P f db db') (ha : a ∈ db.links) (hP : P a) :
    f a ∈ db'.links :=
  (h.mem _).2 ⟨a, ha, .inl ⟨hP, rfl⟩⟩

theorem kept (h : LinksUpdated P f db db') (ha : a ∈ db.links) (hP : ¬ P a) : a ∈ db'.links :=
  (h.mem _).2 ⟨a, ha, .inr ⟨hP, rfl⟩⟩

theorem image (h : LinksUpdated P f db db') (ha : a ∈ db.links) :
    ∃ l ∈ db'.links, (P a ∧ f a = l) ∨ (¬ P a ∧ a = l) := by
  by_cases hP : P a
  · exact ⟨f a, h.changed ha hP, .inl ⟨hP, rfl⟩⟩
  · exact ⟨a, h.kept ha hP, .inr ⟨hP, rfl⟩⟩

theorem congr (h : LinksUpdated P f db db') (hPQ : ∀ a ∈ db.links, P a ↔ Q a) :
    LinksUpdated Q f db db' where
  frame := h.frame
  mem l := (h.mem l).trans <| exists_congr fun a => and_congr_right fun ha => by rw [hPQ a ha]

/-- An update that selects nothing. -/
theorem refl (hP : ∀ a ∈ db.links, ¬ P a) : LinksUpdated P f db db where
  frame := rfl
  mem l := by
    constructor
    · exact fun hl => ⟨l, hl, .inr ⟨hP l hl, rfl⟩⟩
    · rintro ⟨a, ha, ⟨hPa, -⟩ | ⟨-, rfl⟩⟩
      · exact absurd hPa (hP a ha)
      · exact ha

/-- Two updates by the same function, of which the second selects nothing that the first one
changed, are one update. -/
theorem trans {db'' : Database} (h : LinksUpdated P f db db') (h' : LinksUpdated Q f db' db'')
    (hQ : ∀ a ∈ db.links, P a → ¬ Q (f a)) :
    LinksUpdated (fun a => P a ∨ Q a) f db db'' where
  frame := by rw [h'.frame, h.frame]
  mem l := by
    constructor
    · intro hl
      obtain ⟨b, hb, hcase'⟩ := (h'.mem l).1 hl
      obtain ⟨a, ha, ⟨hP, rfl⟩ | ⟨hP, rfl⟩⟩ := (h.mem b).1 hb
      · obtain ⟨hQ', -⟩ | ⟨-, rfl⟩ := hcase'
        · exact absurd hQ' (hQ a ha hP)
        · exact ⟨a, ha, .inl ⟨.inl hP, rfl⟩⟩
      · obtain ⟨hQ', rfl⟩ | ⟨hQ', rfl⟩ := hcase'
        · exact ⟨a, ha, .inl ⟨.inr hQ', rfl⟩⟩
        · exact ⟨a, ha, .inr ⟨not_or.2 ⟨hP, hQ'⟩, rfl⟩⟩
    · rintro ⟨a, ha, ⟨hPQ, rfl⟩ | ⟨hPQ, rfl⟩⟩
      · by_cases hP : P a
        · exact h'.kept (h.changed ha hP) (hQ a ha hP)
        · exact h'.changed (h.kept ha hP) (hPQ.resolve_left hP)
      · obtain ⟨hP, hQ'⟩ := not_or.1 hPQ
        exact h'.kept (h.kept ha hP) hQ'

theorem sboms (h : LinksUpdated P f db db') : db'.sboms = db.sboms := by rw [h.frame]

theorem hasCve (h : LinksUpdated P f db db') {i : Uuid} {c : String} :
    db'.HasCve i c ↔ db.HasCve i c := by
  unfold HasCve
  rw [h.frame]

/-- Fixing links closes what they kept open. -/
theorem openOn_fix {now : DateTime} (h : LinksUpdated P (·.fix now) db db') {s v : Uuid} :
    db'.OpenOn s v ↔
      ∃ a ∈ db.links, (a.sbomId = s ∧ a.vulnerabilityId = v ∧ a.status = .OPEN) ∧ ¬ P a := by
  constructor
  · rintro ⟨l, hl, hs, hv, ho⟩
    obtain ⟨a, ha, ⟨-, rfl⟩ | ⟨hP, rfl⟩⟩ := (h.mem l).1 hl
    · cases ho
    · exact ⟨a, ha, ⟨hs, hv, ho⟩, hP⟩
  · rintro ⟨a, ha, hopen, hP⟩
    exact ⟨a, h.kept ha hP, hopen⟩

end LinksUpdated

theorem updateLinks_updated {p : SBOMVulnerability → Bool}
    {f : SBOMVulnerability → SBOMVulnerability} (hf : ∀ l, (f l).key = l.key) :
    LinksUpdated (fun l => p l = true) f db (db.updateLinks p f hf) where
  frame := rfl
  mem l := by
    refine (mem_updateLinks hf).trans (exists_congr fun a => and_congr_right fun _ => ?_)
    split_ifs with hp <;> simp [hp]

/-- The write fixes the rows that were selected. -/
theorem fixWhere_updated {p : SBOMVulnerability → Bool} {now : DateTime} :
    LinksUpdated (fun l => p l = true) (·.fix now) db (db.write (db.fixWhere p now)) := by
  refine (updateLinks_updated (key_fix now)).congr fun a ha => ?_
  rw [List.contains_iff_mem, List.mem_map]
  constructor
  · rintro ⟨b, hb, hkey⟩
    obtain ⟨hb, hpb⟩ := List.mem_filter.1 hb
    rwa [link_eq hb ha hkey] at hpb
  · exact fun hp => ⟨a, List.mem_filter.2 ⟨ha, hp⟩, rfl⟩

/-- The rows that were selected are fixed in their places. -/
theorem fixWhere_rows {p : SBOMVulnerability → Bool} {now : DateTime} :
    (db.write (db.fixWhere p now)).links.rows =
      db.links.rows.map fun l => if p l then l.fix now else l := by
  refine List.map_congr_left fun l hl => ?_
  have hsel : ((db.links.rows.filter p).map (·.key)).contains l.key = p l := by
    rw [Bool.eq_iff_iff, List.contains_iff_mem, List.mem_map]
    constructor
    · rintro ⟨a, ha, hkey⟩
      obtain ⟨ha, hpa⟩ := List.mem_filter.1 ha
      rwa [link_eq ha hl hkey] at hpa
    · exact fun hp => ⟨l, List.mem_filter.2 ⟨hl, hp⟩, rfl⟩
  simp only [hsel]

/-- A write that selects nothing. -/
theorem write_fixWhere_of_forall {p : SBOMVulnerability → Bool} {now : DateTime}
    (hp : ∀ l ∈ db.links, p l = false) : db.write (db.fixWhere p now) = db := by
  have hrows : (db.write (db.fixWhere p now)).links.rows = db.links.rows := by
    rw [fixWhere_rows]
    refine (List.map_congr_left fun l hl => ?_).trans (List.map_id _)
    simp [hp l hl]
  refine ext ?_
  rw [write_frame, Table.ext_rows hrows]
  rfl

end Database

/-! ### The links that writes fix -/

/-- The links that a write fixes. -/
def Write.fixed : Write → List LinkKey
  | .fixLinks keys _ => keys
  | _ => []

/-- The links that some of the writes fix. -/
def fixedKeys (ws : List Write) : List LinkKey := ws.flatMap Write.fixed

theorem fixedKeys_append {ws ws' : List Write} :
    fixedKeys (ws ++ ws') = fixedKeys ws ++ fixedKeys ws' :=
  List.flatMap_append

theorem fixedKeys_eq_nil {ws : List Write} (hws : ∀ w ∈ ws, w.IsVulnerability) :
    fixedKeys ws = [] := by
  refine List.flatMap_eq_nil_iff.2 fun w hw => ?_
  have hv := hws w hw
  cases w with
  | addVulnerability v => rfl
  | setVulnerability v => rfl
  | addLink l => exact hv.elim
  | fixLinks keys now => exact hv.elim

namespace Database

variable {db : Database}

theorem mem_fixed_fixWhere {p : SBOMVulnerability → Bool} {now : DateTime} {k : LinkKey} :
    k ∈ (db.fixWhere p now).fixed ↔ ∃ l ∈ db.links, p l = true ∧ l.key = k := by
  simp only [fixWhere, Write.fixed, List.mem_map, List.mem_filter, and_assoc, Table.mem_rows]

theorem fixWhere_ne_addLink {p : SBOMVulnerability → Bool} {now : DateTime}
    (l : SBOMVulnerability) : .addLink l ≠ db.fixWhere p now := by
  intro h
  cases h

/-- The open links after writes that insert no link. -/
theorem mem_writeAll_open {ws : List Write} (hws : ∀ l, .addLink l ∉ ws) {l : SBOMVulnerability}
    (ho : l.status = .OPEN) :
    l ∈ (db.writeAll ws).links ↔ l ∈ db.links ∧ l.key ∉ fixedKeys ws := by
  induction ws generalizing db with
  | nil => simp [writeAll, fixedKeys]
  | cons w ws ih =>
    -- the first write, on a link that is open; the others by induction
    have hone : l ∈ (db.write w).links ↔ l ∈ db.links ∧ l.key ∉ w.fixed := by
      cases w with
      | addVulnerability v =>
        have hlinks : (db.write (.addVulnerability v)).links = db.links := write_links trivial
        simp [hlinks, Write.fixed]
      | setVulnerability v =>
        have hlinks : (db.write (.setVulnerability v)).links = db.links := rfl
        simp [hlinks, Write.fixed]
      | addLink a => exact absurd List.mem_cons_self (hws a)
      | fixLinks keys now =>
        refine ((updateLinks_updated (key_fix now)).mem l).trans ?_
        constructor
        · rintro ⟨a, ha, ⟨-, rfl⟩ | ⟨hno, rfl⟩⟩
          · cases ho
          · exact ⟨ha, fun hk => hno (List.contains_iff_mem.2 hk)⟩
        · rintro ⟨hl, hk⟩
          exact ⟨l, hl, .inr ⟨fun hc => hk (List.contains_iff_mem.1 hc), rfl⟩⟩
    change l ∈ ((db.write w).writeAll ws).links ↔ _
    rw [ih fun a ha => hws a (List.mem_cons_of_mem _ ha), hone, fixedKeys, fixedKeys,
      List.flatMap_cons, List.mem_append, not_or, and_assoc]

theorem openOn_writeAll {ws : List Write} (hws : ∀ l, .addLink l ∉ ws) {i v : Uuid} :
    (db.writeAll ws).OpenOn i v ↔
      ∃ l ∈ db.links, (l.sbomId = i ∧ l.vulnerabilityId = v ∧ l.status = .OPEN) ∧
        l.key ∉ fixedKeys ws := by
  refine exists_congr fun l => ?_
  constructor
  · rintro ⟨hl, hi, hv, ho⟩
    obtain ⟨hl, hk⟩ := (mem_writeAll_open hws ho).1 hl
    exact ⟨hl, ⟨hi, hv, ho⟩, hk⟩
  · rintro ⟨hl, ⟨hi, hv, ho⟩, hk⟩
    exact ⟨(mem_writeAll_open hws ho).2 ⟨hl, hk⟩, hi, hv, ho⟩

end Database

end ArgusSbomGuard
