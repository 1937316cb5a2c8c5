import ArgusSbomGuard.Models.Write

/-!
# Open findings that nobody accepted

`covered_by_acceptance` of `services/acceptance.py`, and the join of links with their SBOMs that
the alerts and the counters start from.  A link is *actionable* when it is open and no acceptance
covers it.
-/

namespace ArgusSbomGuard

variable (db : Database)

/-- `covered_by_acceptance`: an acceptance covers the link, as far as `notAfter` tells. -/
def coveredByAcceptance (l : SBOMVulnerability) (s : SBOM) (notAfter : Option DateTime) : Bool :=
  db.riskAcceptances.rows.any fun a =>
    a.vulnerabilityId == l.vulnerabilityId && a.projectId == s.projectId &&
      (a.serviceId == none || a.serviceId == s.serviceId) &&
        notAfter.all fun t => decide (a.createdAt ≤ t)

/-- The links with their SBOMs, `WHERE p`. -/
def joinLinks (p : SBOMVulnerability → SBOM → Bool) : List (SBOMVulnerability × SBOM) :=
  db.links.rows.flatMap fun l =>
    (db.sboms.rows.filter fun s => s.id == l.sbomId && p l s).map fun s => (l, s)

/-- The link is open and not accepted. -/
def actionable (l : SBOMVulnerability) (s : SBOM) : Bool :=
  l.status == .OPEN && !coveredByAcceptance db l s none

/-- The vulnerability `v` has an actionable link on an SBOM of the project `p`. -/
def OpenIn (p v : Uuid) : Prop :=
  ∃ l ∈ db.links, ∃ s ∈ db.sboms, s.id = l.sbomId ∧ actionable db l s = true ∧
    l.vulnerabilityId = v ∧ s.projectId = p

instance (p v : Uuid) : Decidable (OpenIn db p v) :=
  inferInstanceAs (Decidable (∃ l ∈ db.links, ∃ s ∈ db.sboms, _))

/-- The scopes of the project `p`, a service or the SBOMs without one, in which the vulnerability
`v` has an actionable link. -/
def OpenScope (p v : Uuid) (scope : Option Uuid) : Prop :=
  ∃ l ∈ db.links, ∃ s ∈ db.sboms, s.id = l.sbomId ∧ actionable db l s = true ∧
    l.vulnerabilityId = v ∧ s.projectId = p ∧ s.serviceId = scope

instance (p v : Uuid) (scope : Option Uuid) : Decidable (OpenScope db p v scope) :=
  inferInstanceAs (Decidable (∃ l ∈ db.links, ∃ s ∈ db.sboms, _))

variable {db} {p v : Uuid}

theorem mem_joinLinks {q : SBOMVulnerability → SBOM → Bool} {l : SBOMVulnerability} {s : SBOM} :
    (l, s) ∈ joinLinks db q ↔ l ∈ db.links ∧ s ∈ db.sboms ∧ s.id = l.sbomId ∧ q l s = true := by
  simp only [joinLinks, List.mem_flatMap, List.mem_map, List.mem_filter, Bool.and_eq_true,
    beq_iff_eq, Table.mem_rows, Prod.mk.injEq]
  constructor
  · rintro ⟨l, hl, s, ⟨hs, hid, hq⟩, rfl, rfl⟩
    exact ⟨hl, hs, hid, hq⟩
  · rintro ⟨hl, hs, hid, hq⟩
    exact ⟨l, hl, s, ⟨hs, hid, hq⟩, rfl, rfl⟩

theorem openIn_iff_exists_scope : OpenIn db p v ↔ ∃ scope, OpenScope db p v scope := by
  constructor
  · rintro ⟨l, hl, s, hs, hid, hact, hv, hp⟩
    exact ⟨s.serviceId, l, hl, s, hs, hid, hact, hv, hp, rfl⟩
  · rintro ⟨_, l, hl, s, hs, hid, hact, hv, hp, -⟩
    exact ⟨l, hl, s, hs, hid, hact, hv, hp⟩

end ArgusSbomGuard
