import ArgusSbomGuard.Alerts.Orders

/-!
# The lowest threshold

`SeverityThreshold.LOW` has the label "All", but `_severity_rank` ranks what is neither critical,
high, medium nor low behind all thresholds, so a vulnerability of unknown severity, or of none, is
never announced (`unknown_not_announced`).  `coversAll_iff` says when a run attempts to announce
everything that is open in the project of a rule with this threshold.

## Main definitions

* `Unannounced` : a vulnerability is open in the project of a rule, without active notification.
* `CoversAll` : a run attempts a delivery for all of these.
* `Rated` : the vulnerability has one of the four severities.
-/

namespace ArgusSbomGuard

/-- The vulnerability is open in the project of the rule, and has no active notification yet. -/
structure Unannounced (db : Database) (ns : List Notification) (rule : AlertRule)
    (vuln : Vulnerability) : Prop where
  stored : vuln ∈ db.vulnerabilities
  isOpen : OpenIn db rule.projectId vuln.id
  inactive : activeOf (history ns (rule.id, vuln.id)) = []

/-- The run attempts a delivery for everything that the rule has not announced. -/
def CoversAll (env : Env) (db : Database) (lib : MailLibrary) (inp : CheckInput)
    (rules : Table AlertRule) (ns : List Notification) (rule : AlertRule) : Prop :=
  ∀ vuln, Unannounced db ns rule vuln →
    ∃ a ∈ (doCheckAlerts env db lib inp rules ns).attempts, a.pair = (rule.id, vuln.id)

/-- The severity is critical, high, medium or low. -/
def Rated (vuln : Vulnerability) : Prop :=
  vuln.severity ≠ none ∧ vuln.severity ≠ some .UNKNOWN

instance (vuln : Vulnerability) : Decidable (Rated vuln) := inferInstanceAs (Decidable (_ ∧ _))

variable {env : Env} {db : Database} {lib : MailLibrary} {inp : CheckInput}
  {rules : Table AlertRule} {ns : List Notification} {rule : AlertRule} {vuln : Vulnerability}

/-- The lowest threshold lets the rated severities through. -/
theorem withinThreshold_low (hlow : rule.severityThreshold = .LOW) :
    withinThreshold rule vuln = true ↔ Rated vuln := by
  unfold withinThreshold Rated
  rw [hlow]
  rcases vuln.severity with _ | severity
  · decide
  · cases severity <;> decide

/-- What has no active notification is due as soon as it is visited. -/
theorem isDue_of_unannounced (hun : Unannounced db ns rule vuln)
    (hv : Visited db rules rule vuln) : IsDue env db rules ns rule vuln := by
  refine ⟨hv, ?_⟩
  rw [visitDue, visitAction, deliveryAction_of_nil hun.inactive]
  rfl

/-- An attempt that is due is made when no earlier one raises. -/
theorem mem_untilRaised {xs ys : List Attempt} {a : Attempt}
    (h : ∀ x ∈ xs, x.outcome ≠ .raised) : a ∈ untilRaised (xs ++ a :: ys) := by
  rw [untilRaised_append h]
  exact List.mem_append_right xs mem_untilRaised_head

/-- An attempt is not made when an earlier one raises. -/
theorem notMem_untilRaised {xs ys : List Attempt} {a b : Attempt}
    (hnodup : ((xs ++ a :: ys).map Attempt.pair).Nodup) (hraise : a.outcome = .raised)
    (hb : b ∈ ys) {c : Attempt} (hc : c ∈ untilRaised (xs ++ a :: ys)) : c.pair ≠ b.pair := by
  have ha : a ∈ xs ++ [a] := List.mem_append_right xs (List.mem_singleton_self a)
  rw [List.append_cons, untilRaised_raised ha hraise] at hc
  rw [List.append_cons, List.map_append, List.nodup_append] at hnodup
  exact hnodup.2.2 _ (List.mem_map_of_mem (untilRaised_initial.subset hc)) _
    (List.mem_map_of_mem hb)

/-- **When the lowest threshold means all**: everything unannounced has one of the four severities,
and comes in the order of the run before any delivery that raises. -/
theorem coversAll_iff (hrule : rule ∈ rules) (henabled : rule.enabled = true)
    (hlow : rule.severityThreshold = .LOW) :
    CoversAll env db lib inp rules ns rule ↔
      (∀ vuln, Unannounced db ns rule vuln → Rated vuln) ∧
        ∀ xs a ys, due env db lib inp rules ns = xs ++ a :: ys → a.outcome = .raised →
          ∀ b ∈ ys, b.alertRuleId = rule.id → activeOf (history ns b.pair) ≠ [] := by
  unfold CoversAll
  rw [doCheckAlerts_attempts]
  constructor
  · intro hall
    refine ⟨fun vuln hun => ?_, fun xs a ys heq hraise b hb hid hinactive => ?_⟩
    · obtain ⟨a, ha, hpair⟩ := hall vuln hun
      obtain ⟨alert, vuln', hdue, rfl⟩ := mem_due_iff.1 (untilRaised_initial.subset ha)
      obtain ⟨halert, hvuln⟩ := Prod.mk.inj hpair
      obtain rfl : alert = rule := rule_eq hdue.visited.rule hrule halert
      obtain rfl : vuln' = vuln :=
        Table.eq_of_clash hdue.visited.stored hun.stored (.inl hvuln)
      exact (withinThreshold_low hlow).1 hdue.visited.within
    · have hbdue : b ∈ due env db lib inp rules ns :=
        heq ▸ List.mem_append_right xs (List.mem_cons_of_mem a hb)
      obtain ⟨alert, vuln, hdue, rfl⟩ := mem_due_iff.1 hbdue
      obtain rfl : alert = rule := rule_eq hdue.visited.rule hrule hid
      obtain ⟨c, hc, hpair⟩ := hall vuln ⟨hdue.visited.stored, hdue.visited.isOpen, hinactive⟩
      rw [heq] at hc
      exact notMem_untilRaised (heq ▸ nodup_due) hraise hb hc hpair
  · rintro ⟨hrated, hearlier⟩ vuln hun
    have hv : Visited db rules rule vuln :=
      ⟨hrule, henabled, hun.stored, hun.isOpen, (withinThreshold_low hlow).2 (hrated vuln hun)⟩
    have hmem : attemptFor env db lib inp rule vuln ∈ due env db lib inp rules ns :=
      mem_due_iff.2 ⟨rule, vuln, isDue_of_unannounced hun hv, rfl⟩
    refine ⟨attemptFor env db lib inp rule vuln, ?_, rfl⟩
    obtain ⟨xs, ys, heq⟩ := List.append_of_mem hmem
    rw [heq]
    refine mem_untilRaised fun a ha hraise => ?_
    -- a delivery that raises before this one would come before an unannounced vulnerability
    obtain ⟨xs₁, xs₂, rfl⟩ := List.append_of_mem ha
    rw [List.append_assoc, List.cons_append] at heq
    exact hearlier xs₁ a _ heq hraise _ (List.mem_append_right xs₂ List.mem_cons_self) rfl
      hun.inactive

/-! ### Examples -/

/-- There is nothing to strip from an empty configuration. -/
theorem emptyConfig_stripNul : (Json.obj []).stripNul = .obj [] := rfl

/-- A rule with the lowest threshold, for the project of the demonstration. -/
def lowRule : AlertAction := .createAlert ⟨1, .LOW, .SLACK, [], true, emptyConfig_stripNul⟩ 5

/-- A finding without a severity, and a rule with the lowest threshold. -/
def demoUnrated : AlertWorld :=
  alertDemo [.base demoProject, serviceUpload 1 10 none 0 100, .base (demoScan 10 [1, 1] 110),
    lowRule] (by decide +kernel)

/-- **A vulnerability of unknown severity is not announced** by a rule for all severities. -/
theorem unknown_not_announced : (alertSystem alertEnv plainMail).Reachable demoUnrated ∧
    ∃ rule ∈ demoUnrated.alerts.rules, rule.enabled = true ∧ rule.severityThreshold = .LOW ∧
      ¬ CoversAll alertEnv demoUnrated.world.db plainMail (demoCheck fun _ _ => true)
        demoUnrated.alerts.rules demoUnrated.alerts.notifications rule := by
  refine ⟨alertDemo_reachable, ?_⟩
  obtain ⟨rule, hrule, henabled, hlow, vuln, hstored, hopen, hinactive, hnone⟩ :
      ∃ rule ∈ demoUnrated.alerts.rules, rule.enabled = true ∧ rule.severityThreshold = .LOW ∧
        ∃ vuln ∈ demoUnrated.world.db.vulnerabilities,
          OpenIn demoUnrated.world.db rule.projectId vuln.id ∧
          activeOf (history demoUnrated.alerts.notifications (rule.id, vuln.id)) = [] ∧
          (doCheckAlerts alertEnv demoUnrated.world.db plainMail (demoCheck fun _ _ => true)
            demoUnrated.alerts.rules demoUnrated.alerts.notifications).attempts = [] := by
    decide +kernel
  refine ⟨rule, hrule, henabled, hlow, fun hall => ?_⟩
  obtain ⟨a, ha, -⟩ := hall vuln ⟨hstored, hopen, hinactive⟩
  rw [hnone] at ha
  exact absurd ha List.not_mem_nil

/-- A critical finding, and a rule with the lowest threshold. -/
def demoLowRule : AlertWorld := alertDemo (criticalFinding ++ [lowRule]) (by decide +kernel)

/-- The finding is announced. -/
theorem coversAll_demo : ∃ rule ∈ demoLowRule.alerts.rules,
    CoversAll alertEnv demoLowRule.world.db plainMail (demoCheck fun _ _ => true)
      demoLowRule.alerts.rules demoLowRule.alerts.notifications rule := by
  obtain ⟨rule, hrule, henabled, hlow⟩ : ∃ rule ∈ demoLowRule.alerts.rules,
      rule.enabled = true ∧ rule.severityThreshold = .LOW := by
    decide +kernel
  refine ⟨rule, hrule, (coversAll_iff hrule henabled hlow).2 ⟨fun vuln hun => ?_, ?_⟩⟩
  · have hrated : ∀ vuln ∈ demoLowRule.world.db.vulnerabilities, Rated vuln := by decide +kernel
    exact hrated vuln hun.stored
  · intro xs a ys heq hraise
    have hno : ∀ a ∈ due alertEnv demoLowRule.world.db plainMail (demoCheck fun _ _ => true)
        demoLowRule.alerts.rules demoLowRule.alerts.notifications, a.outcome ≠ .raised := by
      decide +kernel
    exact absurd hraise (hno a (heq ▸ List.mem_append_right xs List.mem_cons_self))

end ArgusSbomGuard
