import ArgusSbomGuard.Alerts.System

/-!
# What a delivered notification stands for

A delivered notification says that its pair needs no message.  It comes from a message that was
sent when the rule watched the same project, and since which the vulnerability was open there at
every run of the check (`skipped_was_announced`), provided that no rule with delivered
notifications is moved to another project, and that the check does not leave notifications of
closed pairs alone because the rule is disabled or because the run is rolled back.

## Main definitions

* `Announced` : a message was sent, and the pair was open at every run since.
* `Careful` : the actions of the runs for which delivered notifications stand for announcements.
-/

namespace ArgusSbomGuard

/-- A message of a rule about the vulnerability `v` was sent when the rule watched the project, and
`v` was open there at every run of the check since then. -/
def Announced (checks : List CheckRecord) (alertId projectId v : Uuid) : Prop :=
  ∃ earlier check later, checks = earlier ++ check :: later ∧
    (∃ a ∈ check.attempts, a.pair = (alertId, v) ∧ a.projectId = projectId ∧
      a.outcome = .delivered) ∧
    ∀ r ∈ check :: later, (projectId, v) ∈ r.openPairs

/-- The action is a check that leaves the notifications of the rule alone, because the rule is
disabled or because a delivery raises. -/
def AlertAction.Spares (env : Env) (lib : MailLibrary) (w : AlertWorld) (alert : AlertRule) :
    AlertAction → Prop
  | .checkAlerts inp => alert.enabled = false ∨ ∃ a ∈ w.due env lib inp, a.outcome = .raised
  | _ => False

instance (env : Env) (lib : MailLibrary) (w : AlertWorld) (alert : AlertRule) (a : AlertAction) :
    Decidable (a.Spares env lib w alert) :=
  match a with
  | .checkAlerts inp => inferInstanceAs
      (Decidable (alert.enabled = false ∨ ∃ a ∈ w.due env lib inp, a.outcome = .raised))
  | .base _ => .isFalse id
  | .createAlert _ _ => .isFalse id
  | .updateAlert _ _ => .isFalse id
  | .deleteAlert _ => .isFalse id

/-- No rule with a delivered notification is moved to another project, and what has a delivered
notification is open at a check that leaves it alone. -/
def Careful (env : Env) (lib : MailLibrary) (w : AlertWorld) (a : AlertAction) : Prop :=
  ∀ alert ∈ w.alerts.rules, ∀ n ∈ w.alerts.notifications,
    n.alertRuleId = alert.id → n.status = .SENT →
      ¬ a.Moves w.world.db alert ∧
        (a.Spares env lib w alert → OpenIn w.world.db alert.projectId n.vulnerabilityId)

instance (env : Env) (lib : MailLibrary) (w : AlertWorld) (a : AlertAction) :
    Decidable (Careful env lib w a) :=
  inferInstanceAs (Decidable (∀ alert ∈ w.alerts.rules, ∀ n ∈ w.alerts.notifications, _))

variable {env : Env} {lib : MailLibrary} {w w' : AlertWorld} {inp : CheckInput}
  {alert : AlertRule} {vuln : Vulnerability} {n : Notification} {alertId projectId v : Uuid}
  {checks : List CheckRecord} {r : CheckRecord}

/-! ### Announcements -/

/-- An announcement lasts as long as the pair is open. -/
theorem Announced.append (h : Announced checks alertId projectId v)
    (hopen : (projectId, v) ∈ r.openPairs) : Announced (checks ++ [r]) alertId projectId v := by
  obtain ⟨earlier, check, later, rfl, ha, hlater⟩ := h
  refine ⟨earlier, check, later ++ [r], by simp, ha, fun s hs => ?_⟩
  rw [← List.cons_append, List.mem_append, List.mem_singleton] at hs
  rcases hs with hs | rfl
  · exact hlater s hs
  · exact hopen

/-- A message of the last run is an announcement. -/
theorem announced_last {a : Attempt} (ha : a ∈ r.attempts) (hpair : a.pair = (alertId, v))
    (hproject : a.projectId = projectId) (hout : a.outcome = .delivered)
    (hopen : (projectId, v) ∈ r.openPairs) : Announced (checks ++ [r]) alertId projectId v := by
  refine ⟨checks, r, [], rfl, ⟨a, ha, hpair, hproject, hout⟩, fun s hs => ?_⟩
  rwa [List.mem_singleton.1 hs]

/-- What is announced was open at the last run. -/
theorem Announced.open_last (h : Announced checks alertId projectId v)
    (hr : r ∈ checks.getLast?) : (projectId, v) ∈ r.openPairs := by
  obtain ⟨earlier, check, later, rfl, -, hlater⟩ := h
  rw [List.getLast?_append_of_ne_nil _ (List.cons_ne_nil _ _)] at hr
  exact hlater r (List.mem_of_getLast? hr)

/-- What is announced was announced in its project. -/
theorem Announced.exists_attempt (h : Announced checks alertId projectId v) :
    ∃ r ∈ checks, ∃ a ∈ r.attempts, a.projectId = projectId := by
  obtain ⟨earlier, check, later, rfl, ⟨a, ha, -, hproject, -⟩, -⟩ := h
  exact ⟨check, List.mem_append_right _ List.mem_cons_self, a, ha, hproject⟩

/-! ### The notifications of a run -/

/-- A delivered notification after a run that commits was there before, and its pair is open or
not watched and not due, or it records a message of the run. -/
theorem CheckEffect.sent_cases {db : Database} {rules : Table AlertRule}
    {ns ns' : List Notification} (h : CheckEffect env db lib inp rules ns ns')
    (hok : ∀ k, PairOk (history ns k))
    (hno : ∀ a ∈ due env db lib inp rules ns, a.outcome ≠ .raised) (hn : n ∈ ns')
    (hst : n.status = .SENT) :
    (n ∈ ns ∧ ¬ Closes db rules n.pair ∧
      ∀ a ∈ due env db lib inp rules ns, a.pair ≠ n.pair) ∨
    ∃ alert vuln, Visited db rules alert vuln ∧ n.pair = (alert.id, vuln.id) ∧
      attemptFor env db lib inp alert vuln ∈ due env db lib inp rules ns ∧
      (attemptFor env db lib inp alert vuln).outcome = .delivered ∧
      n.services = (currentServices env db alert.projectId vuln.id).toFinset := by
  have hmem : n ∈ history ns' n.pair := mem_history.2 ⟨hn, rfl⟩
  by_cases hk : ∃ alert vuln, Visited db rules alert vuln ∧ (alert.id, vuln.id) = n.pair
  · obtain ⟨alert, vuln, hv, hpair⟩ := hk
    by_cases hdue : visitDue env db (alert, vuln) (history ns (alert.id, vuln.id)) = true
    · have ha : attemptFor env db lib inp alert vuln ∈ due env db lib inp rules ns :=
        mem_due.2 ⟨alert, vuln, hv, hdue, rfl⟩
      obtain ⟨m, hm, hrec⟩ := h.recorded hok hv hdue (hno _ ha)
      have hnm : n ∈ activeOf (history ns' (alert.id, vuln.id)) :=
        mem_activeOf.2 ⟨hpair ▸ hmem, active_of_status (.inl hst)⟩
      rw [hm, List.mem_singleton] at hnm
      subst hnm
      refine .inr ⟨alert, vuln, hv, hpair.symm, ha, ?_, hrec.services_eq⟩
      have hstatus := hrec.status
      rw [hst] at hstatus
      split_ifs at hstatus with hsucc
      exact beq_iff_eq.1 hsucc
    · rw [← hpair, h.visited alert vuln hv, afterVisit, if_neg hdue] at hmem
      refine .inl ⟨(mem_history.1 hmem).1, hpair ▸ hv.not_closes, fun a ha heq => ?_⟩
      exact hdue (visitDue_of_mem_due hv ha (heq.trans hpair.symm))
  · rw [h.other n.pair fun alert vuln hv heq => hk ⟨alert, vuln, hv, heq⟩] at hmem
    split_ifs at hmem with hclosed
    · obtain ⟨m, -, rfl⟩ := List.mem_map.1 hmem
      cases hst
    · refine .inl ⟨(mem_history.1 hmem).1, hclosed, fun a ha heq => ?_⟩
      obtain ⟨alert, vuln, hv, -, rfl⟩ := mem_due.1 ha
      exact hk ⟨alert, vuln, hv, heq⟩

/-! ### Runs of careful actions -/

/-- Every delivered notification stands for an announcement of its rule. -/
def SentAnnounced (w : AlertWorld) : Prop :=
  ∀ n ∈ w.alerts.notifications, n.status = .SENT → ∀ alert ∈ w.alerts.rules,
    alert.id = n.alertRuleId →
      Announced w.checks alert.id alert.projectId n.vulnerabilityId

theorem Edited.sentAnnounced {a : AlertAction} (h : Edited a w w') (howned : w.alerts.Owned)
    (hcareful : Careful env lib w a) (hsent : SentAnnounced w) : SentAnnounced w' := by
  intro n hn hst alert' ha' hid'
  have hn := ((h.notifications n).1 hn).1
  rw [h.checks]
  rcases h.rules alert' ha' with hnew | ⟨alert, ha, hid, hproject | hmoves⟩
  · obtain ⟨alert, ha, hid⟩ := howned n hn
    exact absurd (hid.trans hid'.symm) (hnew alert ha)
  · rw [← hid, hproject]
    exact hsent n hn hst alert ha (hid.trans hid')
  · exact absurd hmoves (hcareful alert ha n hn (hid.trans hid').symm hst).1

/-- A check announces again, or finds open what was announced, or resolves it. -/
theorem check_sentAnnounced (hinv : AlertInvariant w.alerts)
    (hcareful : Careful env lib w (.checkAlerts inp)) (hsent : SentAnnounced w) :
    SentAnnounced (w.check env lib inp) := by
  obtain hno | hraise := check_cases env lib w inp
  · obtain ⟨ns, heffect, heq⟩ := check_commits hno
    rw [heq]
    intro n hn hst alert ha hid
    rcases heffect.sent_cases hinv.pairOk hno hn hst with
      ⟨hn, hopen, -⟩ | ⟨alert', vuln, hv, hpair, hmem, hout, -⟩
    · refine (hsent n hn hst alert ha hid).append (mem_openPairs.2 ?_)
      by_cases hen : alert.enabled = true
      · by_contra hclosed
        exact hopen ⟨alert, ha, hid, hen, hclosed⟩
      · exact (hcareful alert ha n hn hid.symm hst).2 (.inl (Bool.not_eq_true _ ▸ hen))
    · obtain ⟨hid', hvid⟩ := Prod.mk.inj hpair
      obtain rfl := rule_eq ha hv.rule (hid.trans hid')
      rw [hvid]
      exact announced_last hmem rfl rfl hout (mem_openPairs.2 hv.isOpen)
  · rw [check_aborts hraise]
    intro n hn hst alert ha hid
    exact (hsent n hn hst alert ha hid).append
      (mem_openPairs.2 ((hcareful alert ha n hn hid.symm hst).2 (.inr hraise)))

theorem sentAnnounced (hw : (alertSystem env lib).Reaches (Careful env lib) w) :
    SentAnnounced w := by
  refine hw.invariant_under (I := fun w => AlertInvariant w.alerts) alertInvariant_empty
    (fun _ _ _ => alertInvariant_step) (fun n hn => absurd hn List.not_mem_nil)
    fun w a w' hinv hsent hcareful hst => ?_
  rcases alertStep_cases hinv.owned hst with ⟨inp, rfl, rfl⟩ | hedit
  · exact check_sentAnnounced hinv hcareful hsent
  · exact hedit.sentAnnounced hinv.owned hcareful hsent

/-- A skipped pair has a delivered notification. -/
theorem sent_of_skip {h : List Notification}
    (hskip : visitAction env w.world.db (alert, vuln) h = .SKIP) :
    ∃ n ∈ h, n.status = .SENT := by
  unfold visitAction deliveryAction at hskip
  dsimp only at hskip
  split at hskip
  · rename_i n hlast
    obtain ⟨hn, hst⟩ := List.mem_filter.1 (List.mem_of_getLast? hlast)
    exact ⟨n, (mem_activeOf.1 hn).1, by simpa using hst⟩
  · split at hskip
    · split_ifs at hskip
    · cases hskip

/-- **A skipped pair was announced**, in the runs of careful actions. -/
theorem skipped_was_announced (hw : (alertSystem env lib).Reaches (Careful env lib) w)
    (hv : Visited w.world.db w.alerts.rules alert vuln)
    (hskip : visitAction env w.world.db (alert, vuln)
      (history w.alerts.notifications (alert.id, vuln.id)) = .SKIP) :
    Announced w.checks alert.id alert.projectId vuln.id := by
  obtain ⟨n, hn, hst⟩ := sent_of_skip hskip
  obtain ⟨hn, hpair⟩ := mem_history.1 hn
  obtain ⟨hid, hvid⟩ := Prod.mk.inj hpair
  rw [← hvid]
  exact sentAnnounced hw n hn hst alert hv.rule hid.symm

/-- The next check skips a pair that was not announced. -/
def SkipsUnannounced (env : Env) (w : AlertWorld) : Prop :=
  ∃ alert vuln, Visited w.world.db w.alerts.rules alert vuln ∧
    visitAction env w.world.db (alert, vuln)
      (history w.alerts.notifications (alert.id, vuln.id)) = .SKIP ∧
    ¬ Announced w.checks alert.id alert.projectId vuln.id

/-- A finding that was announced, retired while its rule was disabled, and found again. -/
def demoReopened : AlertWorld :=
  alertDemo (criticalFinding ++ [slackRule 5 true, .checkAlerts (demoCheck fun _ _ => true),
    setEnabled 5 false, criticalScan 10 [] 120, .checkAlerts (demoCheck fun _ _ => true),
    serviceUpload 2 11 none 0 130, criticalScan 11 [1, 1] 140, setEnabled 5 true])
    (by decide +kernel)

/-- A finding in two projects, and a rule that was moved to the second one after it had announced
the finding in the first. -/
def demoMoved : AlertWorld :=
  alertDemo (criticalFinding ++ [slackRule 5 true, .checkAlerts (demoCheck fun _ _ => true),
    .base (.createProject ⟨"second", by decide⟩ 2),
    .base (.uploadSbom ⟨none, some "second", none, none, [0, 2]⟩ ⟨0, 11, 200⟩),
    criticalScan 11 [1, 1] 210, .updateAlert 5 ⟨some 2, none, none, none⟩]) (by decide +kernel)

/-- A closed and reopened vulnerability, and one of another project, are taken for announced. -/
theorem skips_unannounced :
    ((alertSystem alertEnv plainMail).Reachable demoReopened ∧
      SkipsUnannounced alertEnv demoReopened) ∧
    (alertSystem alertEnv plainMail).Reachable demoMoved ∧
      SkipsUnannounced alertEnv demoMoved := by
  refine ⟨⟨alertDemo_reachable, ?_⟩, alertDemo_reachable, ?_⟩
  · obtain ⟨alert, vuln, hv, hskip⟩ : ∃ alert vuln,
        Visited demoReopened.world.db demoReopened.alerts.rules alert vuln ∧
          visitAction alertEnv demoReopened.world.db (alert, vuln)
            (history demoReopened.alerts.notifications (alert.id, vuln.id)) = .SKIP :=
      exists_visited (by decide +kernel)
    have hlast : ∃ r, demoReopened.checks.getLast? = some r ∧ r.openPairs = [] := by
      decide +kernel
    obtain ⟨r, hr, hnone⟩ := hlast
    refine ⟨alert, vuln, hv, hskip, fun hannounced => ?_⟩
    have hmem := hannounced.open_last hr
    rw [hnone] at hmem
    exact absurd hmem List.not_mem_nil
  · obtain ⟨alert, vuln, hv, hskip, hother⟩ : ∃ alert vuln,
        Visited demoMoved.world.db demoMoved.alerts.rules alert vuln ∧
          visitAction alertEnv demoMoved.world.db (alert, vuln)
            (history demoMoved.alerts.notifications (alert.id, vuln.id)) = .SKIP ∧
          ∀ r ∈ demoMoved.checks, ∀ a ∈ r.attempts, a.projectId ≠ alert.projectId :=
      exists_visited (by decide +kernel)
    refine ⟨alert, vuln, hv, hskip, fun hannounced => ?_⟩
    obtain ⟨r, hr, a, hattempt, hproject⟩ := hannounced.exists_attempt
    exact hother r hr a hattempt hproject

/-- The announced finding of the demonstration. -/
theorem skipped_was_announced_demo : ∃ alert ∈ demoAnnounced.alerts.rules,
    ∃ vuln ∈ demoAnnounced.world.db.vulnerabilities,
      Announced demoAnnounced.checks alert.id alert.projectId vuln.id := by
  obtain ⟨alert, vuln, hv, hskip⟩ : ∃ alert vuln,
      Visited demoAnnounced.world.db demoAnnounced.alerts.rules alert vuln ∧
        visitAction alertEnv demoAnnounced.world.db (alert, vuln)
          (history demoAnnounced.alerts.notifications (alert.id, vuln.id)) = .SKIP :=
    exists_visited (by decide +kernel)
  have hcareful : (alertSystem alertEnv plainMail).Reaches (Careful alertEnv plainMail)
      demoAnnounced := by
    refine alertDemo_reaches ?_
    decide +kernel
  exact ⟨alert, hv.rule, vuln, hv.stored, skipped_was_announced hcareful hv hskip⟩

end ArgusSbomGuard
