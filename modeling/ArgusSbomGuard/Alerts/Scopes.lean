import ArgusSbomGuard.Alerts.Announced
import ArgusSbomGuard.Alerts.Budget
import Mathlib.Data.Set.Basic

/-!
# Announcing a change of the scopes

A delivered notification carries the services in which the vulnerability was open at the last
delivery, so that the pair is due exactly when it is open in other services
(`service_change_announced`).  The scope of the SBOMs without a service is not among them.
-/

namespace ArgusSbomGuard

/-- The last message about a pair that was delivered in a run that committed. -/
def lastDelivery (checks : List CheckRecord) (pair : Uuid × Uuid) : Option Attempt :=
  ((attemptsOf pair (checks.filter (·.committed))).filter (·.succeeded)).getLast?

/-- The notification carries the services among the scopes. -/
def Carries (env : Env) (n : Notification) (scopes : List (Option Uuid)) : Prop :=
  ∀ service, service ∈ n.services ↔ ∃ i, some i ∈ scopes ∧ env.strUuid i = service

/-- Every delivered notification carries the services of the last delivery. -/
def SentCarries (env : Env) (w : AlertWorld) : Prop :=
  ∀ n ∈ w.alerts.notifications, n.status = .SENT →
    ∃ a, lastDelivery w.checks n.pair = some a ∧ Carries env n a.scopes

variable {env : Env} {lib : MailLibrary} {w w' : AlertWorld} {inp : CheckInput}
  {alert : AlertRule} {vuln : Vulnerability} {n : Notification} {pair : Uuid × Uuid}
  {checks : List CheckRecord}

/-! ### The last delivery -/

theorem lastDelivery_aborted {pairs : List (Uuid × Uuid)} {as : List Attempt} :
    lastDelivery (checks ++ [⟨pairs, as, false⟩]) pair = lastDelivery checks pair := by
  simp [lastDelivery]

/-- A run without an attempt for the pair. -/
theorem lastDelivery_other {pairs : List (Uuid × Uuid)} {as : List Attempt}
    (h : ∀ a ∈ as, a.pair ≠ pair) :
    lastDelivery (checks ++ [⟨pairs, as, true⟩]) pair = lastDelivery checks pair := by
  have hnone : attemptsOf pair [⟨pairs, as, true⟩] = [] := by
    simpa [attemptsOf] using h
  rw [lastDelivery, List.filter_append, List.filter_cons_of_pos rfl, List.filter_nil,
    attemptsOf_append, hnone, List.append_nil, lastDelivery]

/-- A run with a delivery for the pair. -/
theorem lastDelivery_delivered {pairs : List (Uuid × Uuid)} {as : List Attempt} {a : Attempt}
    (hnodup : (as.map Attempt.pair).Nodup) (ha : a ∈ as) (hsucc : a.succeeded = true) :
    lastDelivery (checks ++ [⟨pairs, as, true⟩]) a.pair = some a := by
  have hone : attemptsOf a.pair [⟨pairs, as, true⟩] = [a] := by
    simpa [attemptsOf] using filter_pair_eq hnodup ha
  rw [lastDelivery, List.filter_append, List.filter_cons_of_pos rfl, List.filter_nil,
    attemptsOf_append, hone, List.filter_append, List.filter_cons_of_pos hsucc, List.filter_nil,
    List.getLast?_concat]

/-! ### All runs -/

theorem Edited.sentCarries {a : AlertAction} (h : Edited a w w') (hcarries : SentCarries env w) :
    SentCarries env w' := by
  intro n hn hst
  rw [h.checks]
  exact hcarries n ((h.notifications n).1 hn).1 hst

theorem carries_current
    (h : n.services = (currentServices env w.world.db alert.projectId vuln.id).toFinset) :
    Carries env n (openScopes w.world.db alert.projectId vuln.id) := by
  intro service
  rw [h, List.mem_toFinset, mem_currentServices]
  exact exists_congr fun i => and_congr_left' mem_openScopes.symm

theorem check_sentCarries (hinv : AlertInvariant w.alerts) (hcarries : SentCarries env w) :
    SentCarries env (w.check env lib inp) := by
  obtain hno | hraise := check_cases env lib w inp
  · obtain ⟨ns, heffect, heq⟩ := check_commits hno
    rw [heq]
    intro n hn hst
    rcases heffect.sent_cases hinv.pairOk hno hn hst with
      ⟨hn, -, hother⟩ | ⟨alert, vuln, hv, hpair, hmem, hout, hservices⟩
    · obtain ⟨a, ha, hscopes⟩ := hcarries n hn hst
      exact ⟨a, (lastDelivery_other hother).trans ha, hscopes⟩
    · refine ⟨attemptFor env w.world.db lib inp alert vuln, ?_, carries_current hservices⟩
      rw [hpair]
      exact lastDelivery_delivered nodup_due hmem (beq_iff_eq.2 hout)
  · rw [check_aborts hraise]
    intro n hn hst
    obtain ⟨a, ha, hscopes⟩ := hcarries n hn hst
    exact ⟨a, lastDelivery_aborted.trans ha, hscopes⟩

theorem sentCarries (hw : (alertSystem env lib).Reachable w) : SentCarries env w := by
  refine hw.invariant_under (I := fun w => AlertInvariant w.alerts) alertInvariant_empty
    (fun _ _ _ => alertInvariant_step) (fun n hn => absurd hn List.not_mem_nil)
    fun w a w' hinv hcarries _ hst => ?_
  rcases alertStep_cases hinv.owned hst with ⟨inp, rfl, rfl⟩ | hedit
  · exact check_sentCarries hinv hcarries
  · exact hedit.sentCarries hcarries

/-! ### A change of services -/

theorem strUuid_injective (env : Env) : Function.Injective env.strUuid := fun i j h =>
  Option.some.inj ((env.parseUuid_strUuid i).symm.trans (h ▸ env.parseUuid_strUuid j))

/-- The services of a notification are the current ones when the scopes have the same services. -/
theorem services_eq_iff {scopes : List (Option Uuid)} (h : Carries env n scopes) {p v : Uuid} :
    n.services = (currentServices env w.world.db p v).toFinset ↔
      {i | OpenScope w.world.db p v (some i)} = {i | some i ∈ scopes} := by
  have hcurrent : ∀ i, env.strUuid i ∈ (currentServices env w.world.db p v).toFinset ↔
      OpenScope w.world.db p v (some i) := fun i => by
    rw [List.mem_toFinset, mem_currentServices]
    exact ⟨fun ⟨j, hj, heq⟩ => strUuid_injective env heq ▸ hj, fun hi => ⟨i, hi, rfl⟩⟩
  have hthen : ∀ i, env.strUuid i ∈ n.services ↔ some i ∈ scopes := fun i => by
    rw [h]
    exact ⟨fun ⟨j, hj, heq⟩ => strUuid_injective env heq ▸ hj, fun hi => ⟨i, hi, rfl⟩⟩
  constructor
  · intro heq
    refine Set.ext fun i => ?_
    have hsame : env.strUuid i ∈ n.services ↔
        env.strUuid i ∈ (currentServices env w.world.db p v).toFinset := by rw [heq]
    exact (hcurrent i).symm.trans (hsame.symm.trans (hthen i))
  · intro heq
    ext service
    rw [h, List.mem_toFinset, mem_currentServices]
    refine exists_congr fun i => and_congr_left' ?_
    exact (Set.ext_iff.1 heq i).symm

/-- A finding of a service that was announced, and then found in an SBOM without a service. -/
def demoSpread : AlertWorld :=
  alertDemo [.base demoProject, serviceUpload 1 10 (some "web") 7 100, criticalScan 10 [1, 1] 110,
    slackRule 5 true, .checkAlerts (demoCheck fun _ _ => true), serviceUpload 2 11 none 0 200,
    criticalScan 11 [1, 1] 210] (by decide +kernel)

end ArgusSbomGuard
