import ArgusSbomGuard.Alerts.Run

/-!
# What a run of the check does

The rules and vulnerabilities that a run visits do not depend on the orders of its loops, and no
pair is visited twice.  So a run resolves what is closed, attempts what is due in some order
(`mem_due`, `doCheckAlerts_attempts`), and if it commits, its effect on the notifications is the
same for every order (`doCheckAlerts_effect`).

## Main definitions

* `Visited` : the rules and vulnerabilities that a run does not pass over.
* `resolved` : a notification after `_resolve_closed_episodes`.
* `due` : the deliveries that are due in a run, in order.
* `CheckEffect` : what a run that commits does to the notifications.
-/

namespace ArgusSbomGuard

/-- The run goes into `_delivery_action` for the rule and the vulnerability. -/
structure Visited (db : Database) (rules : Table AlertRule) (alert : AlertRule)
    (vuln : Vulnerability) : Prop where
  rule : alert ∈ rules
  enabled : alert.enabled = true
  stored : vuln ∈ db.vulnerabilities
  isOpen : OpenIn db alert.projectId vuln.id
  within : withinThreshold alert vuln = true

/-- An enabled rule watches a project in which the vulnerability of the pair is not open. -/
def Closes (db : Database) (rules : Table AlertRule) (pair : Uuid × Uuid) : Prop :=
  ∃ alert ∈ rules, alert.id = pair.1 ∧ alert.enabled = true ∧ ¬ OpenIn db alert.projectId pair.2

instance (db : Database) (rules : Table AlertRule) (pair : Uuid × Uuid) :
    Decidable (Closes db rules pair) :=
  inferInstanceAs (Decidable (∃ alert ∈ rules, _))

/-- A notification after `_resolve_closed_episodes`. -/
def resolved (db : Database) (rules : Table AlertRule) (n : Notification) : Notification :=
  if Closes db rules n.pair then n.resolve else n

variable (env : Env) (db : Database) (lib : MailLibrary) (inp : CheckInput)
  (rules : Table AlertRule) (ns : List Notification)

/-- The visits of a run, in order. -/
def runVisits : List (AlertRule × Vulnerability) :=
  visits db (enabledAlerts inp rules) (inp.pairOrder.order (openPairs db))

/-- The deliveries that are due in a run, in order. -/
def due : List Attempt :=
  dueAttempts env db lib inp (runVisits db inp rules) (ns.map (resolved db rules))

variable {env db lib inp rules ns}

/-! ### What is open -/

theorem mem_openRows {v p : Uuid} {scope : Option Uuid} :
    (v, p, scope) ∈ openRows db ↔ OpenScope db p v scope := by
  simp only [openRows, List.mem_map, Prod.exists, mem_joinLinks, Prod.mk.injEq]
  constructor
  · rintro ⟨l, s, ⟨hl, hs, hid, hact⟩, rfl, rfl, rfl⟩
    exact ⟨l, hl, s, hs, hid, hact, rfl, rfl, rfl⟩
  · rintro ⟨l, hl, s, hs, hid, hact, rfl, rfl, rfl⟩
    exact ⟨l, s, ⟨hl, hs, hid, hact⟩, rfl, rfl, rfl⟩

/-- The open pairs are the projects and vulnerabilities that are open there. -/
theorem mem_openPairs {p v : Uuid} : (p, v) ∈ openPairs db ↔ OpenIn db p v := by
  simp only [openPairs, List.mem_dedup, List.mem_map, Prod.exists, mem_openRows, Prod.mk.injEq,
    openIn_iff_exists_scope]
  constructor
  · rintro ⟨v, p, scope, h, rfl, rfl⟩
    exact ⟨scope, h⟩
  · rintro ⟨scope, h⟩
    exact ⟨v, p, scope, h, rfl, rfl⟩

theorem mem_openScopes {p v : Uuid} {scope : Option Uuid} :
    scope ∈ openScopes db p v ↔ OpenScope db p v scope := by
  simp only [openScopes, List.mem_map, List.mem_filter, Bool.and_eq_true, beq_iff_eq, Prod.exists,
    ← mem_openRows]
  constructor
  · rintro ⟨v, p, scope, ⟨h, rfl, rfl⟩, rfl⟩
    exact h
  · exact fun h => ⟨v, p, scope, ⟨h, rfl, rfl⟩, rfl⟩

theorem mem_currentServices {p v : Uuid} {service : String} :
    service ∈ currentServices env db p v ↔
      ∃ i, OpenScope db p v (some i) ∧ env.strUuid i = service := by
  simp only [currentServices, List.mem_insertionSort, List.mem_dedup, List.mem_map,
    List.mem_filterMap, id_eq, exists_eq_right, mem_openScopes]

/-! ### The visits -/

theorem mem_enabledAlerts {alert : AlertRule} :
    alert ∈ enabledAlerts inp rules ↔ alert ∈ rules ∧ alert.enabled = true := by
  rw [enabledAlerts, (inp.alertOrder.perm _).mem_iff, List.mem_filter, Table.mem_rows]

/-- No two rules of a run have the same identifier. -/
theorem pairwise_enabledAlerts :
    (enabledAlerts inp rules).Pairwise fun a b => a.id ≠ b.id :=
  ((inp.alertOrder.perm _).pairwise_iff fun h => h.symm).2 (rules.unique.filter _)

/-- The entry of a rule and an open pair. -/
theorem visit_eq_some {a alert : AlertRule} {pair : Uuid × Uuid} {vuln : Vulnerability} :
    (if pair.1 ≠ a.projectId then none
      else (db.vulnerabilities.find? fun v => v.id == pair.2).bind fun vuln =>
        if withinThreshold a vuln then some (a, vuln) else none) = some (alert, vuln) ↔
      a = alert ∧ pair = (alert.projectId, vuln.id) ∧ vuln ∈ db.vulnerabilities ∧
        withinThreshold alert vuln = true := by
  constructor
  · intro h
    split_ifs at h with hp
    obtain ⟨v, hv, h⟩ := Option.bind_eq_some_iff.1 h
    split_ifs at h with hw
    obtain ⟨rfl, rfl⟩ := Prod.mk.inj (Option.some.inj h)
    obtain ⟨hmem, hid⟩ := Table.mem_of_find? hv
    exact ⟨rfl, Prod.ext (not_not.1 hp) (beq_iff_eq.1 hid).symm, hmem, hw⟩
  · rintro ⟨rfl, rfl, hv, hw⟩
    have hfind : (db.vulnerabilities.find? fun v => v.id == vuln.id) = some vuln :=
      Table.find?_eq_some hv (beq_self_eq_true _) fun a ha => .inl (beq_iff_eq.1 ha)
    rw [if_neg (not_not.2 rfl), hfind, Option.bind_some, if_pos hw]

theorem mem_visits {alerts : List AlertRule} {pairs : List (Uuid × Uuid)} {alert : AlertRule}
    {vuln : Vulnerability} : (alert, vuln) ∈ visits db alerts pairs ↔
      alert ∈ alerts ∧ (alert.projectId, vuln.id) ∈ pairs ∧ vuln ∈ db.vulnerabilities ∧
        withinThreshold alert vuln = true := by
  simp only [visits, List.mem_flatMap, List.mem_filterMap, visit_eq_some]
  constructor
  · rintro ⟨a, ha, pair, hpair, rfl, rfl, hv, hw⟩
    exact ⟨ha, hpair, hv, hw⟩
  · rintro ⟨ha, hpair, hv, hw⟩
    exact ⟨alert, ha, _, hpair, rfl, rfl, hv, hw⟩

/-- No pair is visited twice. -/
theorem nodup_visits {alerts : List AlertRule} {pairs : List (Uuid × Uuid)}
    (ha : alerts.Pairwise fun a b => a.id ≠ b.id) (hp : pairs.Nodup) :
    ((visits db alerts pairs).map visitPair).Nodup := by
  refine List.pairwise_map.2 (List.pairwise_flatMap.2 ⟨fun a _ => ?_, ?_⟩)
  -- two vulnerabilities of one rule
  · refine List.pairwise_filterMap.2 (hp.imp fun {p q} hne => ?_)
    rintro ⟨a₁, v₁⟩ h₁ ⟨a₂, v₂⟩ h₂ heq
    obtain ⟨rfl, rfl, -⟩ := visit_eq_some.1 h₁
    obtain ⟨rfl, rfl, -⟩ := visit_eq_some.1 h₂
    exact hne (Prod.ext rfl (Prod.mk.inj heq).2)
  -- two rules
  · refine ha.imp fun {a b} hne => ?_
    rintro ⟨a₁, v₁⟩ h₁ ⟨a₂, v₂⟩ h₂ heq
    obtain ⟨p, -, hp⟩ := List.mem_filterMap.1 h₁
    obtain ⟨q, -, hq⟩ := List.mem_filterMap.1 h₂
    obtain ⟨rfl, -⟩ := visit_eq_some.1 hp
    obtain ⟨rfl, -⟩ := visit_eq_some.1 hq
    exact hne (Prod.mk.inj heq).1

theorem mem_runVisits {alert : AlertRule} {vuln : Vulnerability} :
    (alert, vuln) ∈ runVisits db inp rules ↔ Visited db rules alert vuln := by
  rw [runVisits, mem_visits, mem_enabledAlerts, (inp.pairOrder.perm _).mem_iff, mem_openPairs]
  exact ⟨fun ⟨⟨hr, he⟩, ho, hs, hw⟩ => ⟨hr, he, hs, ho, hw⟩,
    fun h => ⟨⟨h.rule, h.enabled⟩, h.isOpen, h.stored, h.within⟩⟩

/-- A visit, where the tables can be searched for it. -/
theorem exists_visited {P : AlertRule → Vulnerability → Prop}
    (h : ∃ alert ∈ rules, ∃ vuln ∈ db.vulnerabilities, (alert.enabled = true ∧
      OpenIn db alert.projectId vuln.id ∧ withinThreshold alert vuln = true) ∧ P alert vuln) :
    ∃ alert vuln, Visited db rules alert vuln ∧ P alert vuln := by
  obtain ⟨alert, ha, vuln, hv, ⟨hen, hopen, hwithin⟩, hP⟩ := h
  exact ⟨alert, vuln, ⟨ha, hen, hv, hopen, hwithin⟩, hP⟩

theorem rule_eq {a b : AlertRule} (ha : a ∈ rules) (hb : b ∈ rules) (h : a.id = b.id) : a = b :=
  Table.eq_of_clash ha hb h

/-- A pair is visited for one rule and one vulnerability. -/
theorem visited_unique {alert alert' : AlertRule} {vuln vuln' : Vulnerability}
    (h : Visited db rules alert vuln) (h' : Visited db rules alert' vuln')
    (hpair : (alert.id, vuln.id) = (alert'.id, vuln'.id)) : alert = alert' ∧ vuln = vuln' := by
  obtain ⟨hid, hvid⟩ := Prod.mk.inj hpair
  exact ⟨rule_eq h.rule h'.rule hid, Table.eq_of_clash h.stored h'.stored (.inl hvid)⟩

theorem nodup_runVisits : ((runVisits db inp rules).map visitPair).Nodup :=
  nodup_visits pairwise_enabledAlerts ((inp.pairOrder.perm _).nodup_iff.2 (List.nodup_dedup _))

/-! ### What is resolved -/

@[simp] theorem pair_resolved (n : Notification) : (resolved db rules n).pair = n.pair := by
  unfold resolved
  split_ifs <;> rfl

theorem history_resolved {k : Uuid × Uuid} : history (ns.map (resolved db rules)) k =
    if Closes db rules k then (history ns k).map (·.resolve) else history ns k := by
  rw [history_map pair_resolved]
  split_ifs with hk
  · exact List.map_congr_left fun n hn => if_pos ((mem_history.1 hn).2 ▸ hk)
  · exact (List.map_congr_left fun n hn => if_neg ((mem_history.1 hn).2 ▸ hk)).trans
      (List.map_id _)

/-- What is open is not resolved. -/
theorem Visited.not_closes {alert : AlertRule} {vuln : Vulnerability}
    (h : Visited db rules alert vuln) : ¬ Closes db rules (alert.id, vuln.id) := by
  rintro ⟨a, ha, hid, -, hclosed⟩
  obtain rfl := rule_eq ha h.rule hid
  exact hclosed h.isOpen

theorem resolveClosedEpisodes_eq : resolveClosedEpisodes ns (enabledAlerts inp rules)
    (inp.pairOrder.order (openPairs db)) = ns.map (resolved db rules) := by
  refine List.map_congr_left fun n _ => ?_
  cases hf : (enabledAlerts inp rules).find? fun alert => alert.id == n.alertRuleId with
  | none =>
    refine (if_neg ?_).symm
    rintro ⟨a, ha, hid, hen, -⟩
    exact List.find?_eq_none.1 hf a (mem_enabledAlerts.2 ⟨ha, hen⟩) (beq_iff_eq.2 hid)
  | some alert =>
    obtain ⟨hr, hen⟩ := mem_enabledAlerts.1 (List.mem_of_find?_eq_some hf)
    have hid : alert.id = n.alertRuleId := by simpa using List.find?_some hf
    have hiff : (alert.projectId, n.vulnerabilityId) ∉ inp.pairOrder.order (openPairs db) ↔
        Closes db rules n.pair := by
      rw [(inp.pairOrder.perm _).mem_iff, mem_openPairs]
      constructor
      · exact fun hclosed => ⟨alert, hr, hid, hen, hclosed⟩
      · rintro ⟨a, ha, haid, -, hclosed⟩
        rwa [rule_eq ha hr (haid.trans hid.symm)] at hclosed
    simp only [resolved, hiff]

/-! ### One visit -/

section Visit

variable {visit : AlertRule × Vulnerability} {h : List Notification}

/-- A delivery that is due and does not raise leaves one active row, which records it. -/
theorem activeOf_afterVisit (hpair : ∀ n ∈ h, n.pair = visitPair visit) (hok : PairOk h)
    (hdue : visitDue env db visit h = true)
    (hno : (attemptFor env db lib inp visit.1 visit.2).outcome ≠ .raised) :
    ∃ n, activeOf (afterVisit env db lib inp visit h) = [n] ∧
      Recorded (visitPair visit) (currentServices env db visit.1.projectId visit.2.id)
        (attemptFor env db lib inp visit.1 visit.2).succeeded
        ((episode h).failures
          (currentServices env db visit.1.projectId visit.2.id).toFinset) n := by
  rw [afterVisit, if_pos hdue]
  cases hdel : deliverPair env db lib inp visit.1 visit.2 with
  | error e => exact absurd (outcome_raised_iff.2 ⟨e, hdel⟩) hno
  | ok r =>
    obtain ⟨channel, success⟩ := r
    have hsucc : (attemptFor env db lib inp visit.1 visit.2).succeeded = success := by
      simp only [Attempt.succeeded, attemptFor, hdel]
      cases success <;> rfl
    rw [hsucc]
    exact activeOf_recordedHistory hpair hok hdue

theorem pairOk_afterVisit (hpair : ∀ n ∈ h, n.pair = visitPair visit) (hok : PairOk h) :
    PairOk (afterVisit env db lib inp visit h) := by
  by_cases hdue : visitDue env db visit h = true
  case neg => rwa [afterVisit, if_neg hdue]
  by_cases hraise : (attemptFor env db lib inp visit.1 visit.2).outcome = .raised
  · obtain ⟨e, he⟩ := outcome_raised_iff.1 hraise
    rwa [afterVisit, if_pos hdue, he]
  · obtain ⟨n, ha, hn⟩ := activeOf_afterVisit hpair hok hdue hraise
    exact .inr ⟨n, ha, hn.announcement hok hdue⟩

/-- **A visit is an attempt of the episode**, or leaves it alone. -/
theorem episode_afterVisit (hpair : ∀ n ∈ h, n.pair = visitPair visit) (hok : PairOk h)
    (hdue : visitDue env db visit h = true)
    (hno : (attemptFor env db lib inp visit.1 visit.2).outcome ≠ .raised) :
    episode (afterVisit env db lib inp visit h) =
      (episode h).attempt (currentServices env db visit.1.projectId visit.2.id).toFinset
        (attemptFor env db lib inp visit.1 visit.2).succeeded := by
  obtain ⟨n, ha, hn⟩ := activeOf_afterVisit hpair hok hdue hno
  exact hn.episode ha

theorem visitDue_iff (hok : PairOk h) : visitDue env db visit h =
    (episode h).due maxAlertDeliveryAttempts
      (currentServices env db visit.1.projectId visit.2.id).toFinset :=
  delivers_iff_due hok

/-- A pair with a delivered notification is due when the services are not those of the
notification. -/
theorem visitDue_iff_of_sent {n : Notification} (hok : PairOk h) (hn : n ∈ h)
    (hst : n.status = .SENT) : visitDue env db visit h = true ↔
      n.services ≠ (currentServices env db visit.1.projectId visit.2.id).toFinset := by
  rw [visitDue_iff hok, episode, hok.activeOf_eq hn (active_of_status (.inl hst))]
  simp [hst, Episode.due]

end Visit

/-! ### The run -/

theorem doCheckAlerts_eq : doCheckAlerts env db lib inp rules ns =
    checkVisits env db lib inp (runVisits db inp rules) (ns.map (resolved db rules)) [] := by
  unfold doCheckAlerts
  dsimp only
  split_ifs with hnil
  -- without an enabled rule the function returns early, but nothing would be done anyway
  · have hnone : enabledAlerts inp rules = [] := List.isEmpty_iff.1 hnil
    have hid : ns.map (resolved db rules) = ns := by
      refine (List.map_congr_left fun n _ => if_neg ?_).trans (List.map_id _)
      rintro ⟨a, ha, -, hen, -⟩
      exact List.not_mem_nil (hnone ▸ mem_enabledAlerts.2 ⟨ha, hen⟩)
    rw [runVisits, hnone, hid, visits, List.flatMap_nil, checkVisits, List.append_nil]
  · rw [resolveClosedEpisodes_eq, runVisits]

theorem Visited.history {alert : AlertRule} {vuln : Vulnerability}
    (h : Visited db rules alert vuln) :
    history (ns.map (resolved db rules)) (alert.id, vuln.id) =
      history ns (alert.id, vuln.id) := by
  rw [history_resolved, if_neg h.not_closes]

/-- **What is due**: the visits whose history asks for a delivery. -/
theorem mem_due {a : Attempt} : a ∈ due env db lib inp rules ns ↔
    ∃ alert vuln, Visited db rules alert vuln ∧
      visitDue env db (alert, vuln) (history ns (alert.id, vuln.id)) = true ∧
        attemptFor env db lib inp alert vuln = a := by
  simp only [due, dueAttempts, List.mem_map, List.mem_filter, Prod.exists, mem_runVisits, and_assoc]
  refine exists_congr fun alert => exists_congr fun vuln => and_congr_right fun hv => ?_
  rw [visitPair, hv.history]

/-- An attempt for the pair of a visit is made because the visit is due. -/
theorem visitDue_of_mem_due {a : Attempt} {alert : AlertRule} {vuln : Vulnerability}
    (hv : Visited db rules alert vuln) (ha : a ∈ due env db lib inp rules ns)
    (hpair : a.pair = (alert.id, vuln.id)) :
    visitDue env db (alert, vuln) (history ns (alert.id, vuln.id)) = true := by
  obtain ⟨alert', vuln', hv', hdue, rfl⟩ := mem_due.1 ha
  obtain ⟨rfl, rfl⟩ := visited_unique hv' hv hpair
  exact hdue

/-- No pair is due twice. -/
theorem nodup_due : ((due env db lib inp rules ns).map Attempt.pair).Nodup := by
  rw [due, dueAttempts, List.map_map]
  exact (List.filter_sublist.map _).nodup nodup_runVisits

theorem doCheckAlerts_attempts : (doCheckAlerts env db lib inp rules ns).attempts =
    untilRaised (due env db lib inp rules ns) := by
  rw [doCheckAlerts_eq, checkVisits_attempts nodup_runVisits]
  rfl

theorem doCheckAlerts_commits_iff :
    (∃ ns', (doCheckAlerts env db lib inp rules ns).result = .ok ns') ↔
      ∀ a ∈ due env db lib inp rules ns, a.outcome ≠ .raised := by
  rw [doCheckAlerts_eq, checkVisits_commits_iff nodup_runVisits]
  rfl

/-- What a run that commits does to the notifications. -/
structure CheckEffect (env : Env) (db : Database) (lib : MailLibrary) (inp : CheckInput)
    (rules : Table AlertRule) (ns ns' : List Notification) : Prop where
  visited : ∀ alert vuln, Visited db rules alert vuln →
    history ns' (alert.id, vuln.id) =
      afterVisit env db lib inp (alert, vuln) (history ns (alert.id, vuln.id))
  other : ∀ k, (∀ alert vuln, Visited db rules alert vuln → (alert.id, vuln.id) ≠ k) →
    history ns' k = if Closes db rules k then (history ns k).map (·.resolve) else history ns k

/-- **The effect of a run that commits.** -/
theorem doCheckAlerts_effect {ns' : List Notification}
    (h : (doCheckAlerts env db lib inp rules ns).result = .ok ns') :
    CheckEffect env db lib inp rules ns ns' := by
  rw [doCheckAlerts_eq] at h
  obtain ⟨hvisits, hother⟩ := checkVisits_history nodup_runVisits (fun _ _ => rfl) h
  refine ⟨fun alert vuln hv => ?_, fun k hk => ?_⟩
  · have hsame : history (ns.map (resolved db rules)) (alert.id, vuln.id) =
        history ns (alert.id, vuln.id) := hv.history
    rw [← hsame]
    exact hvisits (alert, vuln) (mem_runVisits.2 hv)
  · rw [hother k, history_resolved]
    · exact List.append_nil _
    · rintro hmem
      obtain ⟨⟨alert, vuln⟩, hv, rfl⟩ := List.mem_map.1 hmem
      exact hk alert vuln (mem_runVisits.1 hv) rfl

/-- A delivery that was due leaves one active notification, which records it. -/
theorem CheckEffect.recorded {ns' : List Notification} {alert : AlertRule} {vuln : Vulnerability}
    (h : CheckEffect env db lib inp rules ns ns') (hok : ∀ k, PairOk (history ns k))
    (hv : Visited db rules alert vuln)
    (hdue : visitDue env db (alert, vuln) (history ns (alert.id, vuln.id)) = true)
    (hno : (attemptFor env db lib inp alert vuln).outcome ≠ .raised) :
    ∃ n, activeOf (history ns' (alert.id, vuln.id)) = [n] ∧
      Recorded (alert.id, vuln.id) (currentServices env db alert.projectId vuln.id)
        (attemptFor env db lib inp alert vuln).succeeded
        ((episode (history ns (alert.id, vuln.id))).failures
          (currentServices env db alert.projectId vuln.id).toFinset) n := by
  rw [h.visited alert vuln hv]
  have hpair : ∀ n ∈ history ns (alert.id, vuln.id), n.pair = visitPair (alert, vuln) :=
    fun _ hn => (mem_history.1 hn).2
  exact activeOf_afterVisit hpair (hok _) hdue hno

end ArgusSbomGuard
