import ArgusSbomGuard.Alerts.Convergence

/-!
# The orders of a run of the check

A run goes through the enabled rules, the open pairs and the loaded notifications in the orders in
which they are returned.  When each pair has at most one active notification, the decision and the
record of a pair do not depend on the order of its notifications (`afterVisit_perm`), and what is
due does not depend on the orders of the loops (`due_perm`).  So the runs of all orders do the same
unless a delivery raises: the exception ends the run, and it depends on the orders what came before
(`orderFree_iff`).

## Main definitions

* `OneActive` : a history with at most one active notification.
* `CheckInput.reorder` : the same run with other orders.
* `OrderFree` : the runs of all orders do the same.
* `IsDue` : the run owes a delivery to a rule and a vulnerability.
-/

namespace ArgusSbomGuard

/-- At most one notification of the history is active. -/
def OneActive (h : List Notification) : Prop := (activeOf h).length ≤ 1

instance (h : List Notification) : Decidable (OneActive h) :=
  inferInstanceAs (Decidable (_ ≤ _))

/-- The order that begins with the elements that satisfy `p`. -/
def Arrangement.startWith {α : Type} (p : α → Bool) : Arrangement α where
  order xs := xs.filter p ++ xs.filter fun x => !p x
  perm xs := List.filter_append_perm p xs

/-- The same run with other orders. -/
def CheckInput.reorder (inp : CheckInput) (alertOrder : Arrangement AlertRule)
    (pairOrder : Arrangement (Uuid × Uuid)) : CheckInput :=
  { inp with alertOrder, pairOrder }

/-- The notifications that are stored after a run: those from before, if it is rolled back. -/
def CheckRun.stored (run : CheckRun) (ns : List Notification) : List Notification :=
  match run.result with
  | .ok ns' => ns'
  | .error _ => ns

section

variable (env : Env) (db : Database) (lib : MailLibrary) (inp : CheckInput)
  (rules : Table AlertRule) (ns : List Notification)

/-- The runs of all orders attempt the same deliveries and store the same notifications. -/
def OrderFree : Prop :=
  ∀ alertOrder pairOrder alertOrder' pairOrder' ns', ns'.Perm ns →
    let run := doCheckAlerts env db lib (inp.reorder alertOrder pairOrder) rules ns
    let run' := doCheckAlerts env db lib (inp.reorder alertOrder' pairOrder') rules ns'
    run'.attempts.Perm run.attempts ∧ (run'.stored ns').Perm (run.stored ns)

/-- The run goes into the pair of a rule and a vulnerability, and its history asks for a
delivery. -/
structure IsDue (alert : AlertRule) (vuln : Vulnerability) : Prop where
  visited : Visited db rules alert vuln
  due : visitDue env db (alert, vuln) (history ns (alert.id, vuln.id)) = true

/-- The delivery for a rule and a vulnerability raises an exception. -/
def Raises (alert : AlertRule) (vuln : Vulnerability) : Prop :=
  ∃ e, deliverPair env db lib inp alert vuln = .error e

end

variable {env : Env} {db : Database} {lib : MailLibrary} {inp : CheckInput}
  {rules : Table AlertRule} {ns ns' h h' : List Notification} {services : List String}
  {alert : AlertRule} {vuln : Vulnerability} {alertOrder : Arrangement AlertRule}
  {pairOrder : Arrangement (Uuid × Uuid)}

/-! ### The order of the notifications -/

/-- One row has one order. -/
theorem eq_of_perm_of_length_le_one {α : Type} {xs ys : List α} (hperm : xs.Perm ys)
    (hlen : ys.length ≤ 1) : xs = ys := by
  rcases ys with _ | ⟨y, _ | ⟨z, ys⟩⟩
  · exact hperm.eq_nil
  · exact hperm.eq_singleton
  · simp at hlen

theorem OneActive.activeOf_eq (hone : OneActive h) (hperm : h'.Perm h) :
    activeOf h' = activeOf h :=
  eq_of_perm_of_length_le_one (hperm.filter _) hone

theorem OneActive.failedOf_eq (hone : OneActive h) (hperm : h'.Perm h) :
    failedOf h' = failedOf h := by
  rw [ArgusSbomGuard.failedOf_eq, ArgusSbomGuard.failedOf_eq, hone.activeOf_eq hperm]

theorem deliveryAction_perm (hone : OneActive h) (hperm : h'.Perm h) :
    deliveryAction h' services = deliveryAction h services := by
  simp only [deliveryAction, hone.activeOf_eq hperm, hone.failedOf_eq hperm]

theorem recordedHistory_perm {pair : Uuid × Uuid} {channel : NotificationChannel} {success : Bool}
    (hone : OneActive h) (hperm : h'.Perm h) :
    (recordedHistory pair services channel success h').Perm
      (recordedHistory pair services channel success h) := by
  have hrow : recordRow h' = recordRow h := by
    funext action channel success services n
    simp only [recordRow, recordedAttempts, hone.failedOf_eq hperm]
  have hnew : recordNew h' = recordNew h := by
    funext action channel success services pair
    simp only [recordNew, recordedAttempts, hone.failedOf_eq hperm]
  simp only [recordedHistory, recordDelivery, deliveryAction_perm hone hperm, hrow, hnew]
  exact (hperm.map _).append_right _

theorem visitDue_perm {visit : AlertRule × Vulnerability} (hone : OneActive h)
    (hperm : h'.Perm h) : visitDue env db visit h' = visitDue env db visit h := by
  simp only [visitDue, visitAction, deliveryAction_perm hone hperm]

/-- A visit makes the same of a history in all orders. -/
theorem afterVisit_perm {visit : AlertRule × Vulnerability} (hone : OneActive h)
    (hperm : h'.Perm h) :
    (afterVisit env db lib inp visit h').Perm (afterVisit env db lib inp visit h) := by
  simp only [afterVisit, visitDue_perm hone hperm]
  split_ifs
  · split
    · exact recordedHistory_perm hone hperm
    · exact hperm
  · exact hperm

/-- Notifications are the same up to order when those of each pair are. -/
theorem perm_of_history (hk : ∀ k, (history ns' k).Perm (history ns k)) : ns'.Perm ns := by
  have hcount : ∀ (ns : List Notification) n, ns.count n = (history ns n.pair).count n := by
    intro ns n
    exact (List.count_filter (p := fun m : Notification => m.pair == n.pair)
      (beq_self_eq_true n.pair)).symm
  refine List.perm_iff_count.2 fun n => ?_
  rw [hcount, hcount ns, (hk n.pair).count_eq]

/-! ### The orders of the loops -/

theorem mem_due_iff {a : Attempt} : a ∈ due env db lib inp rules ns ↔
    ∃ alert vuln, IsDue env db rules ns alert vuln ∧ attemptFor env db lib inp alert vuln = a := by
  rw [mem_due]
  refine exists_congr fun alert => exists_congr fun vuln => ?_
  constructor
  · rintro ⟨hv, hdue, ha⟩
    exact ⟨⟨hv, hdue⟩, ha⟩
  · rintro ⟨⟨hv, hdue⟩, ha⟩
    exact ⟨hv, hdue, ha⟩

theorem IsDue.perm (hone : OneActive (history ns (alert.id, vuln.id))) (hperm : ns'.Perm ns) :
    IsDue env db rules ns' alert vuln ↔ IsDue env db rules ns alert vuln := by
  have hdue : visitDue env db (alert, vuln) (history ns' (alert.id, vuln.id)) =
      visitDue env db (alert, vuln) (history ns (alert.id, vuln.id)) :=
    visitDue_perm hone (hperm.filter _)
  constructor
  · rintro ⟨hv, hd⟩
    exact ⟨hv, hdue ▸ hd⟩
  · rintro ⟨hv, hd⟩
    exact ⟨hv, hdue.trans hd⟩

/-- What is due does not depend on the orders. -/
theorem due_perm (hone : ∀ k, OneActive (history ns k)) (hperm : ns'.Perm ns)
    {alertOrder' : Arrangement AlertRule} {pairOrder' : Arrangement (Uuid × Uuid)} :
    (due env db lib (inp.reorder alertOrder' pairOrder') rules ns').Perm
      (due env db lib (inp.reorder alertOrder pairOrder) rules ns) := by
  refine (List.perm_ext_iff_of_nodup nodup_due.of_map nodup_due.of_map).2 fun a => ?_
  rw [mem_due_iff, mem_due_iff]
  refine exists_congr fun alert => exists_congr fun vuln => ?_
  rw [IsDue.perm (hone _) hperm]
  rfl

/-- Two runs that commit store the same. -/
theorem CheckEffect.perm (hone : ∀ k, OneActive (history ns k)) (hperm : ns'.Perm ns)
    {out out' : List Notification} {alertOrder' : Arrangement AlertRule}
    {pairOrder' : Arrangement (Uuid × Uuid)}
    (heffect : CheckEffect env db lib (inp.reorder alertOrder pairOrder) rules ns out)
    (heffect' : CheckEffect env db lib (inp.reorder alertOrder' pairOrder') rules ns' out') :
    out'.Perm out := by
  refine perm_of_history fun k => ?_
  have hk : (history ns' k).Perm (history ns k) := hperm.filter _
  by_cases hvisited : ∃ alert vuln, Visited db rules alert vuln ∧ (alert.id, vuln.id) = k
  · obtain ⟨alert, vuln, hv, rfl⟩ := hvisited
    rw [heffect.visited alert vuln hv, heffect'.visited alert vuln hv]
    exact afterVisit_perm (hone _) hk
  · have hnot : ∀ alert vuln, Visited db rules alert vuln → (alert.id, vuln.id) ≠ k :=
      fun alert vuln hv heq => hvisited ⟨alert, vuln, hv, heq⟩
    rw [heffect.other k hnot, heffect'.other k hnot]
    split_ifs
    · exact hk.map _
    · exact hk

/-! ### Runs that do the same -/

/-- The orders in which a rule and a pair come first. -/
def CheckInput.startWith (inp : CheckInput) (alert : AlertRule) (vuln : Vulnerability) :
    CheckInput :=
  inp.reorder (.startWith fun a => a.id == alert.id) (.startWith fun p =>
    p == (alert.projectId, vuln.id))

/-- A list without duplicates that has one element. -/
theorem eq_singleton_of_nodup {α : Type} {xs : List α} {a : α} (hnodup : xs.Nodup) (ha : a ∈ xs)
    (hall : ∀ b ∈ xs, b = a) : xs = [a] := by
  refine List.Perm.eq_singleton ?_
  refine (List.perm_ext_iff_of_nodup hnodup (List.nodup_singleton a)).2 fun b => ?_
  rw [List.mem_singleton]
  exact ⟨hall b, fun heq => heq ▸ ha⟩

/-- An element that alone satisfies `p` comes first. -/
theorem Arrangement.order_startWith {α : Type} {p : α → Bool} {xs : List α} {a : α}
    (hnodup : xs.Nodup) (ha : a ∈ xs) (hp : ∀ b ∈ xs, p b = true ↔ b = a) :
    (Arrangement.startWith p).order xs = a :: xs.filter fun x => !p x := by
  have hone : xs.filter p = [a] := by
    refine eq_singleton_of_nodup (hnodup.filter p) (List.mem_filter.2 ⟨ha, (hp a ha).2 rfl⟩) ?_
    intro b hb
    exact (hp b (List.mem_filter.1 hb).1).1 (List.mem_filter.1 hb).2
  change xs.filter p ++ _ = _
  rw [hone, List.singleton_append]

/-- A delivery that is due can be the first one. -/
theorem due_startWith (hdue : IsDue env db rules ns alert vuln) :
    ∃ rest, due env db lib (inp.startWith alert vuln) rules ns =
      attemptFor env db lib inp alert vuln :: rest := by
  obtain ⟨hv, hd⟩ := hdue
  have halerts : ∃ alerts, enabledAlerts (inp.startWith alert vuln) rules = alert :: alerts := by
    refine ⟨_, Arrangement.order_startWith ?_ (List.mem_filter.2 ⟨hv.rule, hv.enabled⟩) ?_⟩
    · exact (rules.unique.filter _).imp fun hne heq => hne (congrArg AlertRule.id heq)
    · intro b hb
      rw [beq_iff_eq]
      exact ⟨rule_eq (List.mem_filter.1 hb).1 hv.rule, congrArg AlertRule.id⟩
  have hpairs : ∃ pairs, (inp.startWith alert vuln).pairOrder.order (openPairs db) =
      (alert.projectId, vuln.id) :: pairs := by
    refine ⟨_, Arrangement.order_startWith (List.nodup_dedup _) (mem_openPairs.2 hv.isOpen) ?_⟩
    exact fun b _ => beq_iff_eq
  obtain ⟨alerts, halerts⟩ := halerts
  obtain ⟨pairs, hpairs⟩ := hpairs
  -- the first visit is the one of the rule and the vulnerability
  have hvisit := visit_eq_some.2 ⟨rfl, rfl, hv.stored, hv.within⟩
  have hruns : ∃ visits, runVisits db (inp.startWith alert vuln) rules =
      (alert, vuln) :: visits := by
    have hfirst : ∀ (f : Uuid × Uuid → Option (AlertRule × Vulnerability)) more,
        f (alert.projectId, vuln.id) = some (alert, vuln) → ∃ visits,
          ((alert.projectId, vuln.id) :: pairs).filterMap f ++ more = (alert, vuln) :: visits :=
      fun f more hf => ⟨_, by rw [List.filterMap_cons_some hf]; rfl⟩
    rw [runVisits, halerts, hpairs, visits, List.flatMap_cons]
    exact hfirst _ _ hvisit
  obtain ⟨visits, hruns⟩ := hruns
  have hd' : visitDue env db (alert, vuln)
      (history (ns.map (resolved db rules)) (visitPair (alert, vuln))) = true := by
    rw [visitPair, hv.history]
    exact hd
  rw [due, hruns, dueAttempts_cons, if_pos hd']
  exact ⟨_, rfl⟩

/-- A run attempts the first delivery that is due. -/
theorem mem_untilRaised_head {a : Attempt} {as : List Attempt} : a ∈ untilRaised (a :: as) := by
  rw [untilRaised]
  split_ifs <;> exact List.mem_cons_self

/-- A run in which a delivery raises is rolled back. -/
theorem stored_of_raised (h : ∃ a ∈ due env db lib inp rules ns, a.outcome = .raised) :
    (doCheckAlerts env db lib inp rules ns).stored ns = ns := by
  obtain ⟨a, ha, hraise⟩ := h
  unfold CheckRun.stored
  split
  · rename_i ns' hres
    exact absurd hraise (doCheckAlerts_commits_iff.1 ⟨ns', hres⟩ a ha)
  · rfl

/-- A run in which no delivery raises stores what it has recorded. -/
theorem stored_of_commits (h : ∀ a ∈ due env db lib inp rules ns, a.outcome ≠ .raised) :
    CheckEffect env db lib inp rules ns ((doCheckAlerts env db lib inp rules ns).stored ns) := by
  obtain ⟨ns', hres⟩ := doCheckAlerts_commits_iff.2 h
  have hstored : (doCheckAlerts env db lib inp rules ns).stored ns = ns' := by
    simp only [CheckRun.stored, hres]
  rw [hstored]
  exact doCheckAlerts_effect hres

section Reorder

variable {alertOrder' : Arrangement AlertRule} {pairOrder' : Arrangement (Uuid × Uuid)}
  (hdue : (due env db lib (inp.reorder alertOrder' pairOrder') rules ns').Perm
    (due env db lib (inp.reorder alertOrder pairOrder) rules ns))

include hdue

/-- Two runs on the same deliveries, none of which raises, do the same. -/
theorem same_of_not_raised (hone : ∀ k, OneActive (history ns k)) (hperm : ns'.Perm ns)
    (hno : ∀ a ∈ due env db lib (inp.reorder alertOrder pairOrder) rules ns,
      a.outcome ≠ .raised) :
    let run := doCheckAlerts env db lib (inp.reorder alertOrder pairOrder) rules ns
    let run' := doCheckAlerts env db lib (inp.reorder alertOrder' pairOrder') rules ns'
    run'.attempts.Perm run.attempts ∧ (run'.stored ns').Perm (run.stored ns) := by
  have hno' : ∀ a ∈ due env db lib (inp.reorder alertOrder' pairOrder') rules ns',
      a.outcome ≠ .raised := fun a ha => hno a (hdue.mem_iff.1 ha)
  refine ⟨?_, (stored_of_commits hno).perm hone hperm (stored_of_commits hno')⟩
  rw [doCheckAlerts_attempts, doCheckAlerts_attempts,
    untilRaised_eq_self fun a ha => hno a (untilRaised_initial.subset ha),
    untilRaised_eq_self fun a ha => hno' a (untilRaised_initial.subset ha)]
  exact hdue

/-- Two runs with one delivery, which raises, do the same: both are rolled back. -/
theorem same_of_single {a : Attempt} (hperm : ns'.Perm ns)
    (hsingle : due env db lib (inp.reorder alertOrder pairOrder) rules ns = [a])
    (hout : a.outcome = .raised) :
    let run := doCheckAlerts env db lib (inp.reorder alertOrder pairOrder) rules ns
    let run' := doCheckAlerts env db lib (inp.reorder alertOrder' pairOrder') rules ns'
    run'.attempts.Perm run.attempts ∧ (run'.stored ns').Perm (run.stored ns) := by
  have hraise : ∃ a ∈ due env db lib (inp.reorder alertOrder pairOrder) rules ns,
      a.outcome = .raised := ⟨a, hsingle ▸ List.mem_singleton_self a, hout⟩
  have hraise' : ∃ a ∈ due env db lib (inp.reorder alertOrder' pairOrder') rules ns',
      a.outcome = .raised := by
    obtain ⟨b, hb, hout⟩ := hraise
    exact ⟨b, hdue.mem_iff.2 hb, hout⟩
  dsimp only
  rw [stored_of_raised hraise, stored_of_raised hraise']
  rw [hsingle] at hdue
  rw [doCheckAlerts_attempts, doCheckAlerts_attempts, hsingle, hdue.eq_singleton]
  exact ⟨.refl _, hperm⟩

end Reorder

/-- When all orders do the same, a delivery that raises is the only one: else one run would end
with it before it gets to the other one, with which another run begins. -/
theorem OrderFree.alone (hfree : OrderFree env db lib inp rules ns) {alert' : AlertRule}
    {vuln' : Vulnerability} (hdue : IsDue env db rules ns alert vuln)
    (hraise : Raises env db lib inp alert vuln) (hdue' : IsDue env db rules ns alert' vuln') :
    (alert'.id, vuln'.id) = (alert.id, vuln.id) := by
  obtain ⟨rest, hfirst⟩ : ∃ rest, due env db lib (inp.startWith alert vuln) rules ns =
      attemptFor env db lib inp alert vuln :: rest := due_startWith hdue
  obtain ⟨rest', hfirst'⟩ : ∃ rest, due env db lib (inp.startWith alert' vuln') rules ns =
      attemptFor env db lib inp alert' vuln' :: rest := due_startWith hdue'
  have hsame : (doCheckAlerts env db lib (inp.startWith alert' vuln') rules ns).attempts.Perm
      (doCheckAlerts env db lib (inp.startWith alert vuln) rules ns).attempts :=
    (hfree _ _ _ _ ns (.refl ns)).1
  rw [doCheckAlerts_attempts, doCheckAlerts_attempts, hfirst, hfirst'] at hsame
  have hmem := hsame.mem_iff.1 mem_untilRaised_head
  rw [untilRaised, if_pos (outcome_raised_iff.2 hraise), List.mem_singleton] at hmem
  exact congrArg Attempt.pair hmem

/-- **When the runs of all orders do the same**: no delivery that is due raises, or it is the only
one. -/
theorem orderFree_iff (hone : ∀ k, OneActive (history ns k)) :
    OrderFree env db lib inp rules ns ↔
      (∀ alert vuln, IsDue env db rules ns alert vuln → ¬ Raises env db lib inp alert vuln) ∨
        ∀ alert vuln alert' vuln', IsDue env db rules ns alert vuln →
          IsDue env db rules ns alert' vuln' → (alert.id, vuln.id) = (alert'.id, vuln'.id) := by
  constructor
  · intro hfree
    by_cases hraise : ∃ alert vuln, IsDue env db rules ns alert vuln ∧
        Raises env db lib inp alert vuln
    · obtain ⟨alert, vuln, hdue, hraise⟩ := hraise
      refine .inr fun alert₁ vuln₁ alert₂ vuln₂ hdue₁ hdue₂ => ?_
      exact (hfree.alone hdue hraise hdue₁).trans (hfree.alone hdue hraise hdue₂).symm
    · exact .inl fun alert vuln hdue h => hraise ⟨alert, vuln, hdue, h⟩
  · intro hcond alertOrder pairOrder alertOrder' pairOrder' ns' hperm
    have hdue : (due env db lib (inp.reorder alertOrder' pairOrder') rules ns').Perm
        (due env db lib (inp.reorder alertOrder pairOrder) rules ns) := due_perm hone hperm
    by_cases hraise : ∃ a ∈ due env db lib (inp.reorder alertOrder pairOrder) rules ns,
        a.outcome = .raised
    · obtain ⟨a, ha, hout⟩ := hraise
      obtain ⟨alert, vuln, hisDue, rfl⟩ := mem_due_iff.1 ha
      have honly := hcond.resolve_left fun hno => hno alert vuln hisDue (outcome_raised_iff.1 hout)
      have hall : ∀ b ∈ due env db lib (inp.reorder alertOrder pairOrder) rules ns,
          b = attemptFor env db lib inp alert vuln := by
        intro b hb
        obtain ⟨alert', vuln', hisDue', rfl⟩ := mem_due_iff.1 hb
        obtain ⟨rfl, rfl⟩ := visited_unique hisDue.visited hisDue'.visited
          (honly alert vuln alert' vuln' hisDue hisDue')
        rfl
      exact same_of_single hdue hperm (eq_singleton_of_nodup nodup_due.of_map ha hall) hout
    · exact same_of_not_raised hdue hone hperm fun a ha hout => hraise ⟨a, ha, hout⟩

/-! ### Examples -/

/-- The runs of `demoBroken` in the order of the rules, and with the broken rule first. -/
theorem demoBroken_attempts :
    (doCheckAlerts alertEnv demoBroken.world.db plainMail
      ((demoCheck fun _ _ => true).reorder (storedOrder AlertRule) (storedOrder (Uuid × Uuid)))
      demoBroken.alerts.rules demoBroken.alerts.notifications).attempts.length = 2 ∧
    (doCheckAlerts alertEnv demoBroken.world.db plainMail
      ((demoCheck fun _ _ => true).reorder (.startWith fun alert => alert.id == 6)
        (storedOrder (Uuid × Uuid)))
      demoBroken.alerts.rules demoBroken.alerts.notifications).attempts.length = 1 := by
  decide +kernel

/-- **The order of the rules matters** when a delivery raises. -/
theorem check_order_matters : (alertSystem alertEnv plainMail).Reachable demoBroken ∧
    (∀ k, OneActive (history demoBroken.alerts.notifications k)) ∧
      ¬ OrderFree alertEnv demoBroken.world.db plainMail (demoCheck fun _ _ => true)
        demoBroken.alerts.rules demoBroken.alerts.notifications := by
  refine ⟨alertDemo_reachable, fun k => ?_, fun hfree => ?_⟩
  · exact ((alertInvariant alertDemo_reachable).pairOk k).length_le
  · have hsame := (hfree (storedOrder AlertRule) (storedOrder (Uuid × Uuid))
      (.startWith fun alert => alert.id == 6) (storedOrder (Uuid × Uuid)) _ (.refl _)).1.length_eq
    rw [demoBroken_attempts.1, demoBroken_attempts.2] at hsame
    cases hsame

/-- Four messages are due, one of them for the second time, and none raises. -/
theorem orderFree_demo : OrderFree alertEnv demoBusy.world.db plainMail
    (demoCheck fun _ _ => true) demoBusy.alerts.rules demoBusy.alerts.notifications := by
  have hone : ∀ k, OneActive (history demoBusy.alerts.notifications k) := fun k =>
    ((alertInvariant alertDemo_reachable).pairOk k).length_le
  refine (orderFree_iff hone).2 (.inl fun alert vuln hdue hraise => ?_)
  have hok : ∀ alert ∈ demoBusy.alerts.rules, ∀ vuln ∈ demoBusy.world.db.vulnerabilities,
      (deliverPair alertEnv demoBusy.world.db plainMail (demoCheck fun _ _ => true) alert
        vuln).isOk = true := by
    decide +kernel
  obtain ⟨e, he⟩ := hraise
  have hthis := hok alert hdue.visited.rule vuln hdue.visited.stored
  rw [he] at hthis
  cases hthis

end ArgusSbomGuard
