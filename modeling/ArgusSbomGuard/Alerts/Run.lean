import ArgusSbomGuard.Alerts.Episodes

/-!
# The loop of the check

The loop visits each pair of a rule and a vulnerability once, so that what it does to a pair
depends on the notifications of that pair alone.  `checkVisits_attempts` says which deliveries it
attempts, up to the first one that raises, and `checkVisits_history` what it leaves of each
history.

## Main definitions

* `visitDue`, `afterVisit` : what a visit decides, and what it leaves of the history of its pair.
* `dueAttempts` : the deliveries that are due, in the order of the run.
* `untilRaised` : a list of attempts up to the first one that raises.
-/

namespace ArgusSbomGuard

/-- The rule and the vulnerability of a visit. -/
def visitPair (visit : AlertRule × Vulnerability) : Uuid × Uuid := (visit.1.id, visit.2.id)

/-- The attempts up to the first one that raises, with it. -/
def untilRaised : List Attempt → List Attempt
  | [] => []
  | a :: as => if a.outcome = .raised then [a] else a :: untilRaised as

variable (env : Env) (db : Database) (lib : MailLibrary) (inp : CheckInput)

/-- What a visit decides for a history. -/
def visitAction (visit : AlertRule × Vulnerability) (h : List Notification) : DeliveryAction :=
  deliveryAction h (currentServices env db visit.1.projectId visit.2.id)

/-- A delivery is due. -/
def visitDue (visit : AlertRule × Vulnerability) (h : List Notification) : Bool :=
  (visitAction env db visit h).delivers

/-- The deliveries that are due in some visits. -/
def dueAttempts (visits : List (AlertRule × Vulnerability)) (rows : List Notification) :
    List Attempt :=
  (visits.filter fun visit => visitDue env db visit (history rows (visitPair visit))).map
    fun visit => attemptFor env db lib inp visit.1 visit.2

/-- The history of a pair after a visit. -/
def afterVisit (visit : AlertRule × Vulnerability) (h : List Notification) : List Notification :=
  if visitDue env db visit h then
    match deliverPair env db lib inp visit.1 visit.2 with
    | .ok (channel, success) => recordedHistory (visitPair visit)
        (currentServices env db visit.1.projectId visit.2.id) channel success h
    | .error _ => h
  else h

variable {env db lib inp} {rows added ns : List Notification} {pair : Uuid × Uuid}
  {visits : List (AlertRule × Vulnerability)} {visit : AlertRule × Vulnerability}

/-! ### Attempts up to an exception -/

theorem untilRaised_initial {as : List Attempt} : untilRaised as <+: as := by
  induction as with
  | nil => exact List.prefix_rfl
  | cons a as ih =>
    rw [untilRaised]
    split_ifs
    · exact (List.prefix_append [a] as)
    · exact List.cons_prefix_cons.2 ⟨rfl, ih⟩

/-- Attempts that do not raise are all gone through. -/
theorem untilRaised_append {xs ys : List Attempt} (h : ∀ x ∈ xs, x.outcome ≠ .raised) :
    untilRaised (xs ++ ys) = xs ++ untilRaised ys := by
  induction xs with
  | nil => rfl
  | cons x xs ih =>
    obtain ⟨hx, hxs⟩ := List.forall_mem_cons.1 h
    rw [List.cons_append, untilRaised, if_neg hx, ih hxs, List.cons_append]

/-- An attempt that raises is the last one. -/
theorem untilRaised_raised {xs ys : List Attempt} {a : Attempt} (ha : a ∈ xs)
    (hraise : a.outcome = .raised) : untilRaised (xs ++ ys) = untilRaised xs := by
  induction xs with
  | nil => exact absurd ha List.not_mem_nil
  | cons x xs ih =>
    rw [List.cons_append, untilRaised, untilRaised]
    split_ifs with hx
    · rfl
    · rcases List.mem_cons.1 ha with rfl | ha
      · exact absurd hraise hx
      · rw [ih ha]

/-- Everything is gone through when only the last attempt may raise. -/
theorem untilRaised_eq_self_iff {as : List Attempt} : untilRaised as = as ↔
    ∀ xs a ys, as = xs ++ a :: ys → a.outcome = .raised → ys = [] := by
  constructor
  · rintro h xs a ys rfl hraise
    rw [List.append_cons, untilRaised_raised (List.mem_append_right xs (List.mem_singleton_self a))
      hraise] at h
    have hinitial : untilRaised (xs ++ [a]) <+: xs ++ [a] := untilRaised_initial
    rw [h] at hinitial
    simpa using hinitial.length_le
  · intro h
    induction as with
    | nil => rfl
    | cons a as ih =>
      rw [untilRaised]
      split_ifs with ha
      · rw [h [] a as rfl ha]
      · rw [ih fun xs b ys heq => h (a :: xs) b ys (congrArg (List.cons a) heq)]

/-- Attempts none of which raised are all there were. -/
theorem untilRaised_eq_self {as : List Attempt} (h : ∀ a ∈ untilRaised as, a.outcome ≠ .raised) :
    untilRaised as = as := by
  induction as with
  | nil => rfl
  | cons a as ih =>
    rw [untilRaised] at h ⊢
    split_ifs at h ⊢ with ha
    · exact absurd ha (h a (List.mem_singleton_self a))
    · rw [ih fun b hb => h b (List.mem_cons_of_mem a hb)]

/-! ### Histories -/

theorem mem_history {n : Notification} : n ∈ history rows pair ↔ n ∈ rows ∧ n.pair = pair := by
  simp [history]

theorem history_append : history (rows ++ added) pair = history rows pair ++ history added pair :=
  List.filter_append ..

/-- An update of the rows of one pair that leaves the pairs alone. -/
theorem history_map {f : Notification → Notification} (hf : ∀ n, (f n).pair = n.pair) :
    history (rows.map f) pair = (history rows pair).map f := by
  rw [history, List.filter_map]
  refine congrArg _ (List.filter_congr fun n _ => ?_)
  simp [hf]

section Record

variable {existing : List Notification} {action : DeliveryAction} {channel : NotificationChannel}
  {success : Bool} {services : List String}

theorem pair_recordRow (n : Notification) :
    (recordRow existing action channel success services n).pair = n.pair := by
  unfold recordRow
  split_ifs <;> rfl

theorem pair_recordNew {n : Notification}
    (hn : n ∈ recordNew existing action channel success services pair) : n.pair = pair := by
  unfold recordNew at hn
  split_ifs at hn
  · exact absurd hn List.not_mem_nil
  · rw [List.mem_singleton.1 hn]
    rfl

theorem history_recordDelivery {k : Uuid × Uuid} :
    history (recordDelivery existing action channel success services pair rows).1 k =
      (recordDelivery existing action channel success services pair (history rows k)).1 := by
  refine history_map fun n => ?_
  split_ifs
  · exact pair_recordRow n
  · rfl

/-- Recording a delivery does not touch the rows of other pairs. -/
theorem history_recordDelivery_of_ne {k : Uuid × Uuid} (hk : k ≠ pair) :
    history (recordDelivery existing action channel success services pair rows).1 k =
        history rows k ∧
      history (recordDelivery existing action channel success services pair rows).2 k = [] := by
  constructor
  · rw [history_recordDelivery]
    refine (List.map_congr_left fun n hn => ?_).trans (List.map_id _)
    exact if_neg ((mem_history.1 hn).2 ▸ hk)
  · refine List.eq_nil_iff_forall_not_mem.2 fun n hn => ?_
    obtain ⟨hn, hpair⟩ := mem_history.1 hn
    exact hk (hpair.symm.trans (pair_recordNew hn))

/-- The added rows are those of the pair. -/
theorem history_recordNew : history (recordNew existing action channel success services pair)
    pair = recordNew existing action channel success services pair :=
  List.filter_eq_self.2 fun n hn => by simpa using pair_recordNew hn

end Record

/-! ### The loop -/

theorem dueAttempts_cons : dueAttempts env db lib inp (visit :: visits) rows =
    if visitDue env db visit (history rows (visitPair visit)) then
      attemptFor env db lib inp visit.1 visit.2 :: dueAttempts env db lib inp visits rows
    else dueAttempts env db lib inp visits rows := by
  unfold dueAttempts
  rw [List.filter_cons]
  split_ifs <;> rfl

/-- What is due in the visits of other pairs does not depend on a pair. -/
theorem dueAttempts_congr {rows' : List Notification}
    (h : ∀ v ∈ visits, history rows' (visitPair v) = history rows (visitPair v)) :
    dueAttempts env db lib inp visits rows' = dueAttempts env db lib inp visits rows := by
  unfold dueAttempts
  rw [List.filter_congr fun v hv => by rw [h v hv]]

/-- The rows of the later visits are those from before a visit. -/
theorem history_later {existing : List Notification} {action : DeliveryAction}
    {channel : NotificationChannel} {success : Bool} {services : List String}
    (hnot : visitPair visit ∉ visits.map visitPair) :
    ∀ v ∈ visits,
      history (recordDelivery existing action channel success services (visitPair visit) rows).1
          (visitPair v) = history rows (visitPair v) ∧
        history (recordDelivery existing action channel success services (visitPair visit) rows).2
          (visitPair v) = [] := fun _ hv =>
  history_recordDelivery_of_ne fun heq => hnot (heq ▸ List.mem_map_of_mem hv)

/-- One step of the loop, for a delivery that is due and does not raise. -/
theorem checkVisits_due {channel : NotificationChannel} {success : Bool}
    (hdue : visitDue env db visit (history rows (visitPair visit)) = true)
    (hdel : deliverPair env db lib inp visit.1 visit.2 = .ok (channel, success)) :
    ∃ recorded, recorded = recordDelivery (history rows (visitPair visit))
        (visitAction env db visit (history rows (visitPair visit))) channel success
        (currentServices env db visit.1.projectId visit.2.id) (visitPair visit) rows ∧
      checkVisits env db lib inp (visit :: visits) rows added =
        ⟨attemptFor env db lib inp visit.1 visit.2 ::
            (checkVisits env db lib inp visits recorded.1 (added ++ recorded.2)).attempts,
          (checkVisits env db lib inp visits recorded.1 (added ++ recorded.2)).result⟩ := by
  refine ⟨_, rfl, ?_⟩
  obtain ⟨alert, vuln⟩ := visit
  have hdue' : (deliveryAction (history rows (alert.id, vuln.id))
      (currentServices env db alert.projectId vuln.id)).delivers = true := hdue
  have hdel' : deliverPair env db lib inp alert vuln = .ok (channel, success) := hdel
  simp only [checkVisits, if_pos hdue', hdel']
  rfl

/-- One step of the loop, for a delivery that raises. -/
theorem checkVisits_raise {e : PyError}
    (hdue : visitDue env db visit (history rows (visitPair visit)) = true)
    (hdel : deliverPair env db lib inp visit.1 visit.2 = .error e) :
    checkVisits env db lib inp (visit :: visits) rows added =
      ⟨[attemptFor env db lib inp visit.1 visit.2], .error e⟩ := by
  obtain ⟨alert, vuln⟩ := visit
  have hdue' : (deliveryAction (history rows (alert.id, vuln.id))
      (currentServices env db alert.projectId vuln.id)).delivers = true := hdue
  have hdel' : deliverPair env db lib inp alert vuln = .error e := hdel
  simp only [checkVisits, if_pos hdue', hdel']

/-- One step of the loop, when nothing is due. -/
theorem checkVisits_skip (hdue : ¬ visitDue env db visit (history rows (visitPair visit)) = true) :
    checkVisits env db lib inp (visit :: visits) rows added =
      checkVisits env db lib inp visits rows added := by
  obtain ⟨alert, vuln⟩ := visit
  exact if_neg hdue

theorem outcome_raised_iff {alert : AlertRule} {vuln : Vulnerability} :
    (attemptFor env db lib inp alert vuln).outcome = .raised ↔
      ∃ e, deliverPair env db lib inp alert vuln = .error e := by
  simp only [attemptFor]
  cases deliverPair env db lib inp alert vuln with
  | error e => simp [outcomeOf]
  | ok r => obtain ⟨channel, success⟩ := r; cases success <;> simp [outcomeOf]

/-- One step of the loop, and what is due in it and later: nothing is due, an attempt raises and
ends the loop, or an attempt is recorded, on which what is due later does not depend. -/
theorem checkVisits_cons (hnot : visitPair visit ∉ visits.map visitPair) :
    (dueAttempts env db lib inp (visit :: visits) rows = dueAttempts env db lib inp visits rows ∧
      checkVisits env db lib inp (visit :: visits) rows added =
        checkVisits env db lib inp visits rows added) ∨
    ∃ a, dueAttempts env db lib inp (visit :: visits) rows =
        a :: dueAttempts env db lib inp visits rows ∧
      ((a.outcome = .raised ∧ ∃ e,
          checkVisits env db lib inp (visit :: visits) rows added = ⟨[a], .error e⟩) ∨
        a.outcome ≠ .raised ∧ ∃ rows' added',
          dueAttempts env db lib inp visits rows' = dueAttempts env db lib inp visits rows ∧
          checkVisits env db lib inp (visit :: visits) rows added =
            ⟨a :: (checkVisits env db lib inp visits rows' added').attempts,
              (checkVisits env db lib inp visits rows' added').result⟩) := by
  rw [dueAttempts_cons]
  by_cases hdue : visitDue env db visit (history rows (visitPair visit)) = true
  case neg => exact .inl ⟨if_neg hdue, checkVisits_skip hdue⟩
  refine .inr ⟨_, if_pos hdue, ?_⟩
  cases hdel : deliverPair env db lib inp visit.1 visit.2 with
  | error e => exact .inl ⟨outcome_raised_iff.2 ⟨e, hdel⟩, e, checkVisits_raise hdue hdel⟩
  | ok r =>
    obtain ⟨recorded, hrec, hstep⟩ := checkVisits_due hdue hdel
    refine .inr ⟨fun h => ?_, _, _, dueAttempts_congr fun v hv => ?_, hstep⟩
    · obtain ⟨e, he⟩ := outcome_raised_iff.1 h
      cases hdel.symm.trans he
    · rw [hrec]
      exact (history_later hnot v hv).1

/-- **The attempts of a run**: what is due, up to the first attempt that raises. -/
theorem checkVisits_attempts (hnodup : (visits.map visitPair).Nodup) :
    (checkVisits env db lib inp visits rows added).attempts =
      untilRaised (dueAttempts env db lib inp visits rows) := by
  induction visits generalizing rows added with
  | nil => rfl
  | cons visit visits ih =>
    obtain ⟨hnot, hnodup⟩ := List.nodup_cons.1 hnodup
    rcases checkVisits_cons hnot with
      ⟨hdue, hskip⟩ | ⟨a, hdue, ⟨hraised, e, hraise⟩ | ⟨hno, rows', added', hlater, hstep⟩⟩
    · rw [hdue, hskip, ih hnodup]
    · rw [hdue, hraise, untilRaised, if_pos hraised]
    · rw [hdue, hstep, untilRaised, if_neg hno, ih hnodup, hlater]

/-- **A run commits exactly when nothing that is due raises.** -/
theorem checkVisits_commits_iff (hnodup : (visits.map visitPair).Nodup) :
    (∃ ns, (checkVisits env db lib inp visits rows added).result = .ok ns) ↔
      ∀ a ∈ dueAttempts env db lib inp visits rows, a.outcome ≠ .raised := by
  induction visits generalizing rows added with
  | nil => exact ⟨fun _ a ha => absurd ha List.not_mem_nil, fun _ => ⟨_, rfl⟩⟩
  | cons visit visits ih =>
    obtain ⟨hnot, hnodup⟩ := List.nodup_cons.1 hnodup
    rcases checkVisits_cons hnot with
      ⟨hdue, hskip⟩ | ⟨a, hdue, ⟨hraised, e, hraise⟩ | ⟨hno, rows', added', hlater, hstep⟩⟩
    · rw [hdue, hskip, ih hnodup]
    · rw [hdue, hraise, List.forall_mem_cons]
      exact iff_of_false not_isOk_error fun h => h.1 hraised
    · rw [hdue, hstep, List.forall_mem_cons, and_iff_right hno, ih hnodup, hlater]

/-- **What a run that commits leaves of each history.** -/
theorem checkVisits_history (hnodup : (visits.map visitPair).Nodup)
    (hadded : ∀ v ∈ visits, history added (visitPair v) = [])
    (h : (checkVisits env db lib inp visits rows added).result = .ok ns) :
    (∀ v ∈ visits, history ns (visitPair v) =
        afterVisit env db lib inp v (history rows (visitPair v))) ∧
      ∀ k ∉ visits.map visitPair, history ns k = history rows k ++ history added k := by
  induction visits generalizing rows added with
  | nil =>
    obtain rfl := Except.ok.inj h
    exact ⟨fun v hv => absurd hv List.not_mem_nil, fun k _ => history_append⟩
  | cons visit visits ih =>
    obtain ⟨hnot, hnodup⟩ := List.nodup_cons.1 hnodup
    obtain ⟨hadded₀, hadded⟩ := List.forall_mem_cons.1 hadded
    rw [List.forall_mem_cons]
    by_cases hdue : visitDue env db visit (history rows (visitPair visit)) = true
    case neg =>
      rw [checkVisits_skip hdue] at h
      obtain ⟨hvisits, hother⟩ := ih hnodup hadded h
      refine ⟨⟨?_, hvisits⟩, fun k hk => hother k fun hmem => hk (List.mem_cons_of_mem _ hmem)⟩
      rw [hother _ hnot, hadded₀, List.append_nil, afterVisit, if_neg hdue]
    cases hdel : deliverPair env db lib inp visit.1 visit.2 with
    | error e =>
      rw [checkVisits_raise hdue hdel] at h
      cases h
    | ok r =>
      obtain ⟨recorded, hrec, hstep⟩ := checkVisits_due hdue hdel
      rw [hstep] at h
      have hlater := fun v hv => hrec ▸ history_later hnot v hv
      obtain ⟨hvisits, hother⟩ := ih hnodup (fun v hv => by
        rw [history_append, hadded v hv, (hlater v hv).2, List.append_nil]) h
      refine ⟨⟨?_, fun v hv => ?_⟩, fun k hk => ?_⟩
      · rw [hother _ hnot, history_append, hadded₀, List.nil_append, afterVisit, if_pos hdue, hdel,
          hrec, history_recordDelivery]
        exact congrArg _ history_recordNew
      · rw [hvisits v hv, (hlater v hv).1]
      · obtain ⟨hne, hk⟩ := not_or.1 (mt List.mem_cons.2 hk)
        have hsame := hrec ▸ history_recordDelivery_of_ne hne
        rw [hother k hk, history_append, hsame.1, hsame.2, List.append_nil]

end ArgusSbomGuard
