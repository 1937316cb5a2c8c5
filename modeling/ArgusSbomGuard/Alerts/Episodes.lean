import ArgusSbomGuard.Alerts.Check
import ArgusSbomGuard.Delivery.Episode

/-!
# The notifications of one pair

The notifications of a rule and a vulnerability are a history of which at most one row is active.
The active row is an `Episode` whose scope is the set of services, and `_delivery_action` and
`_record_delivery` are `Episode.due` and `Episode.attempt`.

## Main definitions

* `Announcement` : the rows that `_record_delivery` leaves active.
* `PairOk` : a history with at most one active row, which is one of these.
* `episode` : the episode of a history.
-/

namespace ArgusSbomGuard

/-- A delivered notification has no failed attempts, and a failed one at least one and at most the
allowed number. -/
def Announcement (n : Notification) : Prop :=
  (n.status = .SENT ∧ n.attempts = 0) ∨
    (n.status = .FAILED ∧ 1 ≤ n.attempts ∧ n.attempts ≤ maxAlertDeliveryAttempts)

/-- At most one row of a history is active, and it is an announcement. -/
def PairOk (h : List Notification) : Prop :=
  activeOf h = [] ∨ ∃ n, activeOf h = [n] ∧ Announcement n

/-- How far the announcement of a pair has come. -/
def episode (h : List Notification) : Episode (Finset String) :=
  match activeOf h with
  | [] => .idle
  | n :: _ => if n.status = .SENT then .sent n.services else .failed n.services n.attempts

variable {h : List Notification} {n : Notification} {services : List String} {pair : Uuid × Uuid}

theorem Announcement.active (hn : Announcement n) : n.active = true := by
  rcases hn with ⟨hst, -⟩ | ⟨hst, -⟩ <;> simp [Notification.active, hst]

theorem active_of_status (hn : n.status = .SENT ∨ n.status = .FAILED) : n.active = true := by
  rcases hn with hst | hst <;> simp [Notification.active, hst]

theorem mem_activeOf : n ∈ activeOf h ↔ n ∈ h ∧ n.active = true := List.mem_filter

theorem PairOk.announcement (hok : PairOk h) (hn : n ∈ h) (hact : n.active = true) :
    Announcement n := by
  have hmem : n ∈ activeOf h := mem_activeOf.2 ⟨hn, hact⟩
  rcases hok with hnil | ⟨a, ha, hann⟩
  · rw [hnil] at hmem
    exact absurd hmem List.not_mem_nil
  · rw [ha, List.mem_singleton] at hmem
    exact hmem ▸ hann

theorem PairOk.length_le (hok : PairOk h) : (activeOf h).length ≤ 1 := by
  rcases hok with hnil | ⟨a, ha, -⟩
  · simp [hnil]
  · simp [ha]

/-- An active row is the only one. -/
theorem PairOk.activeOf_eq (hok : PairOk h) (hn : n ∈ h) (hact : n.active = true) :
    activeOf h = [n] := by
  have hmem : n ∈ activeOf h := mem_activeOf.2 ⟨hn, hact⟩
  rcases hok with hnil | ⟨m, hm, -⟩
  · rw [hnil] at hmem
    exact absurd hmem List.not_mem_nil
  · rw [hm, List.mem_singleton] at hmem
    rw [hm, hmem]

/-- The failed rows are active. -/
theorem failedOf_eq : failedOf h = (activeOf h).filter fun n => n.status == .FAILED := by
  rw [failedOf, activeOf, List.filter_filter]
  refine List.filter_congr fun n _ => ?_
  cases hst : n.status <;> simp [Notification.active, hst]

/-! ### The decision -/

theorem deliveryAction_of_nil (hnil : activeOf h = []) :
    deliveryAction h services = .DELIVER := by
  have hfailed : failedOf h = [] := by rw [failedOf_eq, hnil]; rfl
  simp only [deliveryAction, hnil, hfailed]
  rfl

theorem deliveryAction_of_sent (ha : activeOf h = [n]) (hst : n.status = .SENT) :
    deliveryAction h services = if n.services = services.toFinset then .SKIP else .RESEND := by
  simp [deliveryAction, ha, hst]

theorem deliveryAction_of_failed (ha : activeOf h = [n]) (hst : n.status = .FAILED) :
    deliveryAction h services = if n.services ≠ services.toFinset then .RESEND
      else if maxAlertDeliveryAttempts ≤ n.attempts then .GIVE_UP else .RETRY := by
  have hfailed : failedOf h = [n] := by
    rw [failedOf_eq, ha]
    simp [hst]
  simp [deliveryAction, ha, hst, hfailed, maxAttempts]

/-- **The decision is that of the episode.** -/
theorem delivers_iff_due (hok : PairOk h) : (deliveryAction h services).delivers =
    (episode h).due maxAlertDeliveryAttempts services.toFinset := by
  rcases hok with hnil | ⟨n, ha, ⟨hst, -⟩ | ⟨hst, -⟩⟩
  · rw [deliveryAction_of_nil hnil, episode, hnil]
    rfl
  · rw [deliveryAction_of_sent ha hst]
    simp only [episode, ha, hst, if_true, Episode.due]
    split_ifs with hs <;> simp [hs, DeliveryAction.delivers]
  · rw [deliveryAction_of_failed ha hst]
    simp only [episode, ha, hst, reduceCtorEq, if_false, Episode.due]
    split_ifs with hs hmax
    · simp [hs, DeliveryAction.delivers]
    · simp [not_not.1 hs, DeliveryAction.delivers, hmax]
    · simp [DeliveryAction.delivers, not_le.1 hmax]

theorem bounded_episode (hok : PairOk h) : (episode h).Bounded maxAlertDeliveryAttempts := by
  rcases hok with hnil | ⟨n, ha, ⟨hst, -⟩ | ⟨hst, hbound⟩⟩
  · rw [episode, hnil]
    trivial
  · simp only [episode, ha, hst, if_true]
    trivial
  · simp only [episode, ha, hst, reduceCtorEq, if_false]
    exact hbound

/-! ### What recording leaves -/

/-- The active rows after an update of the rows of a history. -/
theorem activeOf_map {f : Notification → Notification} (keep : Notification → Bool)
    (hf : ∀ n ∈ h, (f n).active = keep n) : activeOf (h.map f) = (h.filter keep).map f := by
  rw [activeOf, List.filter_map]
  exact congrArg _ (List.filter_congr fun n hn => hf n hn)

theorem activeOf_append {h' : List Notification} : activeOf (h ++ h') = activeOf h ++ activeOf h' :=
  List.filter_append ..

/-- The notification that an attempt leaves active. -/
structure Recorded (pair : Uuid × Uuid) (services : List String) (success : Bool)
    (failures : ℕ) (n : Notification) : Prop where
  pair : n.pair = pair
  serviceIds : n.serviceIds = some services
  status : n.status = if success then .SENT else .FAILED
  attempts : n.attempts = if success then 0 else failures + 1

/-- The history of a pair after `_record_delivery`. -/
def recordedHistory (pair : Uuid × Uuid) (services : List String) (channel : NotificationChannel)
    (success : Bool) (h : List Notification) : List Notification :=
  let recorded := recordDelivery h (deliveryAction h services) channel success services pair h
  recorded.1 ++ recorded.2

/-- The rows of a pair are all updated. -/
theorem recordDelivery_fst {existing : List Notification} {action : DeliveryAction}
    {channel : NotificationChannel} {success : Bool} (hpair : ∀ n ∈ h, n.pair = pair) :
    (recordDelivery existing action channel success services pair h).1 =
      h.map (recordRow existing action channel success services) :=
  List.map_congr_left fun n hn => if_pos (hpair n hn)

/-- A resend resolves all rows and adds a new one. -/
theorem recordDelivery_resend {existing : List Notification} {channel : NotificationChannel}
    {success : Bool} (hpair : ∀ n ∈ h, n.pair = pair) :
    ∃ n, activeOf ((recordDelivery existing .RESEND channel success services pair h).1 ++
        (recordDelivery existing .RESEND channel success services pair h).2) = [n] ∧
      Recorded pair services success 0 n := by
  have hresolved : activeOf (h.map (recordRow existing .RESEND channel success services)) = [] := by
    rw [activeOf_map fun _ => false]
    · simp
    · intro n _
      by_cases hst : n.status = .RESOLVED <;>
        simp [recordRow, hst, Notification.active, Notification.resolve]
  refine ⟨⟨pair.1, pair.2, some services, some channel, recordedStatus success,
    recordedAttempts existing .RESEND success⟩, ?_, rfl, rfl, rfl, rfl⟩
  rw [activeOf_append, recordDelivery_fst hpair, hresolved]
  cases success <;> rfl

/-- A delivery adds a row when nothing is active. -/
theorem recordDelivery_deliver {channel : NotificationChannel} {success : Bool}
    (hpair : ∀ n ∈ h, n.pair = pair) (hnil : activeOf h = []) :
    ∃ n, activeOf ((recordDelivery h .DELIVER channel success services pair h).1 ++
        (recordDelivery h .DELIVER channel success services pair h).2) = [n] ∧
      Recorded pair services success 0 n := by
  have hfailed : failedOf h = [] := by rw [failedOf_eq, hnil]; rfl
  have hrow : ∀ n ∈ h, recordRow h .DELIVER channel success services n = n := by
    intro n hn
    have hst : n.status ≠ .FAILED := fun hst => by
      have hmem : n ∈ failedOf h := List.mem_filter.2 ⟨hn, by simp [hst]⟩
      rw [hfailed] at hmem
      exact List.not_mem_nil hmem
    simp only [recordRow, reduceCtorEq, if_false, if_neg hst]
  refine ⟨⟨pair.1, pair.2, some services, some channel, recordedStatus success,
    recordedAttempts h .DELIVER success⟩, ?_, rfl, rfl, rfl, ?_⟩
  · rw [activeOf_append, recordDelivery_fst hpair, List.map_congr_left hrow, List.map_id', hnil]
    simp only [recordDelivery, recordNew, hfailed, ne_eq, not_true, and_false, if_false]
    cases success <;> rfl
  · simp only [recordedAttempts, hfailed, reduceCtorEq, if_false]
    rfl

/-- A retry updates the failed row in place. -/
theorem recordDelivery_retry {channel : NotificationChannel} {success : Bool}
    (hpair : ∀ n ∈ h, n.pair = pair) (ha : activeOf h = [n]) (hst : n.status = .FAILED) :
    ∃ n', activeOf ((recordDelivery h .RETRY channel success services pair h).1 ++
        (recordDelivery h .RETRY channel success services pair h).2) = [n'] ∧
      Recorded pair services success n.attempts n' := by
  have hfailed : failedOf h = [n] := by
    rw [failedOf_eq, ha]
    simp [hst]
  have hn : n ∈ h := (mem_activeOf.1 (ha ▸ List.mem_singleton_self n)).1
  refine ⟨recordRow h .RETRY channel success services n, ?_, ?_⟩
  · rw [recordDelivery_fst hpair, recordDelivery, recordNew, hfailed, if_pos (by simp),
      List.append_nil, activeOf_map (·.active), ← activeOf, ha]
    · rfl
    · intro a _
      by_cases hfa : a.status = .FAILED
      · rw [active_of_status (.inr hfa)]
        refine active_of_status ?_
        cases success <;> simp [recordRow, hfa, recordedStatus]
      · simp [recordRow, hfa]
  · simp only [recordRow, reduceCtorEq, if_false, if_pos hst]
    exact ⟨hpair n hn, rfl, rfl, by simp [recordedAttempts, hfailed, maxAttempts]⟩

/-- **Recording an attempt leaves one active row.** -/
theorem activeOf_recordedHistory {channel : NotificationChannel} {success : Bool}
    (hpair : ∀ n ∈ h, n.pair = pair) (hok : PairOk h)
    (hdel : (deliveryAction h services).delivers = true) :
    ∃ n, activeOf (recordedHistory pair services channel success h) = [n] ∧
      Recorded pair services success ((episode h).failures services.toFinset) n := by
  unfold recordedHistory
  dsimp only
  rcases hok with hnil | ⟨n, ha, ⟨hst, -⟩ | ⟨hst, -⟩⟩
  -- nothing is active: a new row
  · have hfail : (episode h).failures services.toFinset = 0 := by
      simp only [episode, hnil, Episode.failures]
    rw [deliveryAction_of_nil hnil, hfail]
    exact recordDelivery_deliver hpair hnil
  -- a delivered row for other services
  · rw [deliveryAction_of_sent ha hst] at hdel ⊢
    split_ifs at hdel ⊢ with hs
    · cases hdel
    · have hfail : (episode h).failures services.toFinset = 0 := by
        simp only [episode, ha, hst, if_true, Episode.failures]
      rw [hfail]
      exact recordDelivery_resend hpair
  · rw [deliveryAction_of_failed ha hst] at hdel ⊢
    split_ifs at hdel ⊢ with hs hmax
    · have hfail : (episode h).failures services.toFinset = 0 := by
        simp only [episode, ha, hst, reduceCtorEq, if_false, Episode.failures, if_neg hs]
      rw [hfail]
      exact recordDelivery_resend hpair
    · cases hdel
    -- a failed row for the same services, updated in place
    · have hfail : (episode h).failures services.toFinset = n.attempts := by
        simp only [episode, ha, hst, reduceCtorEq, if_false, Episode.failures,
          if_pos (not_not.1 hs)]
      rw [hfail]
      exact recordDelivery_retry hpair ha hst

theorem Recorded.services_eq {success : Bool} {failures : ℕ}
    (hn : Recorded pair services success failures n) : n.services = services.toFinset := by
  rw [Notification.services, hn.serviceIds, Option.getD_some]

/-- A history whose only active row records an attempt has that attempt as its episode. -/
theorem Recorded.episode {success : Bool} {e : Episode (Finset String)} (ha : activeOf h = [n])
    (hn : Recorded pair services success (e.failures services.toFinset) n) :
    episode h = e.attempt services.toFinset success := by
  have hservices := hn.services_eq
  cases success with
  | true =>
    have hst : n.status = .SENT := hn.status
    simp only [ArgusSbomGuard.episode, ha, hst, if_true, Episode.attempt, hservices]
  | false =>
    have hst : n.status = .FAILED := hn.status
    have hattempts : n.attempts = e.failures services.toFinset + 1 := hn.attempts
    simp [ArgusSbomGuard.episode, ha, hst, Episode.attempt, hservices, hattempts]

/-- The row left by an attempt that was due is an announcement. -/
theorem Recorded.announcement {success : Bool} (hok : PairOk h)
    (hdel : (deliveryAction h services).delivers = true)
    (hn : Recorded pair services success
      ((ArgusSbomGuard.episode h).failures services.toFinset) n) :
    Announcement n := by
  cases success with
  | true => exact .inl ⟨hn.status, hn.attempts⟩
  | false =>
    have hbound : ((ArgusSbomGuard.episode h).attempt services.toFinset false).Bounded
        maxAlertDeliveryAttempts :=
      Episode.bounded_attempt (by decide) (delivers_iff_due hok ▸ hdel)
    refine .inr ⟨hn.status, ?_⟩
    rw [hn.attempts]
    exact hbound

end ArgusSbomGuard
