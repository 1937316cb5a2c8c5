import ArgusSbomGuard.Listing.Vulnerabilities
import ArgusSbomGuard.Metrics.Posture
import ArgusSbomGuard.Relational.Newest
import ArgusSbomGuard.System.World
import Mathlib.Data.Int.Interval

/-!
# The trend of the snapshots

Snapshots are taken for any day and any number of times, and old ones are pruned, while the rest of
the system goes on.  What the table holds for a day is what the last snapshot for it has computed,
unless it was pruned since (`storedTrend_run`).  The chart of the dashboard and the MCP tool
`get_snapshot` show the newest of these days in ascending order, whatever the database does with the
rows (`trend_shown`), and pruning takes from the chart just the days before its cutoff and leaves
nothing else stored (`chart_after_prune`).

## Main definitions

* `pruneSnapshots`, `getSnapshot` : `prune_snapshots` and `get_snapshot`.
* `TrendWorld`, `TrendAction`, `trendSystem` : the machine.
* `Trend`, `trendOf` : what should be stored, by the history of a run.
* `storedTrend` : what the table holds.
-/

namespace ArgusSbomGuard

/-- `snapshot_retention_days`, within the bounds of its field. -/
structure SnapshotRetention where
  days : ℕ
  bounds : 30 ≤ days ∧ days ≤ 180

/-- `prune_snapshots`. -/
def pruneSnapshots (snapshots : Table VulnerabilitySnapshot) (retention : SnapshotRetention)
    (today : Date) : Except PyError (Table VulnerabilitySnapshot) := do
  let cutoff ← daysBefore today (retention.days - 1)
  return snapshots.deleteWhere fun row =>
    decide (row.snapshotDate < cutoff) && row.projectId == none

/-- `SnapshotItem`. -/
structure SnapshotItem where
  date : Date
  figures : SnapshotFigures
  deriving DecidableEq

/-- A row as an item. -/
def VulnerabilitySnapshot.item (row : VulnerabilitySnapshot) : SnapshotItem :=
  ⟨row.snapshotDate, row.figures⟩

/-- `get_snapshot`: the number of items and the items; its query is that of the dashboard with
another limit. -/
def getSnapshot (snapshots : Table VulnerabilitySnapshot) (days : ℤ) :
    Except McpError (ℕ × List SnapshotItem) :=
  if days < 1 ∨ days > 365 then .error (.toolError "days must be between 1 and 365")
  else
    let items := (snapRows snapshots days.toNat).map VulnerabilitySnapshot.item
    .ok (items.length, items)

/-! ### The machine -/

/-- The system with the table of the snapshots. -/
structure TrendWorld where
  world : World
  snapshots : Table VulnerabilitySnapshot

/-- What can happen: a request or task of the system, `snapshot_metrics` or `prune_old_data`. -/
inductive TrendAction
  | system (a : Action)
  | snapshotMetrics (snapshotDate : Option String) (inp : SnapshotInput)
  | pruneOldData (sbomRetentionDays : Option ℕ) (today : Date)

/-- The rows that go with a project; a project that is not deleted has none. -/
def cascadeSnapshots (a : Action) (snapshots : Table VulnerabilitySnapshot) :
    Table VulnerabilitySnapshot :=
  match a with
  | .deleteProject projectId => snapshots.deleteWhere fun row => row.projectId == some projectId
  | _ => snapshots

variable (env : Env) (retention : SnapshotRetention)

/-- The state after an action. -/
def TrendWorld.step (w : TrendWorld) : TrendAction → Option TrendWorld
  | .system a => (World.step env w.world a).map fun world =>
    { world, snapshots := cascadeSnapshots a w.snapshots }
  | .snapshotMetrics snapshotDate inp =>
    match doSnapshotMetrics w.world.db inp w.snapshots snapshotDate with
    | .ok snapshots => some { w with snapshots }
    | .error _ => some w
  -- `do_prune_old_data`: the snapshots are committed before the SBOMs are looked at
  | .pruneOldData sbomRetentionDays today =>
    match pruneSnapshots w.snapshots retention today with
    | .ok snapshots =>
      some ⟨w.world.commit (pruneSboms w.world.db sbomRetentionDays today), snapshots⟩
    | .error _ => some w

/-- The machine, from an empty database. -/
def trendSystem : Machine TrendWorld TrendAction where
  init := ⟨(system env).init, .empty⟩
  step w a := w.step env retention a

/-! ### What should be stored -/

/-- The figures of each day. -/
abbrev Trend := Date → Option SnapshotFigures

/-- What a step does to the trend: it records a day, or forgets all days before a date. -/
inductive TrendEvent
  | recorded (date : Date) (figures : SnapshotFigures)
  | forgotten (cutoff : Date)

def TrendEvent.apply : TrendEvent → Trend → Trend
  | .recorded date figures, T => Function.update T date (some figures)
  | .forgotten cutoff, T => fun date => if date < cutoff then none else T date

/-- The trend after a history. -/
def trendOf (h : List TrendEvent) : Trend := h.foldl (fun T e => e.apply T) fun _ => none

/-- What a step adds to the history. -/
def trendEvents (w : TrendWorld) : TrendAction → List TrendEvent
  | .system _ => []
  | .snapshotMetrics snapshotDate inp =>
    match inp.targetDate snapshotDate,
      doSnapshotMetrics w.world.db inp w.snapshots snapshotDate with
    | .ok date, .ok _ => [.recorded date (snapshotFigures w.world.db inp date)]
    | _, _ => []
  | .pruneOldData _ today =>
    match daysBefore today (retention.days - 1) with
    | .ok cutoff => [.forgotten cutoff]
    | .error _ => []

/-- What the table holds for a day. -/
def storedTrend (snapshots : Table VulnerabilitySnapshot) : Trend := fun date =>
  (globalRow snapshots date).map (·.figures)

variable {env} {retention} {snapshots snapshots' : Table VulnerabilitySnapshot}
  {w w' : TrendWorld} {date today : Date} {figures : SnapshotFigures} {h : List TrendEvent}

theorem trendOf_append (h h' : List TrendEvent) :
    trendOf (h ++ h') = h'.foldl (fun T e => e.apply T) (trendOf h) := List.foldl_append

/-! ### The table refines the trend -/

theorem storedTrend_eq_some : storedTrend snapshots date = some figures ↔
    ∃ row ∈ snapshots, row.projectId = none ∧ row.item = ⟨date, figures⟩ := by
  simp only [storedTrend, Option.map_eq_some_iff, VulnerabilitySnapshot.item,
    SnapshotItem.mk.injEq]
  constructor
  · rintro ⟨row, hrow, rfl⟩
    obtain ⟨hmem, hglobal⟩ := Table.mem_of_find? hrow
    obtain ⟨hproject, hdate⟩ := isGlobal_iff.1 hglobal
    exact ⟨row, hmem, hproject, hdate, rfl⟩
  · rintro ⟨row, hmem, hproject, hdate, rfl⟩
    exact ⟨row, globalRow_eq_some hmem (isGlobal_iff.2 ⟨hproject, hdate⟩), rfl⟩

/-- A snapshot records its day. -/
theorem storedTrend_upsertGlobal {newId : Uuid}
    (hok : upsertGlobal snapshots newId date figures = .ok snapshots') :
    storedTrend snapshots' = Function.update (storedTrend snapshots) date (some figures) := by
  funext d
  by_cases hd : d = date
  · obtain ⟨row, hrow, hfigures⟩ := globalRow_upsertGlobal hok
    rw [hd, Function.update_self, storedTrend, hrow, ← hfigures]
    rfl
  -- no row of another day is written
  rw [Function.update_of_ne hd]
  refine Option.ext fun f => ?_
  rw [storedTrend_eq_some, storedTrend_eq_some]
  unfold upsertGlobal at hok
  split_ifs at hok
  · cases hok
    constructor
    · rintro ⟨row, hrow, hproject, hitem⟩
      obtain ⟨a, ha, rfl⟩ := Table.mem_updateWhere.1 hrow
      refine ⟨a, ha, ?_⟩
      split_ifs at hproject hitem with hglobal
      · have hdate : a.snapshotDate = d := congrArg SnapshotItem.date hitem
        exact absurd (hdate.symm.trans (isGlobal_iff.1 hglobal).2) hd
      · exact ⟨hproject, hitem⟩
    · rintro ⟨row, hrow, hproject, hitem⟩
      refine ⟨row, Table.mem_updateWhere.2 ⟨row, hrow, if_neg fun hglobal => ?_⟩, hproject, hitem⟩
      have hdate : row.snapshotDate = d := congrArg SnapshotItem.date hitem
      exact hd (hdate.symm.trans (isGlobal_iff.1 hglobal).2)
  · split at hok
    · rename_i t hins
      cases hok
      simp only [Table.mem_insert? hins, or_and_right, exists_or, exists_eq_left]
      refine or_iff_left fun hnew => hd ?_
      exact (congrArg SnapshotItem.date hnew.2).symm
    · cases hok

/-- Deleting rows of the days before a date forgets these days. -/
theorem storedTrend_prune {cutoff : Date} :
    storedTrend (snapshots.deleteWhere fun row =>
      decide (row.snapshotDate < cutoff) && row.projectId == none) =
        (TrendEvent.forgotten cutoff).apply (storedTrend snapshots) := by
  funext d
  refine Option.ext fun f => ?_
  simp only [TrendEvent.apply]
  split_ifs with hd
  · refine iff_of_false (fun hsome => ?_) nofun
    obtain ⟨row, hrow, hproject, hitem⟩ := storedTrend_eq_some.1 hsome
    have hkept := (Table.mem_deleteWhere.1 hrow).2
    have hdate : row.snapshotDate = d := congrArg SnapshotItem.date hitem
    simp [hproject, hdate, hd] at hkept
  · rw [storedTrend_eq_some, storedTrend_eq_some]
    refine exists_congr fun row => ?_
    rw [Table.mem_deleteWhere]
    refine and_congr_left fun ⟨_, hitem⟩ => and_iff_left ?_
    have hdate : row.snapshotDate = d := congrArg SnapshotItem.date hitem
    simp [hdate, hd]

/-- The global rows belong to no project. -/
theorem storedTrend_cascade (a : Action) :
    storedTrend (cascadeSnapshots a snapshots) = storedTrend snapshots := by
  cases a with
  | deleteProject projectId =>
    funext d
    refine Option.ext fun f => ?_
    rw [storedTrend_eq_some, storedTrend_eq_some]
    refine exists_congr fun row => ?_
    rw [cascadeSnapshots, Table.mem_deleteWhere]
    refine and_congr_left fun ⟨hproject, _⟩ => and_iff_left ?_
    rw [hproject]
    rfl
  | _ => rfl

/-- **Every step does to the table what its entry of the history says.** -/
theorem storedTrend_step {a : TrendAction} (hst : w.step env retention a = some w') :
    storedTrend w'.snapshots =
      (trendEvents retention w a).foldl (fun T e => e.apply T) (storedTrend w.snapshots) := by
  cases a with
  | system a =>
    obtain ⟨world, -, rfl⟩ := Option.map_eq_some_iff.1 hst
    exact storedTrend_cascade a
  | snapshotMetrics snapshotDate inp =>
    simp only [TrendWorld.step] at hst
    simp only [trendEvents]
    cases hrun : doSnapshotMetrics w.world.db inp w.snapshots snapshotDate with
    | error e =>
      simp only [hrun] at hst
      obtain rfl := Option.some.inj hst
      cases inp.targetDate snapshotDate <;> rfl
    | ok snapshots =>
      simp only [hrun] at hst
      obtain rfl := Option.some.inj hst
      obtain ⟨date, hdate, hok⟩ := bind_eq_ok.1 hrun
      simp only [hdate]
      exact storedTrend_upsertGlobal hok
  | pruneOldData sbomRetentionDays today =>
    simp only [TrendWorld.step, pruneSnapshots] at hst
    simp only [trendEvents]
    cases hcutoff : daysBefore today (retention.days - 1) with
    | error e =>
      rw [hcutoff] at hst
      obtain rfl := Option.some.inj hst
      rfl
    | ok cutoff =>
      rw [hcutoff] at hst
      obtain rfl := Option.some.inj hst
      exact storedTrend_prune

/-- The history of a run. -/
def trendHistory (env : Env) (retention : SnapshotRetention) (as : List TrendAction) :
    List TrendEvent :=
  (trendSystem env retention).outputs (trendEvents retention) (trendSystem env retention).init as

/-- **The table holds what the history says.** -/
theorem storedTrend_run {as : List TrendAction}
    (hrun : (trendSystem env retention).run (trendSystem env retention).init as = some w) :
    storedTrend w.snapshots = trendOf (trendHistory env retention as) := by
  refine Machine.run_outputs (M := trendSystem env retention) (f := trendEvents retention)
    (h := []) (I := fun h w => storedTrend w.snapshots = trendOf h) ?_ rfl hrun
  intro h s a s' hs hst
  rw [trendOf_append, ← hs]
  exact storedTrend_step hst

/-! ### What is shown -/

/-- The days of the chart with all their figures. -/
def chartDays (snapshots : Table VulnerabilitySnapshot) (n : ℕ) : List SnapshotItem :=
  (snapRows snapshots n).map VulnerabilitySnapshot.item

/-- The list shows the `n` newest days of the trend in ascending order. -/
structure ShowsNewest (T : Trend) (n : ℕ) (items : List SnapshotItem) : Prop where
  ascending : items.Pairwise fun a b => a.date < b.date
  mem_iff : ∀ item, item ∈ items ↔
    T item.date = some item.figures ∧ {d | item.date < d ∧ (T d).isSome = true}.ncard < n

/-- The global rows. -/
def globalRows (snapshots : Table VulnerabilitySnapshot) : List VulnerabilitySnapshot :=
  snapshots.rows.filter fun row => row.projectId == none

theorem mem_globalRows {row : VulnerabilitySnapshot} :
    row ∈ globalRows snapshots ↔ row ∈ snapshots ∧ row.projectId = none := by
  rw [globalRows, List.mem_filter, beq_iff_eq, Table.mem_rows]

theorem snapRows_eq (n : ℕ) :
    snapRows snapshots n = newest (·.snapshotDate) n (globalRows snapshots) := rfl

/-- The global rows have different days. -/
theorem globalRows_pairwise : (globalRows snapshots).Pairwise fun a b =>
    a.snapshotDate ≠ b.snapshotDate := by
  have hfilter : (globalRows snapshots).Pairwise fun a b => ¬ UniqueKeys.Clash a b :=
    snapshots.unique.sublist List.filter_sublist
  refine hfilter.imp_of_mem fun ha hb hclash hdate => hclash (.inr ⟨?_, hdate⟩)
  rw [(mem_globalRows.1 ha).2, (mem_globalRows.1 hb).2]

/-- How many global rows have a later day. -/
theorem countP_globalRows (d : Date) :
    (globalRows snapshots).countP (fun row => d < row.snapshotDate) =
      {e | d < e ∧ (storedTrend snapshots e).isSome = true}.ncard := by
  let later := (globalRows snapshots).filter fun row => d < row.snapshotDate
  have hnodup : (later.map (·.snapshotDate)).Nodup :=
    List.pairwise_map.2 (globalRows_pairwise.sublist List.filter_sublist)
  have hlength : later.length = countDistinct (later.map (·.snapshotDate)) := by
    rw [countDistinct, hnodup.dedup, List.length_map]
  rw [List.countP_eq_length_filter, hlength, countDistinct_eq_ncard]
  refine congrArg Set.ncard (Set.ext fun e => ?_)
  change e ∈ later.map _ ↔ d < e ∧ _
  simp only [later, List.mem_map, List.mem_filter, mem_globalRows, decide_eq_true_eq,
    Option.isSome_iff_exists, storedTrend_eq_some, VulnerabilitySnapshot.item,
    SnapshotItem.mk.injEq]
  constructor
  · rintro ⟨row, ⟨⟨hrow, hproject⟩, hlt⟩, rfl⟩
    exact ⟨hlt, row.figures, row, hrow, hproject, rfl, rfl⟩
  · rintro ⟨hlt, figures, row, hrow, hproject, rfl, -⟩
    exact ⟨row, ⟨⟨hrow, hproject⟩, hlt⟩, rfl⟩

/-- **The chart shows the newest days of the table.** -/
theorem chartDays_showsNewest (n : ℕ) :
    ShowsNewest (storedTrend snapshots) n (chartDays snapshots n) where
  ascending := List.pairwise_map.2 (newest_pairwise globalRows_pairwise)
  mem_iff item := by
    simp only [chartDays, snapRows_eq, List.mem_map, mem_newest globalRows_pairwise,
      mem_globalRows, countP_globalRows]
    constructor
    · rintro ⟨row, ⟨⟨hrow, hproject⟩, hlt⟩, rfl⟩
      exact ⟨storedTrend_eq_some.2 ⟨row, hrow, hproject, rfl⟩, hlt⟩
    · rintro ⟨hsome, hlt⟩
      obtain ⟨row, hrow, hproject, hitem⟩ := storedTrend_eq_some.1 hsome
      refine ⟨row, ⟨⟨hrow, hproject⟩, ?_⟩, hitem⟩
      rwa [show row.snapshotDate = item.date from congrArg SnapshotItem.date hitem]

theorem chartDays_suffix {m n : ℕ} (hnm : n ≤ m) :
    chartDays snapshots n <:+ chartDays snapshots m :=
  List.IsSuffix.map _ (newest_suffix hnm)

theorem getSnapshot_eq_ok {days : ℤ} (hmin : 1 ≤ days) (hmax : days ≤ 365) :
    getSnapshot snapshots days =
      .ok ((chartDays snapshots days.toNat).length, chartDays snapshots days.toNat) := by
  unfold getSnapshot
  rw [if_neg (by omega)]
  rfl

/-- The chart of the dashboard shows these days. -/
structure Charts (context : DashboardContext) (items : List SnapshotItem) : Prop where
  labels : context.chartLabels = items.map (·.date)
  critical : context.chartCritical = items.map (·.figures.critical)
  high : context.chartHigh = items.map (·.figures.high)
  medium : context.chartMedium = items.map (·.figures.medium)
  low : context.chartLow = items.map (·.figures.low)
  fixed : context.chartFixed = items.map (·.figures.fixed)

theorem dashboard_charts (db : Database) (n : ℕ) (recent : Arrangement RecentSbom) :
    Charts (dashboard db snapshots n recent) (chartDays snapshots n) := by
  constructor <;> simp [dashboard, chartDays, VulnerabilitySnapshot.item]

/-- **The trend that is shown.**  After every run the chart of the dashboard shows the newest days
of the history in ascending order, each with the figures of its last snapshot, and `get_snapshot`
shows the same for the number of days that it is asked for, so that the shorter of the two is the
end of the longer. -/
theorem trend_shown {as : List TrendAction}
    (hrun : (trendSystem env retention).run (trendSystem env retention).init as = some w)
    (recent : Arrangement RecentSbom) :
    ∃ shown, Charts (dashboard w.world.db w.snapshots retention.days recent) shown ∧
      ShowsNewest (trendOf (trendHistory env retention as)) retention.days shown ∧
      ∀ days : ℤ, 1 ≤ days → days ≤ 365 → ∃ items,
        getSnapshot w.snapshots days = .ok (items.length, items) ∧
        ShowsNewest (trendOf (trendHistory env retention as)) days.toNat items ∧
        (items <:+ shown ∨ shown <:+ items) := by
  rw [← storedTrend_run hrun]
  refine ⟨_, dashboard_charts w.world.db retention.days recent, chartDays_showsNewest _, ?_⟩
  intro days hmin hmax
  refine ⟨_, getSnapshot_eq_ok hmin hmax, chartDays_showsNewest _, ?_⟩
  rcases le_total days.toNat retention.days with hle | hle
  · exact .inl (chartDays_suffix hle)
  · exact .inr (chartDays_suffix hle)

/-! ### Pruning -/

theorem globalRows_prune (cutoff : Date) :
    globalRows (snapshots.deleteWhere fun row =>
      decide (row.snapshotDate < cutoff) && row.projectId == none) =
        (globalRows snapshots).filter fun row => cutoff ≤ row.snapshotDate := by
  rw [globalRows, globalRows, Table.deleteWhere, List.filter_filter, List.filter_filter]
  refine List.filter_congr fun row _ => ?_
  rw [Bool.eq_iff_iff]
  by_cases hproject : row.projectId = none
  · simp [hproject]
  · have hproject : (row.projectId == none) = false := beq_eq_false_iff_ne.2 hproject
    simp only [hproject, Bool.false_and, Bool.and_false]

/-- **What pruning does to the chart.**  It takes the days before the cutoff away and adds none, and
if no snapshot was taken for a day to come, the chart shows all that is left. -/
theorem chart_after_prune {as : List TrendAction}
    (hrun : (trendSystem env retention).run (trendSystem env retention).init as = some w)
    {sbomRetentionDays : Option ℕ} {cutoff : Date}
    (hcutoff : daysBefore today (retention.days - 1) = .ok cutoff)
    (hst : w.step env retention (.pruneOldData sbomRetentionDays today) = some w') :
    chartDays w'.snapshots retention.days =
        (chartDays w.snapshots retention.days).filter (fun item => cutoff ≤ item.date) ∧
      ((∀ d, (trendOf (trendHistory env retention as) d).isSome = true → d ≤ today) →
        ∀ item, item ∈ chartDays w'.snapshots retention.days ↔
          storedTrend w'.snapshots item.date = some item.figures) := by
  have hsnapshots : w'.snapshots = w.snapshots.deleteWhere fun row =>
      decide (row.snapshotDate < cutoff) && row.projectId == none := by
    simp only [TrendWorld.step, pruneSnapshots, hcutoff] at hst
    obtain rfl := Option.some.inj hst
    rfl
  have hcut : cutoff = today - (retention.days - 1 : ℕ) := by
    unfold daysBefore at hcutoff
    split_ifs at hcutoff
    exact (Except.ok.inj hcutoff).symm
  constructor
  · rw [chartDays, chartDays, snapRows_eq, snapRows_eq, hsnapshots, globalRows_prune,
      newest_filter globalRows_pairwise, List.filter_map]
    rfl
  · intro hpast item
    rw [(chartDays_showsNewest _).mem_iff]
    refine and_iff_left_of_imp fun hsome => ?_
    -- the days that are left lie between the cutoff and today
    have hleft : ∀ d, (storedTrend w'.snapshots d).isSome = true → cutoff ≤ d ∧ d ≤ today := by
      intro d hd
      rw [hsnapshots, storedTrend_prune, storedTrend_run hrun] at hd
      simp only [TrendEvent.apply] at hd
      split_ifs at hd with hlt
      · cases hd
      · exact ⟨not_lt.1 hlt, hpast d hd⟩
    have hitem : cutoff ≤ item.date := (hleft item.date (by rw [hsome]; rfl)).1
    have hsub : {d | item.date < d ∧ (storedTrend w'.snapshots d).isSome = true} ⊆
        ↑(Finset.Ioc item.date today) := fun d ⟨hlt, hd⟩ =>
      Finset.mem_coe.2 (Finset.mem_Ioc.2 ⟨hlt, (hleft d hd).2⟩)
    have hcard := Set.ncard_le_ncard hsub (Finset.finite_toSet _)
    rw [Set.ncard_coe_finset, Int.card_Ioc] at hcard
    have hpos := retention.bounds.1
    rw [hcut] at hitem
    have hwindow : (today - item.date).toNat ≤ retention.days - 1 :=
      Int.toNat_le.2 (sub_le_comm.1 hitem)
    omega

/-- A retention of thirty days. -/
def demoRetention : SnapshotRetention := ⟨30, by decide⟩

/-- A snapshot on a day, for that day. -/
def demoSnapshot (today : Date) (newId : Uuid) : TrendAction :=
  .snapshotMetrics none ⟨fun _ => none, today, today, newId, storedOrder SeverityRow⟩

/-- A snapshot before a finding, two on the day after it and one forty days later. -/
def demoTrend : List TrendAction :=
  [demoSnapshot 739000 1, .system demoProject, .system (demoUpload 1 10 100),
    .system (demoScan 10 [1, 1] 110), demoSnapshot 739001 2, demoSnapshot 739001 3,
    demoSnapshot 739040 4]

theorem demoTrend_isSome : ((trendSystem demoEnv demoRetention).run
    (trendSystem demoEnv demoRetention).init demoTrend).isSome := by decide +kernel

/-- The demonstration after its run. -/
def demoTrendWorld : TrendWorld :=
  (trendSystem demoEnv demoRetention).after demoTrend demoTrend_isSome

theorem demoTrend_run : (trendSystem demoEnv demoRetention).run
    (trendSystem demoEnv demoRetention).init demoTrend = some demoTrendWorld :=
  (Option.some_get demoTrend_isSome).symm

/-- The chart of the demonstration, and its two newest days. -/
theorem trend_shown_demo :
    (chartDays demoTrendWorld.snapshots 30).map (·.date) = [739000, 739001, 739040] ∧
      ∃ shown, Charts (dashboard demoTrendWorld.world.db demoTrendWorld.snapshots
          demoRetention.days (storedOrder RecentSbom)) shown ∧
        ShowsNewest (trendOf (trendHistory demoEnv demoRetention demoTrend)) demoRetention.days
          shown ∧
        ∀ days : ℤ, 1 ≤ days → days ≤ 365 → ∃ items,
          getSnapshot demoTrendWorld.snapshots days = .ok (items.length, items) ∧
          ShowsNewest (trendOf (trendHistory demoEnv demoRetention demoTrend)) days.toNat items ∧
          (items <:+ shown ∨ shown <:+ items) :=
  ⟨by decide +kernel, trend_shown demoTrend_run (storedOrder RecentSbom)⟩

/-- Pruning on the last day leaves that day. -/
theorem chart_after_prune_demo :
    ∃ w', demoTrendWorld.step demoEnv demoRetention (.pruneOldData none 739040) = some w' ∧
      (chartDays w'.snapshots 30).map (·.date) = [739040] ∧
      chartDays w'.snapshots demoRetention.days =
        (chartDays demoTrendWorld.snapshots demoRetention.days).filter
          (fun item => (739011 : Date) ≤ item.date) := by
  obtain ⟨w', hst, hchart⟩ : ∃ w', demoTrendWorld.step demoEnv demoRetention
      (.pruneOldData none 739040) = some w' ∧
        (chartDays w'.snapshots 30).map (·.date) = [739040] := by
    decide +kernel
  exact ⟨w', hst, hchart, (chart_after_prune demoTrend_run (by decide) hst).1⟩

end ArgusSbomGuard
