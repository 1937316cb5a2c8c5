import Mathlib.Data.Set.Lattice

/-!
# What is recorded about a family of releases

A ledger records, for every release, which findings of which packages are open and which are
fixed.  A scan of a release enters what it reports and has no record of, fixes what it does not
report any more, and fixes on the releases it supersedes what is no longer open on the scanned
one.

Releases, packages and findings are arbitrary types.  A scan reads and writes the records of the
scanned release and of those it supersedes and of no others, so that scans of disjoint families
commute (`Ledger.scan_comm`), and a repeated scan changes nothing (`Ledger.scan_scan`).  Any number
of scans of disjoint families therefore has a result that depends on neither their order nor their
number: the record of each release is what one scan makes of it (`Ledger.sweep_of_mem`).

## Main definitions

* `Record P C` : the open and the fixed findings of one release.
* `Record.enter`, `Record.close` : entering what is new and fixing what is not kept.
* `Ledger S P C` : one record for each release.
* `Ledger.scan` : a scan of one release.
* `Ledger.sweep` : scans of several releases, one after the other.
-/

namespace ArgusSbomGuard

/-- What is recorded about one release: the open and the fixed findings of its packages. -/
@[ext] structure Record (P C : Type*) where
  isOpen : P → C → Prop
  isFixed : P → C → Prop

/-- One record for each release. -/
abbrev Ledger (S P C : Type*) := S → Record P C

namespace Record

variable {P C : Type*} (R : Record P C)

/-- The record says something about the finding. -/
def Known (p : P) (c : C) : Prop := R.isOpen p c ∨ R.isFixed p c

/-- The finding is open for some package. -/
def HasOpen (c : C) : Prop := ∃ p, R.isOpen p c

/-- Enter the reported findings that the record says nothing about. -/
def enter (reported : P → C → Prop) : Record P C where
  isOpen p c := R.isOpen p c ∨ (reported p c ∧ ¬ R.Known p c)
  isFixed := R.isFixed

/-- Fix the open findings outside `keep`. -/
def close (keep : C → Prop) : Record P C where
  isOpen p c := R.isOpen p c ∧ keep c
  isFixed p c := R.isFixed p c ∨ (R.isOpen p c ∧ ¬ keep c)

theorem close_close (keep : C → Prop) : (R.close keep).close keep = R.close keep := by
  ext p c
  · exact and_iff_left_of_imp And.right
  · exact or_iff_left fun h => h.2 h.1.2

/-- What was entered and kept once is neither entered nor fixed the next time. -/
theorem refresh_refresh (reported : P → C → Prop) (keep : C → Prop) :
    (((R.enter reported).close keep).enter reported).close keep =
      (R.enter reported).close keep := by
  ext p c
  · simp only [enter, close, Known]
    tauto
  · simp only [enter, close, Known]
    tauto

end Record

namespace Ledger

variable {S P C : Type*} {n s : S} {old : Set S} {reported : P → C → Prop} {current : C → Prop}
  {L L' : Ledger S P C}

open Classical in
/-- A scan of the release `n`, which supersedes the releases of `old`. -/
noncomputable def scan (n : S) (old : Set S) (reported : P → C → Prop) (current : C → Prop)
    (L : Ledger S P C) : Ledger S P C := fun s =>
  if s = n then ((L n).enter reported).close current
  else if s ∈ old then (L s).close (((L n).enter reported).close current).HasOpen
  else L s

theorem scan_self : scan n old reported current L n = ((L n).enter reported).close current :=
  if_pos rfl

/-- A superseded release keeps what is open on the scanned one. -/
theorem scan_of_mem (hs : s ≠ n) (hold : s ∈ old) :
    scan n old reported current L s =
      (L s).close (scan n old reported current L n).HasOpen := by
  rw [scan_self, scan, if_neg hs, if_pos hold]

theorem scan_of_not_mem (hs : s ∉ insert n old) : scan n old reported current L s = L s := by
  rw [Set.mem_insert_iff, not_or] at hs
  rw [scan, if_neg hs.1, if_neg hs.2]

/-- The record of a release after a scan depends on its record and that of the scanned one. -/
theorem scan_congr (hn : L n = L' n) (hs : L s = L' s) :
    scan n old reported current L s = scan n old reported current L' s := by
  unfold scan
  rw [hn, hs]

/-- **Scans of disjoint families commute.** -/
theorem scan_comm {a b : S} {olda oldb : Set S} {reporta reportb : P → C → Prop}
    {curra currb : C → Prop} (hdisj : ∀ s ∈ insert a olda, s ∉ insert b oldb) :
    scan b oldb reportb currb (scan a olda reporta curra L) =
      scan a olda reporta curra (scan b oldb reportb currb L) := by
  have hab : a ∉ insert b oldb := hdisj a (Set.mem_insert a olda)
  have hba : b ∉ insert a olda := fun hb => hdisj b hb (Set.mem_insert b oldb)
  funext s
  by_cases hs : s ∈ insert a olda
  -- the scan of `b` neither touches `s` nor what the scan of `a` reads
  · have hsb : s ∉ insert b oldb := hdisj s hs
    rw [scan_of_not_mem hsb]
    exact scan_congr (scan_of_not_mem hab).symm (scan_of_not_mem hsb).symm
  · rw [scan_of_not_mem hs]
    exact scan_congr (scan_of_not_mem hba) (scan_of_not_mem hs)

/-- **Scanning again changes nothing.** -/
theorem scan_scan : scan n old reported current (scan n old reported current L) =
    scan n old reported current L := by
  have hself : scan n old reported current (scan n old reported current L) n =
      scan n old reported current L n := by
    rw [scan_self, scan_self, Record.refresh_refresh]
  funext s
  by_cases hs : s = n
  · rw [hs, hself]
  by_cases hold : s ∈ old
  · rw [scan_of_mem hs hold, hself, scan_of_mem hs hold, Record.close_close]
  · exact scan_of_not_mem fun h => (Set.mem_insert_iff.1 h).elim hs hold

/-! ### Several scans -/

section Sweep

variable {olds : S → Set S} {reports : S → P → C → Prop} {currents : S → C → Prop}
  {ns ms : List S}

/-- Scans of the releases `ns`, one after the other. -/
noncomputable def sweep (olds : S → Set S) (reports : S → P → C → Prop)
    (currents : S → C → Prop) (ns : List S) (L : Ledger S P C) : Ledger S P C :=
  ns.foldl (fun L n => scan n (olds n) (reports n) (currents n) L) L

/-- No release belongs to the families of two of the releases. -/
def Apart (olds : S → Set S) (ns : List S) : Prop :=
  ∀ a ∈ ns, ∀ b ∈ ns, a ≠ b → ∀ s ∈ insert a (olds a), s ∉ insert b (olds b)

theorem Apart.tail (h : Apart olds (n :: ns)) : Apart olds ns :=
  fun a ha b hb => h a (List.mem_cons_of_mem n ha) b (List.mem_cons_of_mem n hb)

theorem sweep_cons : sweep olds reports currents (n :: ns) L =
    sweep olds reports currents ns (scan n (olds n) (reports n) (currents n) L) := rfl

theorem sweep_append : sweep olds reports currents (ns ++ ms) L =
    sweep olds reports currents ms (sweep olds reports currents ns L) :=
  List.foldl_append

theorem sweep_of_not_mem (hs : ∀ n ∈ ns, s ∉ insert n (olds n)) :
    sweep olds reports currents ns L s = L s := by
  induction ns generalizing L with
  | nil => rfl
  | cons n ns ih =>
    rw [sweep_cons, ih fun m hm => hs m (List.mem_cons_of_mem n hm)]
    exact scan_of_not_mem (hs n List.mem_cons_self)

/-- **Each family is as one scan of its release leaves it.** -/
theorem sweep_of_mem (hapart : Apart olds ns) (hn : n ∈ ns) (hs : s ∈ insert n (olds n)) :
    sweep olds reports currents ns L s = scan n (olds n) (reports n) (currents n) L s := by
  induction ns generalizing L with
  | nil => exact absurd hn List.not_mem_nil
  | cons m ns ih =>
    rw [sweep_cons]
    by_cases hmem : n ∈ ns
    · rw [ih hapart.tail hmem]
      by_cases hmn : m = n
      · rw [hmn, scan_scan]
      -- the first scan touches nothing that the scan of `n` reads
      · have hout : ∀ t ∈ insert n (olds n), t ∉ insert m (olds m) :=
          hapart n hn m List.mem_cons_self (Ne.symm hmn)
        exact scan_congr (scan_of_not_mem (hout n (Set.mem_insert n _)))
          (scan_of_not_mem (hout s hs))
    · obtain rfl := (List.mem_cons.1 hn).resolve_right hmem
      refine sweep_of_not_mem fun k hk => ?_
      exact hapart n hn k (List.mem_cons_of_mem n hk) (fun h => hmem (h ▸ hk)) s hs

/-- **The order and the number of the scans do not matter.** -/
theorem sweep_eq_of_mem_iff (hapart : Apart olds ns) (hmem : ∀ n, n ∈ ns ↔ n ∈ ms) :
    sweep olds reports currents ns L = sweep olds reports currents ms L := by
  have hapart' : Apart olds ms :=
    fun a ha b hb => hapart a ((hmem a).2 ha) b ((hmem b).2 hb)
  funext s
  by_cases hs : ∃ n ∈ ns, s ∈ insert n (olds n)
  · obtain ⟨n, hn, hs⟩ := hs
    rw [sweep_of_mem hapart hn hs, sweep_of_mem hapart' ((hmem n).1 hn) hs]
  · simp only [not_exists, not_and] at hs
    rw [sweep_of_not_mem hs, sweep_of_not_mem fun n hn => hs n ((hmem n).2 hn)]

end Sweep

end Ledger

end ArgusSbomGuard
