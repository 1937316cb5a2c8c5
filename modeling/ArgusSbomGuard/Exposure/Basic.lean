import Mathlib.Data.Set.Lattice

/-!
# What is open on a family of releases

A product is released again and again.  At any time a set of findings is open on each release,
and a release may *supersede* older ones: what is open on an older release is then closed unless
it is open on the superseding release as well.  This file describes the three changes a scan
makes to such a family of sets, and when one release covers all others, so that the findings
that are open anywhere are exactly its own.

Releases and findings are arbitrary types, and `older` is an arbitrary relation.

## Main definitions

* `Exposure S V` : the findings open on each release.
* `Exposure.detect`, `Exposure.retire`, `Exposure.supersede` : the parts of a scan.
* `Exposure.scan` : a scan of one release.
* `Exposure.Covers E T n` : all that is open on a release of `T` is open on `n`.
-/

namespace ArgusSbomGuard

/-- The findings that are open on each release. -/
abbrev Exposure (S V : Type*) := S → Set V

namespace Exposure

variable {S V : Type*} {older : S → S → Prop} {E : Exposure S V} {T : Set S} {m n s : S}
  {new current : Set V} {v : V}

/-- The findings `new` become open on the release `n`. -/
def detect (n : S) (new : Set V) (E : Exposure S V) : Exposure S V :=
  fun s => {v | v ∈ E s ∨ (s = n ∧ v ∈ new)}

/-- Whatever is not in `current` is closed on the release `n`. -/
def retire (n : S) (current : Set V) (E : Exposure S V) : Exposure S V :=
  fun s => {v | v ∈ E s ∧ (s = n → v ∈ current)}

/-- Whatever is not open on the release `n` is closed on the releases older than `n`. -/
def supersede (older : S → S → Prop) (n : S) (E : Exposure S V) : Exposure S V :=
  fun s => {v | v ∈ E s ∧ (older s n → v ∈ E n)}

/-- A scan of the release `n` that reports `current`, of which `new` was not known before. -/
def scan (older : S → S → Prop) (n : S) (new current : Set V) (E : Exposure S V) :
    Exposure S V :=
  supersede older n (retire n current (detect n new E))

/-- All findings that are open on a release of `T` are open on `n`. -/
def Covers (E : Exposure S V) (T : Set S) (n : S) : Prop := ∀ s ∈ T, E s ⊆ E n

/-! ### Superseding -/

theorem supersede_subset : supersede older n E s ⊆ E s := fun _ hv => hv.1

theorem supersede_of_not_older (h : ¬ older s n) : supersede older n E s = E s :=
  Set.ext fun _ => and_iff_left fun ho => absurd ho h

theorem supersede_of_older (hn : ¬ older n n) (h : older s n) :
    supersede older n E s ⊆ supersede older n E n := by
  rw [supersede_of_not_older hn]
  exact fun _ hv => hv.2 h

/-- A release covers every release it supersedes. -/
theorem covers_supersede (hn : ¬ older n n) (hT : ∀ s ∈ T, older s n ∨ E s ⊆ E n) :
    Covers (supersede older n E) T n := by
  intro s hs
  rcases hT s hs with hold | hsub
  · exact supersede_of_older hn hold
  · rw [supersede_of_not_older hn]
    exact supersede_subset.trans hsub

/-! ### Scanning -/

theorem retire_detect_self : retire n current (detect n new E) n = (E n ∪ new) ∩ current := by
  ext v
  simp only [retire, detect, Set.mem_ofPred_eq, true_and, forall_const, Set.mem_inter_iff,
    Set.mem_union]

theorem retire_detect_of_ne (hs : s ≠ n) : retire n current (detect n new E) s = E s := by
  ext v
  simp only [retire, detect, Set.mem_ofPred_eq, hs, false_and, or_false, false_implies, and_true]

theorem scan_self (hn : ¬ older n n) : scan older n new current E n = (E n ∪ new) ∩ current := by
  rw [scan, supersede_of_not_older hn, retire_detect_self]

theorem scan_of_ne (hs : s ≠ n) (h : ¬ older s n) : scan older n new current E s = E s := by
  rw [scan, supersede_of_not_older h, retire_detect_of_ne hs]

theorem scan_subset (hs : s ≠ n) : scan older n new current E s ⊆ E s := by
  have hsub : scan older n new current E s ⊆ retire n current (detect n new E) s :=
    supersede_subset
  rwa [retire_detect_of_ne hs] at hsub

/-- A scan of `n` makes `n` cover the older releases and those whose findings it confirms. -/
theorem covers_scan (hn : ¬ older n n)
    (hT : ∀ s ∈ T, s = n ∨ older s n ∨ E s ⊆ (E n ∪ new) ∩ current) :
    Covers (scan older n new current E) T n := by
  intro s hs
  by_cases heq : s = n
  · rw [heq]
  rcases (hT s hs).resolve_left heq with hold | hsub
  · exact supersede_of_older hn hold
  · rw [scan_self hn]
    exact (scan_subset heq).trans hsub

/-- A scan of another release that is not newer keeps `m` covering, as long as it finds nothing
on a release of `T` that is not open on `m`. -/
theorem Covers.scan (h : Covers E T m) (hmn : m ≠ n) (hm : ¬ older m n) (hn : ¬ older n n)
    (hnew : n ∈ T → new ⊆ E m) : Covers (scan older n new current E) T m := by
  intro s hs
  rw [scan_of_ne hmn hm]
  by_cases heq : s = n
  · rw [heq, scan_self hn]
    have hnT : n ∈ T := heq ▸ hs
    exact Set.inter_subset_left.trans (Set.union_subset (h n hnT) (hnew hnT))
  · exact (scan_subset heq).trans (h s hs)

/-- What is open anywhere is what is open on a release that covers. -/
theorem Covers.exists_iff (h : Covers E T n) (hn : n ∈ T) : (∃ s ∈ T, v ∈ E s) ↔ v ∈ E n :=
  ⟨fun ⟨s, hs, hv⟩ => h s hs hv, fun hv => ⟨n, hn, hv⟩⟩

end Exposure

end ArgusSbomGuard
