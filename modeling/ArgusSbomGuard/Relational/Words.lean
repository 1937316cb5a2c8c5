import Mathlib.Data.List.DropRight
import Mathlib.Data.List.TakeWhile

/-!
# The words of a text

Two regular-expression rewrites that are often used together: every run of characters outside a
class becomes one separator, and the separators at both ends are dropped.  What is left are the
words of the text, its maximal runs of characters inside the class, joined by single separators
(`strip_collapse`).

## Main definitions

* `collapse` : `regexp_replace(text, '[^class]+', sep, 'g')`.
* `strip` : `regexp_replace(text, '^sep+|sep+$', '', 'g')`, and the trimming of a text.
* `words` : the maximal runs inside the class.
-/

namespace ArgusSbomGuard

variable {α : Type*} (p : α → Bool) (sep : α)

/-- Replace every run of elements that do not satisfy `p` by one separator; `inRun` tells whether
such a run is being read. -/
def collapse : Bool → List α → List α
  | _, [] => []
  | inRun, x :: xs =>
    if p x then x :: collapse false xs
    else if inRun then collapse true xs
    else sep :: collapse true xs

/-- Drop the separators at both ends. -/
def strip [DecidableEq α] (sep : α) (xs : List α) : List α :=
  (xs.dropWhile fun x => x = sep).rdropWhile fun x => x = sep

/-- The maximal runs of elements that satisfy `p`. -/
def words : List α → List (List α)
  | [] => []
  | [x] => if p x then [[x]] else []
  | x :: y :: xs =>
    if p x then
      match p y, words (y :: xs) with
      | true, w :: ws => (x :: w) :: ws
      | _, ws => [x] :: ws
    else words (y :: xs)

variable {p} {sep} {x y : α} {xs : List α}

/-! ### Words -/

theorem words_cons_neg (hx : p x = false) : words p (x :: xs) = words p xs := by
  cases xs with
  | nil => simp [words, hx]
  | cons y xs => simp [words, hx]

/-- An element of the class that no other one follows is a word. -/
theorem words_cons_of_neg (hx : p x = true) (hxs : ∀ y ∈ xs.head?, p y = false) :
    words p (x :: xs) = [x] :: words p xs := by
  cases xs with
  | nil => simp [words, hx]
  | cons y xs => simp [words, hx, hxs y rfl]

theorem words_ne_nil (xs : List α) (hx : p x = true) : words p (x :: xs) ≠ [] := by
  cases xs with
  | nil => simp [words, hx]
  | cons y xs =>
    simp only [words, hx, if_true]
    split <;> exact List.cons_ne_nil _ _

/-- One that another one follows belongs to the word of that one. -/
theorem words_cons_cons (xs : List α) (hx : p x = true) (hy : p y = true) :
    ∃ w ws, words p (y :: xs) = w :: ws ∧ words p (x :: y :: xs) = (x :: w) :: ws := by
  obtain ⟨w, ws, hws⟩ := List.exists_cons_of_ne_nil (words_ne_nil xs hy)
  exact ⟨w, ws, hws, by simp [words, hx, hy, hws]⟩

/-- Induction along the words of a list: its first element is outside the class, or it is a word, or
it belongs to the word of the next one. -/
theorem words_induction {motive : List α → Prop} (nil : motive [])
    (outside : ∀ x xs, p x = false → motive xs → motive (x :: xs))
    (alone : ∀ x xs, p x = true → (∀ y ∈ xs.head?, p y = false) → motive xs → motive (x :: xs))
    (joined : ∀ x y xs, p x = true → p y = true → motive (y :: xs) → motive (x :: y :: xs))
    (xs : List α) : motive xs := by
  induction xs with
  | nil => exact nil
  | cons x xs ih =>
    cases hx : p x with
    | false => exact outside x xs hx ih
    | true =>
      cases xs with
      | nil => exact alone x [] hx nofun ih
      | cons y xs =>
        cases hy : p y with
        | false =>
          refine alone x (y :: xs) hx (fun z hz => ?_) ih
          rw [List.head?_cons, Option.mem_some_iff] at hz
          exact hz ▸ hy
        | true => exact joined x y xs hx hy ih

/-- The words hold the elements that satisfy `p`, in their order. -/
theorem flatten_words : (words p xs).flatten = xs.filter p := by
  induction xs using words_induction (p := p) with
  | nil => rfl
  | outside x xs hx ih => rw [words_cons_neg hx, ih, List.filter_cons_of_neg (by simp [hx])]
  | alone x xs hx hhead ih =>
    rw [words_cons_of_neg hx hhead, List.filter_cons_of_pos hx, ← ih]
    rfl
  | joined x y xs hx hy ih =>
    obtain ⟨w, ws, hws, hcons⟩ := words_cons_cons xs hx hy
    rw [List.filter_cons_of_pos hx, ← ih, hcons, hws]
    rfl

/-- A word is not empty, and its elements satisfy `p`. -/
theorem ne_nil_of_mem_words : ∀ w ∈ words p xs, w ≠ [] := by
  induction xs using words_induction (p := p) with
  | nil => exact nofun
  | outside x xs hx ih => rwa [words_cons_neg hx]
  | alone x xs hx hhead ih =>
    rw [words_cons_of_neg hx hhead]
    exact List.forall_mem_cons.2 ⟨List.cons_ne_nil _ _, ih⟩
  | joined x y xs hx hy ih =>
    obtain ⟨w, ws, hws, hcons⟩ := words_cons_cons xs hx hy
    rw [hcons]
    exact List.forall_mem_cons.2
      ⟨List.cons_ne_nil _ _, fun w' hw' => ih w' (hws ▸ List.mem_cons_of_mem _ hw')⟩

theorem forall_of_mem_words {w : List α} (hw : w ∈ words p xs) (hx : x ∈ w) : p x = true := by
  have hmem : x ∈ (words p xs).flatten := List.mem_flatten_of_mem hw hx
  rw [flatten_words] at hmem
  exact (List.mem_filter.1 hmem).2

/-! ### Joined words -/

theorem length_intercalate (ws : List (List α)) :
    ([sep].intercalate ws).length = ws.flatten.length + (ws.length - 1) := by
  induction ws with
  | nil => rfl
  | cons w ws ih =>
    cases ws with
    | nil => simp
    | cons w' ws =>
      have hflatten : (w :: w' :: ws).flatten.length = w.length + (w' :: ws).flatten.length :=
        List.length_append
      rw [List.intercalate_cons_cons, List.length_append, List.length_append, ih, hflatten]
      simp only [List.length_cons, List.length_nil]
      omega

theorem length_intercalate_words :
    ([sep].intercalate (words p xs)).length = xs.countP p + ((words p xs).length - 1) := by
  rw [length_intercalate, flatten_words, List.countP_eq_length_filter]

/-- The first element of joined words belongs to a word. -/
theorem head?_intercalate {ws : List (List α)} (hws : ∀ w ∈ ws, w ≠ []) :
    ∀ x ∈ ([sep].intercalate ws).head?, ∃ w ∈ ws, x ∈ w := by
  intro x hx
  cases ws with
  | nil => cases hx
  | cons w ws =>
    obtain ⟨y, w, rfl⟩ := List.exists_cons_of_ne_nil (hws w List.mem_cons_self)
    rw [List.intercalate_cons_cons_left, List.head?_cons, Option.mem_some_iff] at hx
    exact ⟨_, List.mem_cons_self, hx ▸ List.mem_cons_self⟩

/-- So does the last one. -/
theorem getLast?_intercalate {ws : List (List α)} (hws : ∀ w ∈ ws, w ≠ []) :
    ∀ x ∈ ([sep].intercalate ws).getLast?, ∃ w ∈ ws, x ∈ w := by
  intro x hx
  induction ws with
  | nil => cases hx
  | cons w ws ih =>
    cases ws with
    | nil =>
      rw [List.intercalate_singleton] at hx
      exact ⟨w, List.mem_cons_self, List.mem_of_getLast? hx⟩
    | cons w' ws =>
      obtain ⟨hw, htail⟩ := List.forall_mem_cons.1 hws
      have hne : [sep].intercalate (w' :: ws) ≠ [] := by
        obtain ⟨y, w', rfl⟩ := List.exists_cons_of_ne_nil (htail w' List.mem_cons_self)
        rw [List.intercalate_cons_cons_left]
        exact List.cons_ne_nil _ _
      rw [List.intercalate_cons_cons, List.getLast?_append_of_ne_nil _ hne] at hx
      obtain ⟨v, hv, hxv⟩ := ih htail hx
      exact ⟨v, List.mem_cons_of_mem _ hv, hxv⟩

theorem mem_intercalate {ws : List (List α)} (hx : x ∈ [sep].intercalate ws) :
    x = sep ∨ ∃ w ∈ ws, x ∈ w := by
  induction ws with
  | nil => cases hx
  | cons w ws ih =>
    cases ws with
    | nil =>
      rw [List.intercalate_singleton] at hx
      exact .inr ⟨w, List.mem_cons_self, hx⟩
    | cons w' ws =>
      rw [List.intercalate_cons_cons, List.mem_append, List.mem_append, List.mem_singleton] at hx
      rcases hx with (hw | hsep) | hws
      · exact .inr ⟨w, List.mem_cons_self, hw⟩
      · exact .inl hsep
      · exact (ih hws).imp_right fun ⟨v, hv, hxv⟩ => ⟨v, List.mem_cons_of_mem _ hv, hxv⟩

theorem map_intercalate {β : Type*} (f : α → β) (ws : List (List α)) :
    ([sep].intercalate ws).map f = [f sep].intercalate (ws.map (List.map f)) := by
  induction ws with
  | nil => rfl
  | cons w ws ih =>
    cases ws with
    | nil => simp
    | cons w' ws =>
      rw [List.intercalate_cons_cons, List.map_append, ih, List.map_append]
      exact List.intercalate_cons_cons.symm

/-! ### Collapsing -/

/-- Whether a run is being read matters only in front of another one. -/
theorem collapse_false_eq (xs : List α) : collapse p sep false xs = collapse p sep true xs ∨
    collapse p sep false xs = sep :: collapse p sep true xs := by
  cases xs with
  | nil => exact .inl rfl
  | cons x xs => cases hx : p x <;> simp [collapse, hx]

/-- Behind a run, what is read are the words with single separators between them and perhaps one
behind them. -/
theorem collapse_true_eq (xs : List α) : ∃ post : List α, (∀ x ∈ post, x = sep) ∧
    collapse p sep true xs = [sep].intercalate (words p xs) ++ post := by
  induction xs using words_induction (p := p) with
  | nil => exact ⟨[], nofun, rfl⟩
  | outside x xs hx ih =>
    rw [words_cons_neg hx]
    simpa [collapse, hx] using ih
  | alone x xs hx hhead ih =>
    obtain ⟨post, hpost, heq⟩ := ih
    have hcollapse : collapse p sep true (x :: xs) = x :: collapse p sep false xs := by
      simp [collapse, hx]
    rw [hcollapse, words_cons_of_neg hx hhead]
    cases xs with
    | nil => exact ⟨[], nofun, rfl⟩
    | cons y xs =>
      have hrun : collapse p sep false (y :: xs) = sep :: collapse p sep true (y :: xs) := by
        simp [collapse, hhead y rfl]
      rw [hrun, heq]
      cases hws : words p (y :: xs) with
      | nil => exact ⟨sep :: post, List.forall_mem_cons.2 ⟨rfl, hpost⟩, rfl⟩
      | cons w ws => exact ⟨post, hpost, by rw [List.intercalate_cons_cons]; rfl⟩
  | joined x y xs hx hy ih =>
    obtain ⟨post, hpost, heq⟩ := ih
    obtain ⟨w, ws, hws, hcons⟩ := words_cons_cons xs hx hy
    have hcollapse : collapse p sep true (x :: y :: xs) = x :: collapse p sep true (y :: xs) := by
      simp [collapse, hx, hy]
    exact ⟨post, hpost, by rw [hcollapse, heq, hcons, hws, List.intercalate_cons_cons_left]; rfl⟩

theorem length_collapse_le (inRun : Bool) (xs : List α) :
    (collapse p sep inRun xs).length ≤ xs.length := by
  induction xs generalizing inRun with
  | nil => rfl
  | cons x xs ih =>
    rw [collapse]
    split_ifs
    · exact Nat.succ_le_succ (ih false)
    · exact (ih true).trans (Nat.le_succ _)
    · exact Nat.succ_le_succ (ih true)

/-! ### Stripping -/

variable [DecidableEq α]

/-- Leading separators are dropped up to an element that is none. -/
theorem dropWhile_append_eq {pre mid : List α} (hpre : ∀ x ∈ pre, x = sep)
    (hhead : ∀ x ∈ mid.head?, x ≠ sep) : ((pre ++ mid).dropWhile fun x => x = sep) = mid := by
  rw [List.dropWhile_append_of_pos fun x hx => decide_eq_true (hpre x hx)]
  cases mid with
  | nil => rfl
  | cons x mid =>
    exact List.dropWhile_cons_of_neg (by simpa using hhead)

/-- What is not a separator is not dropped. -/
theorem mem_strip (hx : x ∈ xs) (hne : x ≠ sep) : x ∈ strip sep xs := by
  have hkept : ∀ ys : List α, x ∈ ys → x ∈ ys.dropWhile fun y => y = sep := by
    intro ys hys
    rw [← List.takeWhile_append_dropWhile (p := fun y => decide (y = sep)) (l := ys)] at hys
    rcases List.mem_append.1 hys with htake | hdrop
    · have hsep := List.mem_takeWhile_imp htake
      exact absurd (of_decide_eq_true hsep) hne
    · exact hdrop
  rw [strip, List.rdropWhile, List.mem_reverse]
  exact hkept _ (List.mem_reverse.2 (hkept xs hx))

/-- Separators around a text that neither starts nor ends with one are dropped. -/
theorem strip_append {pre mid post : List α} (hpre : ∀ x ∈ pre, x = sep)
    (hpost : ∀ x ∈ post, x = sep) (hhead : ∀ x ∈ mid.head?, x ≠ sep)
    (hlast : ∀ x ∈ mid.getLast?, x ≠ sep) : strip sep (pre ++ mid ++ post) = mid := by
  have hpost' : ∀ x ∈ post.reverse, x = sep := fun x hx => hpost x (List.mem_reverse.1 hx)
  rw [strip, List.append_assoc]
  cases mid with
  | nil =>
    have hall : ∀ x ∈ pre ++ post, x = sep := List.forall_mem_append.2 ⟨hpre, hpost⟩
    rw [List.nil_append, List.dropWhile_eq_nil_iff.2 fun x hx => decide_eq_true (hall x hx)]
    rfl
  | cons y mid =>
    have hdrop : ((pre ++ (y :: mid ++ post)).dropWhile fun x => x = sep) = y :: mid ++ post :=
      dropWhile_append_eq hpre hhead
    rw [hdrop, List.rdropWhile, List.reverse_append,
      dropWhile_append_eq hpost' (by rwa [List.head?_reverse]), List.reverse_reverse]

theorem length_strip_le : (strip sep xs).length ≤ xs.length :=
  (List.rdropWhile_prefix _ _).length_le.trans (List.dropWhile_sublist _).length_le

/-- What is left of a text are its words. -/
theorem strip_collapse (hsep : p sep = false) (xs : List α) :
    strip sep (collapse p sep false xs) = [sep].intercalate (words p xs) := by
  have hword : ∀ x, (∃ w ∈ words p xs, x ∈ w) → x ≠ sep := by
    rintro x ⟨w, hw, hx⟩ rfl
    exact Bool.false_ne_true (hsep.symm.trans (forall_of_mem_words hw hx))
  have hhead : ∀ x ∈ ([sep].intercalate (words p xs)).head?, x ≠ sep := fun x hx =>
    hword x (head?_intercalate ne_nil_of_mem_words x hx)
  have hlast : ∀ x ∈ ([sep].intercalate (words p xs)).getLast?, x ≠ sep := fun x hx =>
    hword x (getLast?_intercalate ne_nil_of_mem_words x hx)
  obtain ⟨post, hpost, heq⟩ : ∃ post : List α, (∀ x ∈ post, x = sep) ∧
      collapse p sep true xs = [sep].intercalate (words p xs) ++ post := collapse_true_eq xs
  rcases collapse_false_eq xs with h | h
  · rw [h, heq]
    exact strip_append (List.forall_mem_nil _) hpost hhead hlast
  · rw [h, heq]
    exact strip_append (List.forall_mem_singleton.2 rfl) hpost hhead hlast

end ArgusSbomGuard
