import ArgusSbomGuard.Relational.Like

/-!
# What a pattern means

`Matches` says which texts a pattern stands for.  On a pattern in which something is behind every
backslash, `like` never fails and decides it (`like_spec`); a pattern without the three special
characters between two percent signs stands for the texts that contain it
(`matches_contains_iff`).

## Main definitions

* `Matches` : the texts of a pattern.
* `Complete` : something is behind every backslash.
* `patternSpan`, `patternText` : the length of the shortest texts of a pattern, and one of them.
* `Collation` : a lower case that leaves the special characters alone.
-/

namespace ArgusSbomGuard

/-- The characters that do not stand for themselves. -/
def metaChars : List Char := ['%', '_', '\\']

/-- The text matches the pattern. -/
inductive Matches : List Char → List Char → Prop
  | nil : Matches [] []
  | any {pattern text : List Char} (skipped : List Char) (h : Matches pattern text) :
    Matches ('%' :: pattern) (skipped ++ text)
  | one {pattern text : List Char} (c : Char) (h : Matches pattern text) :
    Matches ('_' :: pattern) (c :: text)
  | escaped {pattern text : List Char} (c : Char) (h : Matches pattern text) :
    Matches ('\\' :: c :: pattern) (c :: text)
  | char {pattern text : List Char} {c : Char} (hc : c ∉ metaChars) (h : Matches pattern text) :
    Matches (c :: pattern) (c :: text)

/-- Something is behind every backslash. -/
def Complete : List Char → Prop
  | [] => True
  | ['\\'] => False
  | '\\' :: _ :: pattern => Complete pattern
  | _ :: pattern => Complete pattern

/-- The length of the shortest texts that match. -/
def patternSpan : List Char → ℕ
  | [] => 0
  | '%' :: pattern => patternSpan pattern
  | '\\' :: _ :: pattern => patternSpan pattern + 1
  | _ :: pattern => patternSpan pattern + 1

/-- One of the shortest texts that match. -/
def patternText : List Char → List Char
  | [] => []
  | '%' :: pattern => patternText pattern
  | '_' :: pattern => 'x' :: patternText pattern
  | '\\' :: c :: pattern => c :: patternText pattern
  | c :: pattern => c :: patternText pattern

/-- The lower case of a collation that goes character by character.  The special characters and the
one that no text can have are their own lower case, and that of no other character. -/
structure Collation where
  lowerChar : Char → Char
  special : ∀ c, ∀ d ∈ '\x00' :: metaChars, lowerChar c = d ↔ c = d

/-- The lower case of a text. -/
def Collation.lower (collation : Collation) (s : String) : String :=
  String.ofList (s.toList.map collation.lowerChar)

variable {pattern text p q : List Char} {c d : Char}

theorem notMem_metaChars : c ∉ metaChars ↔ c ≠ '%' ∧ c ≠ '_' ∧ c ≠ '\\' := by
  simp [metaChars]

/-- Patterns by what their first character stands for. -/
@[elab_as_elim]
theorem pattern_induction {motive : List Char → Prop} (nil : motive [])
    (any : ∀ p, motive p → motive ('%' :: p)) (one : ∀ p, motive p → motive ('_' :: p))
    (dangling : motive ['\\']) (escaped : ∀ c p, motive p → motive ('\\' :: c :: p))
    (char : ∀ c p, c ∉ metaChars → motive p → motive (c :: p)) (pattern : List Char) :
    motive pattern := by
  induction hn : pattern.length using Nat.strong_induction_on generalizing pattern with
  | _ n ih =>
    subst hn
    match pattern with
    | [] => exact nil
    | c :: p =>
      have hp : motive p := ih _ (Nat.lt_succ_self _) p rfl
      by_cases hany : c = '%'
      · exact hany ▸ any p hp
      by_cases hone : c = '_'
      · exact hone ▸ one p hp
      by_cases hescape : c = '\\'
      case neg => exact char c p (notMem_metaChars.2 ⟨hany, hone, hescape⟩) hp
      subst hescape
      match p with
      | [] => exact dangling
      | d :: p =>
        have hlength : p.length < ('\\' :: d :: p).length := by
          rw [List.length_cons, List.length_cons]
          omega
        exact escaped d p (ih p.length hlength p rfl)

/-! ### The recursive definitions, at a character that stands for itself -/

section Char

variable (hc : c ∉ metaChars)

include hc

theorem like_char : like (c :: p) (d :: text) = if c = d then like p text else .ok false := by
  obtain ⟨hany, hone, hescape⟩ := notMem_metaChars.1 hc
  rw [like] <;> simp [hany, hone, hescape]

theorem like_char_nil : like (c :: p) [] = .ok false := by
  rw [like]
  exact (notMem_metaChars.1 hc).1

theorem danglingEscape_char : danglingEscape (c :: p) text = false := by
  obtain ⟨hany, hone, hescape⟩ := notMem_metaChars.1 hc
  rw [danglingEscape] <;> simp [hany, hone, hescape]

theorem complete_char : Complete (c :: p) ↔ Complete p := by
  have hescape := (notMem_metaChars.1 hc).2.2
  rw [Complete] <;> simp [hescape]

theorem patternSpan_char : patternSpan (c :: p) = patternSpan p + 1 := by
  obtain ⟨hany, hone, hescape⟩ := notMem_metaChars.1 hc
  rw [patternSpan] <;> simp [hany, hescape]

theorem patternText_char : patternText (c :: p) = c :: patternText p := by
  obtain ⟨hany, hone, hescape⟩ := notMem_metaChars.1 hc
  rw [patternText] <;> simp [hany, hone, hescape]

end Char

/-! ### The texts of a pattern -/

theorem matches_nil_iff : Matches [] text ↔ text = [] := by
  constructor
  · intro h
    cases h
    rfl
  · rintro rfl
    exact .nil

theorem matches_any_iff : Matches ('%' :: p) text ↔ ∃ rest, rest <:+ text ∧ Matches p rest := by
  constructor
  · intro h
    cases h with
    | any skipped h => exact ⟨_, List.suffix_append _ _, h⟩
    | char hc => exact absurd (by decide) hc
  · rintro ⟨rest, ⟨skipped, rfl⟩, h⟩
    exact .any skipped h

theorem matches_one_iff : Matches ('_' :: p) (c :: text) ↔ Matches p text := by
  constructor
  · intro h
    cases h with
    | one c h => exact h
    | char hc => exact absurd (by decide) hc
  · exact .one c

theorem matches_escaped_iff : Matches ('\\' :: c :: p) (d :: text) ↔ c = d ∧ Matches p text := by
  constructor
  · intro h
    cases h with
    | escaped c h => exact ⟨rfl, h⟩
    | char hc => exact absurd (by decide) hc
  · rintro ⟨rfl, h⟩
    exact .escaped c h

theorem matches_char_iff (hc : c ∉ metaChars) :
    Matches (c :: p) (d :: text) ↔ c = d ∧ Matches p text := by
  obtain ⟨hany, hone, hescape⟩ := notMem_metaChars.1 hc
  constructor
  · intro h
    generalize htext : d :: text = text' at h
    cases h with
    | any => exact absurd rfl hany
    | one => exact absurd rfl hone
    | escaped => exact absurd rfl hescape
    | char _ h =>
      obtain ⟨rfl, rfl⟩ := List.cons.inj htext
      exact ⟨rfl, h⟩
  · rintro ⟨rfl, h⟩
    exact .char hc h

/-- Only percent signs match nothing. -/
theorem matches_cons_nil (hc : c ≠ '%') : ¬ Matches (c :: p) [] := by
  generalize htext : ([] : List Char) = text
  intro h
  cases h with
  | any => exact hc rfl
  | _ => cases htext

/-! ### The algorithm -/

/-- Behind a complete pattern nothing is missing. -/
theorem danglingEscape_eq_false (h : Complete p) : danglingEscape p text = false := by
  induction p using pattern_induction generalizing text with
  | nil => rfl
  | any p ih => exact ih h
  | one p ih =>
    cases text with
    | nil => rfl
    | cons c text => exact ih h
  | dangling => exact h.elim
  | escaped c p ih => rfl
  | char c p hc ih => exact danglingEscape_char hc

theorem likeRest_spec {matches' : List Char → Except PyError Bool} {P : List Char → Prop}
    (h : ∀ text, ∃ b, matches' text = .ok b ∧ (b = true ↔ P text)) :
    ∃ b, likeRest matches' text = .ok b ∧ (b = true ↔ ∃ rest, rest <:+ text ∧ P rest) := by
  induction text with
  | nil =>
    obtain ⟨b, hb, hP⟩ := h []
    refine ⟨b, hb, hP.trans ?_⟩
    simp
  | cons c text ih =>
    obtain ⟨b, hb, hP⟩ := h (c :: text)
    obtain ⟨b', hb', hP'⟩ := ih
    refine ⟨b || b', ?_, ?_⟩
    · rw [likeRest, hb]
      cases b
      · exact hb'
      · rfl
    · simp only [Bool.or_eq_true, hP, hP', List.suffix_cons_iff, or_and_right, exists_or,
        exists_eq_left]

/-- **The algorithm decides what a pattern means.** -/
theorem like_spec (text : List Char) (h : Complete p) :
    ∃ b, like p text = .ok b ∧ (b = true ↔ Matches p text) := by
  induction p using pattern_induction generalizing text with
  | nil =>
    refine ⟨_, rfl, ?_⟩
    rw [matches_nil_iff, List.isEmpty_iff]
  | any p ih =>
    have hp : Complete p := h
    rw [like, danglingEscape_eq_false hp, Bool.and_false, matches_any_iff]
    exact likeRest_spec fun text => ih text hp
  | one p ih =>
    cases text with
    | nil => exact ⟨false, rfl, by simp [matches_cons_nil]⟩
    | cons c text =>
      rw [matches_one_iff]
      exact ih text h
  | dangling => exact h.elim
  | escaped c p ih =>
    cases text with
    | nil => exact ⟨false, rfl, by simp [matches_cons_nil]⟩
    | cons d text =>
      obtain ⟨b, hb, hP⟩ := ih text h
      rw [matches_escaped_iff]
      by_cases hcd : c = d
      · exact ⟨b, by rw [like, if_pos hcd, hb], by simp [hcd, hP]⟩
      · exact ⟨false, by rw [like, if_neg hcd], by simp [hcd]⟩
  | char c p hc ih =>
    cases text with
    | nil =>
      exact ⟨false, like_char_nil hc, by simp [matches_cons_nil (notMem_metaChars.1 hc).1]⟩
    | cons d text =>
      obtain ⟨b, hb, hP⟩ := ih text ((complete_char hc).1 h)
      rw [matches_char_iff hc, like_char hc]
      by_cases hcd : c = d
      · exact ⟨b, by rw [if_pos hcd, hb], by simp [hcd, hP]⟩
      · exact ⟨false, by rw [if_neg hcd], by simp [hcd]⟩

theorem like_eq_ok (h : Complete p) {b : Bool} :
    like p text = .ok b ↔ (b = true ↔ Matches p text) := by
  obtain ⟨b', hb', hP⟩ := like_spec text h
  rw [hb', ← hP, Except.ok.injEq, ← Bool.eq_iff_iff, eq_comm]

/-! ### Patterns of characters that stand for themselves -/

section Plain

variable (hp : ∀ c ∈ p, c ∉ metaChars)

include hp

theorem complete_plain_append (q : List Char) : Complete (p ++ q) ↔ Complete q := by
  induction p with
  | nil => rfl
  | cons c p ih =>
    rw [List.forall_mem_cons] at hp
    rw [List.cons_append, complete_char hp.1, ih hp.2]

/-- The text starts with the characters, and goes on as the rest of the pattern says. -/
theorem matches_plain_append_iff :
    Matches (p ++ q) text ↔ ∃ rest, text = p ++ rest ∧ Matches q rest := by
  induction p generalizing text with
  | nil => simp
  | cons c p ih =>
    rw [List.forall_mem_cons] at hp
    rw [List.cons_append]
    cases text with
    | nil => simp [matches_cons_nil (notMem_metaChars.1 hp.1).1]
    | cons d text =>
      rw [matches_char_iff hp.1, ih hp.2]
      constructor
      · rintro ⟨rfl, rest, rfl, h⟩
        exact ⟨rest, rfl, h⟩
      · rintro ⟨rest, htext, h⟩
        obtain ⟨rfl, rfl⟩ := List.cons.inj htext
        exact ⟨rfl, rest, rfl, h⟩

/-- Without special characters only the text itself matches. -/
theorem matches_plain_iff : Matches p text ↔ text = p := by
  have h : Matches (p ++ []) text ↔ _ := matches_plain_append_iff hp
  simpa only [List.append_nil, matches_nil_iff, exists_eq_right] using h

/-- Between percent signs it is contained in the texts. -/
theorem matches_contains_iff : Matches ('%' :: (p ++ ['%'])) text ↔ p <:+: text := by
  have hany : ∀ rest, Matches ['%'] rest := by
    intro rest
    simpa using Matches.any rest .nil
  simp only [matches_any_iff (p := p ++ ['%']), matches_plain_append_iff hp, hany, and_true]
  constructor
  · rintro ⟨-, ⟨before, rfl⟩, after, rfl⟩
    exact ⟨before, after, by simp⟩
  · rintro ⟨before, after, rfl⟩
    exact ⟨p ++ after, ⟨before, by simp⟩, after, rfl⟩

end Plain

/-! ### The shortest texts -/

theorem Matches.patternSpan_le (h : Matches p text) : patternSpan p ≤ text.length := by
  induction h with
  | nil => exact Nat.le_refl 0
  | any skipped h ih =>
    rw [patternSpan, List.length_append]
    omega
  | one c h ih => exact Nat.succ_le_succ ih
  | escaped c h ih => exact Nat.succ_le_succ ih
  | char hc h ih =>
    rw [patternSpan_char hc]
    exact Nat.succ_le_succ ih

theorem matches_patternText (h : Complete p) : Matches p (patternText p) := by
  induction p using pattern_induction with
  | nil => exact .nil
  | any p ih => exact .any [] (ih h)
  | one p ih => exact .one 'x' (ih h)
  | dangling => exact h.elim
  | escaped c p ih => exact .escaped c (ih h)
  | char c p hc ih =>
    rw [patternText_char hc]
    exact .char hc (ih ((complete_char hc).1 h))

theorem length_patternText : (patternText p).length = patternSpan p := by
  induction p using pattern_induction with
  | nil => rfl
  | any p ih => exact ih
  | one p ih => exact congrArg Nat.succ ih
  | dangling => rfl
  | escaped c p ih => exact congrArg Nat.succ ih
  | char c p hc ih =>
    rw [patternText_char hc, patternSpan_char hc, List.length_cons, ih]

/-- The characters of the text are from the pattern, apart from those for underscores. -/
theorem mem_patternText (h : c ∈ patternText p) : c ∈ p ∨ c = 'x' := by
  induction p using pattern_induction with
  | nil => cases h
  | any p ih => exact (ih h).imp_left (List.mem_cons_of_mem _)
  | one p ih =>
    rcases List.mem_cons.1 h with rfl | h
    · exact .inr rfl
    · exact (ih h).imp_left (List.mem_cons_of_mem _)
  | dangling => exact .inl h
  | escaped d p ih =>
    rcases List.mem_cons.1 h with rfl | h
    · exact .inl (by simp)
    · exact (ih h).imp_left fun h => List.mem_cons_of_mem _ (List.mem_cons_of_mem _ h)
  | char d p hd ih =>
    rw [patternText_char hd] at h
    rcases List.mem_cons.1 h with rfl | h
    · exact .inl List.mem_cons_self
    · exact (ih h).imp_left (List.mem_cons_of_mem _)

/-- A percent sign at the end makes a pattern complete. -/
theorem complete_append_any (p : List Char) : Complete (p ++ ['%']) := by
  induction p using pattern_induction with
  | nil => trivial
  | any p ih => exact ih
  | one p ih => exact ih
  | dangling => trivial
  | escaped c p ih => exact ih
  | char c p hc ih => exact (complete_char hc).2 ih

theorem patternSpan_append_any_le : patternSpan (p ++ ['%']) ≤ p.length := by
  induction p using pattern_induction with
  | nil => exact Nat.le_refl 0
  | any p ih => exact ih.trans (Nat.le_succ _)
  | one p ih => exact Nat.succ_le_succ ih
  | dangling => exact Nat.le_refl 1
  | escaped c p ih => exact Nat.succ_le_succ (ih.trans (Nat.le_succ _))
  | char c p hc ih =>
    rw [List.cons_append, patternSpan_char hc]
    exact Nat.succ_le_succ ih

/-! ### Ignoring case -/

/-- A capital letter of ASCII moves up by 32, and any other character stays. -/
theorem toLower_cases (c : Char) :
    (65 ≤ c.val.toNat ∧ c.val.toNat ≤ 90) ∧ c.toLower.val.toNat = c.val.toNat + 32 ∨
      ¬ (65 ≤ c.val.toNat ∧ c.val.toNat ≤ 90) ∧ c.toLower = c := by
  unfold Char.toLower
  split_ifs with h
  · have hlow : 65 ≤ c.val.toNat := UInt32.le_iff_toNat_le.1 h.1
    have hhigh : c.val.toNat ≤ 90 := UInt32.le_iff_toNat_le.1 h.2
    have hlower : (c.val + ('a'.val - 'A'.val)).toNat = c.val.toNat + 32 := by
      rw [UInt32.toNat_add]
      exact Nat.mod_eq_of_lt (by show c.val.toNat + 32 < 2 ^ 32; omega)
    exact .inl ⟨⟨hlow, hhigh⟩, hlower⟩
  · refine .inr ⟨fun hrange => h ⟨?_, ?_⟩, rfl⟩
    · exact UInt32.le_iff_toNat_le.2 hrange.1
    · exact UInt32.le_iff_toNat_le.2 hrange.2

theorem toLower_eq_iff (hd : d ∈ '\x00' :: metaChars) : c.toLower = d ↔ c = d := by
  rcases toLower_cases c with ⟨hrange, hlower⟩ | ⟨-, hsame⟩
  · have hd' : d.val.toNat < 65 ∨ 90 < d.val.toNat ∧ d.val.toNat < 97 := by
      simp only [metaChars, List.mem_cons, List.not_mem_nil, or_false] at hd
      rcases hd with rfl | rfl | rfl | rfl <;> decide
    rw [Char.ext_iff, Char.ext_iff, ← UInt32.toNat_inj, ← UInt32.toNat_inj, hlower]
    omega
  · rw [hsame]

theorem toLower_toLower (c : Char) : c.toLower.toLower = c.toLower := by
  rcases toLower_cases c with ⟨hrange, hlower⟩ | ⟨-, hsame⟩
  · rcases toLower_cases c.toLower with ⟨hrange', -⟩ | ⟨-, hsame'⟩
    · omega
    · exact hsame'
  · rw [hsame, hsame]

/-- The collation that knows the letters of ASCII. -/
def asciiCollation : Collation := ⟨Char.toLower, fun _ _ hd => toLower_eq_iff hd⟩

namespace Collation

variable (collation : Collation)

@[simp] theorem toList_lower (s : String) :
    (collation.lower s).toList = s.toList.map collation.lowerChar := by
  simp [lower]

theorem lowerChar_eq_iff (hd : d ∈ metaChars) : collation.lowerChar c = d ↔ c = d :=
  collation.special c d (List.mem_cons_of_mem _ hd)

theorem lowerChar_meta (hd : d ∈ metaChars) : collation.lowerChar d = d :=
  (collation.lowerChar_eq_iff hd).2 rfl

@[simp] theorem lowerChar_percent : collation.lowerChar '%' = '%' :=
  collation.lowerChar_meta (by decide)

@[simp] theorem lowerChar_underscore : collation.lowerChar '_' = '_' :=
  collation.lowerChar_meta (by decide)

@[simp] theorem lowerChar_backslash : collation.lowerChar '\\' = '\\' :=
  collation.lowerChar_meta (by decide)

theorem lowerChar_mem_metaChars : collation.lowerChar c ∈ metaChars ↔ c ∈ metaChars := by
  constructor
  · intro h
    have hc : c = collation.lowerChar c := (collation.lowerChar_eq_iff h).1 rfl
    exact hc ▸ h
  · intro h
    rwa [collation.lowerChar_meta h]

/-- Lower case does not touch the structure of a pattern. -/
theorem complete_map : Complete (p.map collation.lowerChar) ↔ Complete p := by
  induction p using pattern_induction with
  | nil => rfl
  | any p ih => simpa [Complete] using ih
  | one p ih => simpa [Complete] using ih
  | dangling => simp [Complete]
  | escaped c p ih => simpa [Complete] using ih
  | char c p hc ih =>
    have hlower := mt collation.lowerChar_mem_metaChars.1 hc
    rw [List.map_cons, complete_char hlower, complete_char hc, ih]

theorem patternSpan_map : patternSpan (p.map collation.lowerChar) = patternSpan p := by
  induction p using pattern_induction with
  | nil => rfl
  | any p ih => simpa [patternSpan] using ih
  | one p ih => simpa [patternSpan] using ih
  | dangling => simp [patternSpan]
  | escaped c p ih => simpa [patternSpan] using ih
  | char c p hc ih =>
    have hlower := mt collation.lowerChar_mem_metaChars.1 hc
    rw [List.map_cons, patternSpan_char hlower, patternSpan_char hc, ih]

theorem matches_map (h : Matches p text) :
    Matches (p.map collation.lowerChar) (text.map collation.lowerChar) := by
  induction h with
  | nil => exact .nil
  | any skipped h ih =>
    rw [List.map_cons, List.map_append, lowerChar_percent]
    exact .any _ ih
  | one c h ih =>
    rw [List.map_cons, List.map_cons, lowerChar_underscore]
    exact .one _ ih
  | escaped c h ih =>
    rw [List.map_cons, List.map_cons, List.map_cons, lowerChar_backslash]
    exact .escaped _ ih
  | char hc h ih => exact .char (mt collation.lowerChar_mem_metaChars.1 hc) ih

/-- A shortest text that matches what is between percent signs is this itself, ignoring case, only
when it has no special characters. -/
theorem plain_of_patternText
    (h : (patternText (p ++ ['%'])).map collation.lowerChar = p.map collation.lowerChar) :
    ∀ c ∈ p, c ∉ metaChars := by
  have hlength : patternSpan (p ++ ['%']) = p.length := by
    simpa [length_patternText] using congrArg List.length h
  induction p using pattern_induction with
  | nil => exact fun c hc => absurd hc List.not_mem_nil
  | any p ih =>
    have hle : patternSpan (p ++ ['%']) ≤ p.length := patternSpan_append_any_le
    have hspan : patternSpan (p ++ ['%']) = p.length + 1 := hlength
    omega
  | one p ih =>
    have hx : collation.lowerChar 'x' = collation.lowerChar '_' := (List.cons.inj h).1
    rw [lowerChar_underscore, collation.lowerChar_eq_iff (by decide)] at hx
    exact absurd hx (by decide)
  | dangling =>
    have hescape : collation.lowerChar '%' = collation.lowerChar '\\' := (List.cons.inj h).1
    rw [lowerChar_backslash, collation.lowerChar_eq_iff (by decide)] at hescape
    exact absurd hescape (by decide)
  | escaped c p ih =>
    have hle : patternSpan (p ++ ['%']) ≤ p.length := patternSpan_append_any_le
    have hspan : patternSpan (p ++ ['%']) + 1 = p.length + 2 := hlength
    omega
  | char c p hc ih =>
    rw [List.cons_append, patternText_char hc, List.map_cons, List.map_cons] at h
    rw [List.cons_append, patternSpan_char hc, List.length_cons] at hlength
    exact List.forall_mem_cons.2 ⟨hc, ih (List.cons.inj h).2 (Nat.succ.inj hlength)⟩

end Collation

end ArgusSbomGuard
