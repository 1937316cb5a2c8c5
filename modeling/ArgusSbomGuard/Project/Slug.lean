import ArgusSbomGuard.Relational.Matches
import ArgusSbomGuard.Relational.Words
import ArgusSbomGuard.System.World

/-!
# Project names and slugs

`projects.slug` is a generated column: `public.slugify` of the initial migration trims the name,
transliterates it, turns every run of other characters into a hyphen, drops the hyphens at both
ends and takes the lower case.  `ProjectCreate` and `ProjectUpdate` of `api/v1/schemas.py` check the
name, and `create_project` and `update_project` of `api/v1/projects.py` store it.

The name may have 255 characters and so may the slug, but a character may be transliterated to
several: the database refuses a slug that became too long with an error that the handlers do not
catch (`usable_slug_iff`).

## Main definitions

* `Alphabet` : what the database and Python know of characters.
* `slugify` : the slug of a name.
* `validateName`, `updateProject` : the checks of a name, and the change of one.
-/

namespace ArgusSbomGuard

/-- The characters of the database: the lower case of its collation, its transliteration and its
class of alphanumeric characters; and those that Python takes for alphanumeric. -/
structure Alphabet extends Collation where
  /-- `unaccent` of a character. -/
  unaccent : Char → List Char
  /-- `[[:alnum:]]`. -/
  alnum : Char → Bool
  /-- `str.isalnum`. -/
  isalnum : Char → Bool
  alnum_hyphen : alnum '-' = false
  alnum_nul : alnum '\x00' = false
  alnum_lowerChar : ∀ c, alnum c = true → alnum (lowerChar c) = true
  lowerChar_lowerChar : ∀ c, lowerChar (lowerChar c) = lowerChar c
  lowerChar_hyphen : lowerChar '-' = '-'
  isalnum_space : isalnum ' ' = false
  exists_alnum_unaccent : ∀ c, isalnum c = true → ∃ d ∈ unaccent c, alnum d = true

variable (t : Alphabet)

/-- `public.unaccent(trim(value))`. -/
def unaccented (value : String) : List Char := (strip ' ' value.toList).flatMap t.unaccent

/-- `public.slugify`. -/
def slugify (value : String) : String :=
  t.lower (String.ofList (strip '-' (collapse t.alnum '-' false (unaccented t value))))

/-- A name that passed validation. -/
structure ProjectName where
  val : String
  fits : fitsVarchar 255 val = true
  hasAlphanumeric : val.toList.any t.isalnum = true

/-- The checks of `ProjectCreate.name` and of `ProjectUpdate.name`: `_strip_nul_bytes`, the maximal
length and `_validate_name_has_alphanumeric`. -/
def validateName (raw : String) : Except ApiError (ProjectName t) :=
  let name := PyStr.stripNul raw
  if hfits : fitsVarchar 255 name then
    if halnum : name.toList.any t.isalnum then .ok ⟨name, hfits, halnum⟩
    else .error (.validation ["body", "name"]
      "Value error, Project name must contain at least one alphanumeric character")
  -- there is no NUL in the name any more, so it is too long
  else .error (.validation ["body", "name"] "String should have at most 255 characters")

/-- A request body that passed validation; the other fields are only stored. -/
structure ProjectUpdate where
  name : Option (ProjectName t)

/-- The environment in which the database computes the slugs. -/
def Env.withSlugs (env : Env) : Env := { env with slugify := ArgusSbomGuard.slugify t }

variable (env : Env) (db : Database)

/-- `create_project` with a name that passed validation. -/
def createNamed (name : ProjectName t) (newId : Uuid) : Except ApiError Database :=
  createProject (env.withSlugs t) db ⟨name.val, name.fits⟩ newId

/-- The change of the name in `update_project`, which stores the other fields as they are. -/
def renameProject (project : Project) (name : ProjectName t) : Except ApiError Database :=
  if ∃ p ∈ db.projects, p.name = name.val ∧ p.id ≠ project.id then
    .error (.http 409 "Project name already exists")
  -- an attribute that keeps its value is not written
  else if project.name = name.val then .ok db
  else match db.updateProject ⟨project.id, name.val, slugify t name.val⟩ with
    | .ok db => .ok db
    | .error .integrityError =>
      -- `_is_slug_conflict`
      if ∃ p ∈ db.projects, p.id ≠ project.id ∧ p.slug = slugify t name.val then
        .error (.http 409 "Project slug already in use")
      else .error (.http 409 "Project name already exists")
    | .error e => .error (.unhandled e)

/-- `update_project`. -/
def updateProject (projectId : Uuid) (data : ProjectUpdate t) : Except ApiError Database :=
  match findProject db projectId with
  | none => .error (.http 404 "Project not found")
  | some project =>
    match data.name with
    | none => .ok db
    | some name => renameProject t db project name

/-! ### The slug of a name -/

/-- The words of a name: its alphanumeric runs, transliterated. -/
def slugWords (value : String) : List (List Char) := words t.alnum (unaccented t value)

/-- The alphanumeric characters of a name, and one hyphen less than there are words. -/
def slugLength (value : String) : ℕ :=
  (unaccented t value).countP t.alnum + ((slugWords t value).length - 1)

/-- Lower-case alphanumeric runs with single hyphens between them, not longer than the column. -/
structure UsableSlug (slug : String) : Prop where
  nonempty : slug ≠ ""
  runs : ∃ ws : List (List Char), slug.toList = ['-'].intercalate ws ∧
    ∀ w ∈ ws, w ≠ [] ∧ ∀ c ∈ w, t.alnum c = true ∧ t.lowerChar c = c
  length_le : slug.length ≤ 255

variable {t} {env} {db} {value : String} {name : ProjectName t}

theorem toList_slugify : (slugify t value).toList =
    ['-'].intercalate ((slugWords t value).map (List.map t.lowerChar)) := by
  rw [slugify, Collation.toList_lower, String.toList_ofList, strip_collapse t.alnum_hyphen,
    map_intercalate, t.lowerChar_hyphen, slugWords]

theorem length_slugify : (slugify t value).length = slugLength t value := by
  rw [slugify, ← String.length_toList, Collation.toList_lower, String.toList_ofList,
    List.length_map, strip_collapse t.alnum_hyphen, length_intercalate_words, slugLength, slugWords]

/-- A slug is at most as long as the transliterated name. -/
theorem slugLength_le : slugLength t value ≤ (unaccented t value).length := by
  rw [← length_slugify, slugify, ← String.length_toList, Collation.toList_lower,
    String.toList_ofList, List.length_map]
  exact length_strip_le.trans (length_collapse_le false _)

theorem slug_word {w : List Char} (hw : w ∈ (slugWords t value).map (List.map t.lowerChar)) :
    w ≠ [] ∧ ∀ c ∈ w, t.alnum c = true ∧ t.lowerChar c = c := by
  obtain ⟨v, hv, rfl⟩ := List.mem_map.1 hw
  refine ⟨fun h => ne_nil_of_mem_words v hv (List.map_eq_nil_iff.1 h), fun c hc => ?_⟩
  obtain ⟨d, hd, rfl⟩ := List.mem_map.1 hc
  exact ⟨t.alnum_lowerChar d (forall_of_mem_words hv hd), t.lowerChar_lowerChar d⟩

/-- A name that passed validation has a character for its slug. -/
theorem exists_alnum_unaccented (name : ProjectName t) :
    ∃ d ∈ unaccented t name.val, t.alnum d = true := by
  obtain ⟨c, hc, halnum⟩ := List.any_eq_true.1 name.hasAlphanumeric
  have hspace : c ≠ ' ' := by
    rintro rfl
    exact Bool.false_ne_true (t.isalnum_space.symm.trans halnum)
  obtain ⟨d, hd, hdalnum⟩ := t.exists_alnum_unaccent c halnum
  exact ⟨d, List.mem_flatMap.2 ⟨c, mem_strip hc hspace, hd⟩, hdalnum⟩

theorem slugify_ne_empty (name : ProjectName t) : slugify t name.val ≠ "" := by
  intro hempty
  have hzero : slugLength t name.val = 0 := by rw [← length_slugify, hempty]; rfl
  obtain ⟨d, hd, halnum⟩ := exists_alnum_unaccented name
  exact (List.countP_pos_iff.2 ⟨d, hd, halnum⟩).ne' (Nat.add_eq_zero_iff.1 hzero).1

/-- The slug of a name that passed validation is usable when it is not too long. -/
theorem usableSlug_slugify (name : ProjectName t) :
    UsableSlug t (slugify t name.val) ↔ slugLength t name.val ≤ 255 := by
  constructor
  · intro h
    rw [← length_slugify]
    exact h.length_le
  · intro h
    exact ⟨slugify_ne_empty name, ⟨_, toList_slugify, fun w => slug_word⟩,
      length_slugify.trans_le h⟩

/-- There is no NUL in a slug. -/
theorem nul_notMem_slugify : '\x00' ∉ (slugify t value).toList := by
  rw [toList_slugify]
  intro hmem
  rcases mem_intercalate hmem with hhyphen | ⟨w, hw, hc⟩
  · cases hhyphen
  · exact Bool.false_ne_true (t.alnum_nul.symm.trans ((slug_word hw).2 _ hc).1)

theorem fitsVarchar_slugify :
    fitsVarchar 255 (slugify t value) = true ↔ slugLength t value ≤ 255 := by
  have hnul : (slugify t value).toList.contains '\x00' = false := by
    rw [List.contains_eq_mem, decide_eq_false_iff_not]
    exact nul_notMem_slugify
  rw [fitsVarchar, hnul, length_slugify, Bool.not_false, Bool.and_true, decide_eq_true_eq]

/-! ### Storing a name -/

/-- The names that pass validation are the ones the results below are about. -/
theorem validateName_val (name : ProjectName t) : validateName t name.val = .ok name := by
  have hnul : '\x00' ∉ name.val.toList := by
    have hfits := (Bool.and_eq_true_iff.1 name.fits).2
    simpa using hfits
  have hstrip := stripNul_eq hnul
  simp only [validateName, hstrip, name.fits, name.hasAlphanumeric, dite_true]

/-- A name whose slug fits is created, or there is a conflict. -/
theorem createNamed_error (hfits : slugLength t name.val ≤ 255) {newId : Uuid} {e : ApiError}
    (h : createNamed t env db name newId = .error e) : ∃ detail, e = .http 409 detail := by
  have hslug : fitsVarchar 255 (slugify t name.val) = true := fitsVarchar_slugify.2 hfits
  unfold createNamed createProject at h
  split at h
  · exact ⟨_, (Except.error.inj h).symm⟩
  · split at h
    · cases h
    · split at h <;> exact ⟨_, (Except.error.inj h).symm⟩
    · rename_i e' hne hins
      have herror := Database.insertProject_error (p := ⟨newId, name.val, slugify t name.val⟩)
        name.fits hslug hins
      exact absurd herror hne

/-- A name whose slug does not fit leads to a database error. -/
theorem createNamed_dataError (hlong : 255 < slugLength t name.val) (newId : Uuid) :
    createNamed t env .empty name newId = .error (.unhandled .dataError) := by
  have hslug : fitsVarchar 255 (slugify t name.val) = false := by
    rw [← Bool.not_eq_true, fitsVarchar_slugify]
    exact not_le.2 hlong
  have hins : Database.empty.insertProject ⟨newId, name.val, slugify t name.val⟩ =
      .error .dataError := by
    rw [Database.insertProject, hslug, Bool.and_false]
    rfl
  unfold createNamed createProject
  rw [if_neg (by rintro ⟨_, hp, -⟩; exact Table.not_mem_empty _ hp)]
  dsimp only [Env.withSlugs]
  rw [hins]

theorem renameProject_error (hfits : slugLength t name.val ≤ 255) {project : Project} {e : ApiError}
    (h : renameProject t db project name = .error e) : ∃ detail, e = .http 409 detail := by
  have hslug : fitsVarchar 255 (slugify t name.val) = true := fitsVarchar_slugify.2 hfits
  unfold renameProject at h
  split at h
  · exact ⟨_, (Except.error.inj h).symm⟩
  · split at h
    · cases h
    · split at h
      · cases h
      · split at h <;> exact ⟨_, (Except.error.inj h).symm⟩
      · rename_i e' hne hupd
        have herror := Database.updateProject_error
          (p := ⟨project.id, name.val, slugify t name.val⟩) name.fits hslug hupd
        exact absurd herror hne

theorem updateProject_error (hfits : slugLength t name.val ≤ 255) {projectId : Uuid} {e : ApiError}
    (h : updateProject t db projectId ⟨some name⟩ = .error e) :
    e = .http 404 "Project not found" ∨ ∃ detail, e = .http 409 detail := by
  unfold updateProject at h
  split at h
  · exact .inl (Except.error.inj h).symm
  · exact .inr (renameProject_error hfits h)

variable (env) in
/-- The slug of the name is usable, and storing the name succeeds or is answered with a conflict,
whatever is stored already. -/
structure NameHandled (name : ProjectName t) : Prop where
  usable : UsableSlug t (slugify t name.val)
  created : ∀ db newId e, createNamed t env db name newId = .error e →
    ∃ detail, e = .http 409 detail
  renamed : ∀ db projectId e, updateProject t db projectId ⟨some name⟩ = .error e →
    e = .http 404 "Project not found" ∨ ∃ detail, e = .http 409 detail

/-- **Usable slugs.**  A name that passed validation has a usable slug and is stored without a
database error exactly when its transliteration has at most 255 alphanumeric characters and
hyphens between its words. -/
theorem usable_slug_iff (env : Env) (name : ProjectName t) :
    NameHandled env name ↔ slugLength t name.val ≤ 255 := by
  constructor
  · intro h
    exact (usableSlug_slugify name).1 h.usable
  · intro h
    exact ⟨(usableSlug_slugify name).2 h, fun _ _ _ => createNamed_error h,
      fun _ _ _ => updateProject_error h⟩

/-! ### A name of sharp s -/

theorem isAlphanum_iff {c : Char} : c.isAlphanum = true ↔
    (65 ≤ c.val.toNat ∧ c.val.toNat ≤ 90) ∨ (97 ≤ c.val.toNat ∧ c.val.toNat ≤ 122) ∨
      (48 ≤ c.val.toNat ∧ c.val.toNat ≤ 57) := by
  have hupper : c.isUpper = true ↔ 65 ≤ c.val.toNat ∧ c.val.toNat ≤ 90 :=
    decide_eq_true_iff.trans (and_congr UInt32.le_iff_toNat_le UInt32.le_iff_toNat_le)
  have hlower : c.isLower = true ↔ 97 ≤ c.val.toNat ∧ c.val.toNat ≤ 122 :=
    Bool.and_eq_true_iff.trans (and_congr (decide_eq_true_iff.trans UInt32.le_iff_toNat_le)
      (decide_eq_true_iff.trans UInt32.le_iff_toNat_le))
  have hdigit : c.isDigit = true ↔ 48 ≤ c.val.toNat ∧ c.val.toNat ≤ 57 :=
    Bool.and_eq_true_iff.trans (and_congr (decide_eq_true_iff.trans UInt32.le_iff_toNat_le)
      (decide_eq_true_iff.trans UInt32.le_iff_toNat_le))
  have hcases : c.isAlphanum = true ↔ (c.isUpper = true ∨ c.isLower = true) ∨ c.isDigit = true :=
    Bool.or_eq_true_iff.trans (or_congr_left Bool.or_eq_true_iff)
  rw [hcases, hupper, hlower, hdigit, or_assoc]

theorem isAlphanum_toLower {c : Char} (h : c.isAlphanum = true) :
    c.toLower.isAlphanum = true := by
  rcases toLower_cases c with ⟨hrange, hlower⟩ | ⟨-, hsame⟩
  · rw [isAlphanum_iff, hlower]
    omega
  · rwa [hsame]

/-- ASCII, and the sharp s, that is transliterated to two letters. -/
def germanAlphabet : Alphabet where
  toCollation := asciiCollation
  unaccent c := if c = 'ß' then ['s', 's'] else [c]
  alnum c := c.isAlphanum || c == 'ß'
  isalnum c := c.isAlphanum || c == 'ß'
  alnum_hyphen := by decide
  alnum_nul := by decide
  alnum_lowerChar c h := by
    rcases Bool.or_eq_true_iff.1 h with hascii | hsharp
    · exact Bool.or_eq_true_iff.2 (.inl (isAlphanum_toLower hascii))
    · rw [beq_iff_eq.1 hsharp]
      decide
  lowerChar_lowerChar := toLower_toLower
  lowerChar_hyphen := by decide
  isalnum_space := by decide
  exists_alnum_unaccent c h := by
    by_cases hc : c = 'ß'
    · exact ⟨'s', by simp [hc], by decide⟩
    · exact ⟨c, by simp [hc], h⟩

example : slugify germanAlphabet "  Straße 7, West!" = "strasse-7-west" := by decide +kernel

/-- 255 times the sharp s. -/
def sharpText : String := String.ofList (List.replicate 255 'ß')

theorem toList_sharpText : sharpText.toList = List.replicate 255 'ß' := String.toList_ofList

theorem fitsVarchar_sharpText : fitsVarchar 255 sharpText = true := by
  rw [fitsVarchar, ← String.length_toList, toList_sharpText]
  decide +kernel

def sharpName : ProjectName germanAlphabet :=
  ⟨sharpText, fitsVarchar_sharpText, by rw [toList_sharpText]; decide +kernel⟩

theorem sharpName_long : 255 < slugLength germanAlphabet sharpName.val := by
  have hval : sharpName.val = sharpText := rfl
  rw [hval, slugLength, slugWords, unaccented, toList_sharpText]
  decide +kernel

/-- The name passes validation, and the database refuses its slug. -/
theorem sharp_name_fails : validateName germanAlphabet sharpText = .ok sharpName ∧
    createNamed germanAlphabet demoEnv .empty sharpName 1 = .error (.unhandled .dataError) :=
  ⟨validateName_val sharpName, createNamed_dataError sharpName_long 1⟩

end ArgusSbomGuard
