import ArgusSbomGuard.Sbom.Upload
import ArgusSbomGuard.Scan.Grype

/-!
# Which documents are stored

The functions of `services/sbom_parser.py` walk a document of unknown shape; a value that is not
shaped as expected raises, and so does one that does not fit its column.  This file says which
documents go through.  The readings below follow the shape of a document and raise nothing.

## Main definitions

* `Json.fieldD`, `Json.orEmpty`, `Json.Elements` : fields and lists of a value.
* `DocumentHas` : the entries that become dependencies satisfy given conditions.
* `ComponentShape`, `ComponentFits`, `PackageFits` : what is asked of an entry.
* `Accepted` : the document is stored, or is stored already; it is the condition for `store_sbom`
  to return (`storeSbom_isOk_iff`).
-/

namespace ArgusSbomGuard

namespace Json

def isObject : Json → Bool
  | .obj _ => true
  | _ => false

/-- The value of a field, `d` when there is none. -/
def fieldD (j : Json) (k : String) (d : Json) : Json :=
  match j with
  | .obj kvs => (kvs.lookup k).getD d
  | _ => d

/-- `j.get(k) or {}`. -/
def orEmpty (j : Json) (k : String) : Json := (j.field k).pyOr (.obj [])

/-- The value can be iterated over, and everything in it satisfies `p`. -/
def Elements (p : Json → Prop) (j : Json) : Prop := ∃ xs, j.iter = .ok xs ∧ ∀ x ∈ xs, p x

/-- The value can be written to a nullable `varchar(n)` column. -/
def FitsOptional (env : Env) (n : ℕ) : Json → Prop
  | .null => True
  | .str s => env.writes n s = true
  | _ => False

/-- The value can be written to a `varchar(n) NOT NULL` column. -/
def FitsRequired (env : Env) (n : ℕ) : Json → Prop
  | .str s => env.writes n s = true
  | _ => False

/-- The value can be written to a JSON column. -/
def FitsColumn (env : Env) (j : Json) : Prop :=
  j.storable = true ∧ j.depth ≤ env.columnDepth

theorem get_eq_ok_iff {j v d : Json} {k : String} :
    j.get k d = .ok v ↔ j.isObject = true ∧ j.fieldD k d = v := by
  cases j with
  | obj kvs => exact ⟨fun h => ⟨rfl, Except.ok.inj h⟩, fun h => congrArg Except.ok h.2⟩
  | _ => exact ⟨nofun, fun h => nomatch h.1⟩

@[simp] theorem fieldD_null {j : Json} {k : String} : j.fieldD k .null = j.field k := by
  cases j <;> rfl

end Json

variable {env : Env}

theorem varcharParam_isOk {n : ℕ} {j : Json} :
    (∃ v, env.varcharParam n j = .ok v) ↔ j.FitsOptional env n := by
  cases j with
  | null => exact ⟨fun _ => trivial, fun _ => ⟨_, rfl⟩⟩
  | str s =>
    simp only [Env.varcharParam, Json.FitsOptional, map_eq_ok, ← env.varchar_isOk]
    constructor
    · rintro ⟨_, t, ht, -⟩
      exact ⟨t, ht⟩
    · rintro ⟨t, ht⟩
      exact ⟨_, t, ht, rfl⟩
  | _ => exact iff_of_false not_isOk_error not_false

theorem varcharParamNotNull_isOk {n : ℕ} {j : Json} :
    (∃ v, env.varcharParamNotNull n j = .ok v) ↔ j.FitsRequired env n := by
  cases j with
  | str s => exact env.varchar_isOk
  | _ => exact iff_of_false not_isOk_error not_false

/-! ### The component of a document -/

/-- `metadata.component`, where a missing or falsy value counts as an empty object. -/
def documentComponent (raw : Json) : Json := (raw.orEmpty "metadata").orEmpty "component"

/-- Both levels are objects. -/
def HasComponent (raw : Json) : Prop :=
  (raw.orEmpty "metadata").isObject = true ∧ (documentComponent raw).isObject = true

/-- A text of the component, stripped; `none` when it is no text or blank. -/
def componentText (field : String) (raw : Json) : Option String :=
  match (documentComponent raw).field field with
  | .str s => if PyStr.strip s = "" then none else some (PyStr.strip s)
  | _ => none

theorem extractComponentText_eq_ok {field : String} {raw : Json} {text : Option String} :
    extractComponentText field raw = .ok text ↔
      raw.isObject = true ∧ HasComponent raw ∧ componentText field raw = text := by
  have hlast : ∀ component : Json, (do
      match ← component.get field .null with
      | .str s => return if PyStr.strip s = "" then none else some (PyStr.strip s)
      | _ => return none : Except PyError (Option String)) = .ok text ↔
      component.isObject = true ∧ (match component.field field with
        | .str s => if PyStr.strip s = "" then none else some (PyStr.strip s)
        | _ => none) = text := by
    intro component
    simp only [bind_eq_ok, Json.get_eq_ok_iff, Json.fieldD_null]
    constructor
    · rintro ⟨v, ⟨hobj, rfl⟩, h⟩
      refine ⟨hobj, ?_⟩
      split at h <;> exact Except.ok.inj h
    · rintro ⟨hobj, rfl⟩
      refine ⟨_, ⟨hobj, rfl⟩, ?_⟩
      split <;> rfl
  simp only [extractComponentText]
  rw [bind_eq_ok]
  constructor
  · rintro ⟨metadata, hmeta, h⟩
    obtain ⟨hraw, rfl⟩ := Json.get_eq_ok_iff.1 hmeta
    obtain ⟨component, hcomp, h⟩ := bind_eq_ok.1 h
    obtain ⟨hmetadata, rfl⟩ := Json.get_eq_ok_iff.1 hcomp
    rw [Json.fieldD_null, Json.fieldD_null] at h
    rw [Json.fieldD_null] at hmetadata
    obtain ⟨hcomponent, htext⟩ := (hlast _).1 h
    exact ⟨hraw, ⟨hmetadata, hcomponent⟩, htext⟩
  · rintro ⟨hraw, ⟨hmetadata, hcomponent⟩, htext⟩
    refine ⟨_, Json.get_eq_ok_iff.2 ⟨hraw, rfl⟩, bind_eq_ok.2 ⟨_, Json.get_eq_ok_iff.2
      ⟨by rw [Json.fieldD_null]; exact hmetadata, rfl⟩, ?_⟩⟩
    rw [Json.fieldD_null, Json.fieldD_null]
    exact (hlast _).2 ⟨hcomponent, htext⟩

/-! ### The entries of a document -/

/-- The first license entry that has a license names it by an object, and `p` holds of its id; `p`
holds of the empty text when there is none. -/
def LicensesHave (p : Json → Prop) : List Json → Prop
  | [] => p (.str "")
  | .obj kvs :: rest => match kvs.lookup "license" with
    | some license => license.isObject = true ∧ p (license.fieldD "id" (.str ""))
    | none => LicensesHave p rest
  -- a list has no item "license", and neither has a text
  | .arr xs :: rest => (∀ x ∈ xs, x.isStr "license" = false) ∧ LicensesHave p rest
  | .str s :: rest => ¬ "license".toList <:+: s.toList ∧ LicensesHave p rest
  | _ :: _ => False

theorem any_key_iff {kvs : List (String × Json)} {k : String} :
    (kvs.any fun kv => kv.1 == k) = (kvs.lookup k).isSome := by
  induction kvs with
  | nil => rfl
  | cons kv kvs ih =>
    obtain ⟨k', v⟩ := kv
    rw [List.any_cons, List.lookup_cons, ih]
    by_cases hk : k' = k
    · simp [hk]
    · simp [hk, beq_eq_false_iff_ne.2 (Ne.symm hk)]

theorem findLicense_isOk {p : Json → Prop} {licenses : List Json} :
    (∃ license, findLicense licenses = .ok license ∧ p license) ↔ LicensesHave p licenses := by
  induction licenses with
  | nil =>
    constructor
    · rintro ⟨_, ⟨⟩, hp⟩
      exact hp
    · exact fun hp => ⟨_, rfl, hp⟩
  | cons entry licenses ih =>
    cases entry with
    | obj kvs =>
      simp only [findLicense, LicensesHave, Json.hasKey, Json.item, any_key_iff]
      cases kvs.lookup "license" with
      | none => exact ih
      | some license =>
        change (∃ v, license.get "id" (.str "") = .ok v ∧ p v) ↔ _
        simp only [Json.get_eq_ok_iff]
        constructor
        · rintro ⟨v, ⟨ho, rfl⟩, hp⟩
          exact ⟨ho, hp⟩
        · rintro ⟨ho, hp⟩
          exact ⟨_, ⟨ho, rfl⟩, hp⟩
    | arr xs =>
      simp only [findLicense, LicensesHave, Json.hasKey]
      by_cases hany : xs.any fun x => x.isStr "license"
      · have hnot : ¬ ∀ x ∈ xs, x.isStr "license" = false := by
          obtain ⟨x, hx, hstr⟩ := List.any_eq_true.1 hany
          exact fun h => by rw [h x hx] at hstr; cases hstr
        rw [hany]
        exact iff_of_false not_isOk_error_and fun h => hnot h.1
      · have hnone : ∀ x ∈ xs, x.isStr "license" = false := by simpa using hany
        rw [Bool.not_eq_true] at hany
        rw [hany]
        exact ih.trans ⟨fun h => ⟨hnone, h⟩, fun h => h.2⟩
    | str s =>
      simp only [findLicense, LicensesHave, Json.hasKey]
      by_cases hsub : "license".toList <:+: s.toList
      · rw [decide_eq_true hsub]
        exact iff_of_false not_isOk_error_and fun h => h.1 hsub
      · rw [decide_eq_false hsub]
        exact ih.trans ⟨fun h => ⟨hsub, h⟩, fun h => h.2⟩
    | null => exact iff_of_false not_isOk_error_and not_false
    | bool b => exact iff_of_false not_isOk_error_and not_false
    | int n => exact iff_of_false not_isOk_error_and not_false
    | float x => exact iff_of_false not_isOk_error_and not_false

/-- The licenses of a component; `p` holds of the text that `_extract_license` takes. -/
def ComponentLicense (p : Json → Prop) (c : Json) : Prop :=
  ∃ licenses, (c.fieldD "licenses" (.arr [])).iter = .ok licenses ∧ LicensesHave p licenses

theorem extractLicense_isOk {p : Json → Prop} {c : Json} :
    (∃ license, extractLicense c = .ok license ∧ p license) ↔
      c.isObject = true ∧ ComponentLicense p c := by
  constructor
  · rintro ⟨license, h, hp⟩
    obtain ⟨v, hget, h⟩ := bind_eq_ok.1 h
    obtain ⟨hobj, rfl⟩ := Json.get_eq_ok_iff.1 hget
    obtain ⟨licenses, hiter, h⟩ := bind_eq_ok.1 h
    exact ⟨hobj, licenses, hiter, findLicense_isOk.1 ⟨license, h, hp⟩⟩
  · rintro ⟨hobj, licenses, hiter, hp⟩
    obtain ⟨license, h, hp⟩ := findLicense_isOk.2 hp
    exact ⟨license, bind_eq_ok.2 ⟨_, Json.get_eq_ok_iff.2 ⟨hobj, rfl⟩,
      bind_eq_ok.2 ⟨licenses, hiter, h⟩⟩, hp⟩

/-- The body of the loop of `parse_cyclonedx`. -/
def componentDependency (component : Json) : Except PyError DependencyData := do
  return {
    purl := ← component.get "purl" (.str "")
    name := ← component.get "name" (.str "")
    version := ← component.get "version" (.str "")
    depType := ← component.get "type" (.str "library")
    license := ← extractLicense component
    isDirect := true
    extraData := component }

/-- The body of the loop of `parse_spdx`. -/
def packageDependency (package : Json) : Except PyError DependencyData := do
  return {
    name := ← package.get "name" (.str "")
    version := ← package.get "versionInfo" (.str "")
    purl := .str ""
    depType := .str "library"
    license := ← package.get "licenseDeclared" (.str "")
    isDirect := true
    extraData := package }

/-- The values of the entry fit the columns of `dependencies`. -/
structure DependencyData.Fits (env : Env) (d : DependencyData) : Prop where
  name : d.name.FitsRequired env 512
  version : d.version.FitsRequired env 255
  purl : d.purl.FitsOptional env 1024
  depType : d.depType.FitsOptional env 50
  license : d.license.FitsOptional env 255

/-- A component that `parse_cyclonedx` can read. -/
structure ComponentShape (c : Json) : Prop where
  object : c.isObject = true
  license : ComponentLicense (fun _ => True) c

/-- A component whose values fit the columns of `dependencies`. -/
structure ComponentFits (env : Env) (c : Json) : Prop where
  object : c.isObject = true
  name : (c.fieldD "name" (.str "")).FitsRequired env 512
  version : (c.fieldD "version" (.str "")).FitsRequired env 255
  purl : (c.fieldD "purl" (.str "")).FitsOptional env 1024
  depType : (c.fieldD "type" (.str "library")).FitsOptional env 50
  license : ComponentLicense (·.FitsOptional env 255) c

/-- A package whose values fit the columns of `dependencies`. -/
structure PackageFits (env : Env) (p : Json) : Prop where
  object : p.isObject = true
  name : (p.fieldD "name" (.str "")).FitsRequired env 512
  version : (p.fieldD "versionInfo" (.str "")).FitsRequired env 255
  license : (p.fieldD "licenseDeclared" (.str "")).FitsOptional env 255

theorem componentDependency_eq_ok {c : Json} {d : DependencyData} :
    componentDependency c = .ok d ↔ c.isObject = true ∧ ∃ license, extractLicense c = .ok license ∧
      d = ⟨c.fieldD "name" (.str ""), c.fieldD "version" (.str ""), c.fieldD "purl" (.str ""),
        c.fieldD "type" (.str "library"), license, true, c⟩ := by
  simp only [componentDependency, bind_eq_ok, Json.get_eq_ok_iff]
  constructor
  · rintro ⟨_, ⟨hobj, rfl⟩, _, ⟨-, rfl⟩, _, ⟨-, rfl⟩, _, ⟨-, rfl⟩, license, hlicense, h⟩
    exact ⟨hobj, license, hlicense, (Except.ok.inj h).symm⟩
  · rintro ⟨hobj, license, hlicense, rfl⟩
    exact ⟨_, ⟨hobj, rfl⟩, _, ⟨hobj, rfl⟩, _, ⟨hobj, rfl⟩, _, ⟨hobj, rfl⟩, license, hlicense, rfl⟩

theorem componentDependency_isOk {c : Json} :
    (∃ d, componentDependency c = .ok d) ↔ ComponentShape c := by
  simp only [componentDependency_eq_ok]
  constructor
  · rintro ⟨d, hobj, license, hlicense, -⟩
    exact ⟨hobj, (extractLicense_isOk.1 ⟨license, hlicense, trivial⟩).2⟩
  · rintro ⟨hobj, hlicense⟩
    obtain ⟨license, h, -⟩ := extractLicense_isOk.2 ⟨hobj, hlicense⟩
    exact ⟨_, hobj, license, h, rfl⟩

theorem componentDependency_fits {c : Json} :
    (∃ d, componentDependency c = .ok d ∧ d.Fits env ∧ d.extraData.FitsColumn env) ↔
      ComponentFits env c ∧ c.FitsColumn env := by
  simp only [componentDependency_eq_ok]
  constructor
  · rintro ⟨d, ⟨hobj, license, hlicense, rfl⟩, hfits, hcolumn⟩
    exact ⟨⟨hobj, hfits.name, hfits.version, hfits.purl, hfits.depType,
      (extractLicense_isOk.1 ⟨license, hlicense, hfits.license⟩).2⟩, hcolumn⟩
  · rintro ⟨h, hcolumn⟩
    obtain ⟨license, hlicense, hfits⟩ := extractLicense_isOk.2 ⟨h.object, h.license⟩
    exact ⟨_, ⟨h.object, license, hlicense, rfl⟩, ⟨h.name, h.version, h.purl, h.depType, hfits⟩,
      hcolumn⟩

theorem packageDependency_eq_ok {p : Json} {d : DependencyData} :
    packageDependency p = .ok d ↔ p.isObject = true ∧
      d = ⟨p.fieldD "name" (.str ""), p.fieldD "versionInfo" (.str ""), .str "", .str "library",
        p.fieldD "licenseDeclared" (.str ""), true, p⟩ := by
  simp only [packageDependency, bind_eq_ok, Json.get_eq_ok_iff]
  constructor
  · rintro ⟨_, ⟨hobj, rfl⟩, _, ⟨-, rfl⟩, _, ⟨-, rfl⟩, h⟩
    exact ⟨hobj, (Except.ok.inj h).symm⟩
  · rintro ⟨hobj, rfl⟩
    exact ⟨_, ⟨hobj, rfl⟩, _, ⟨hobj, rfl⟩, _, ⟨hobj, rfl⟩, rfl⟩

theorem packageDependency_isOk {p : Json} :
    (∃ d, packageDependency p = .ok d) ↔ p.isObject = true := by
  simp only [packageDependency_eq_ok, exists_and_left, exists_eq, and_true]

theorem packageDependency_fits {p : Json} :
    (∃ d, packageDependency p = .ok d ∧ d.Fits env ∧ d.extraData.FitsColumn env) ↔
      PackageFits env p ∧ p.FitsColumn env := by
  simp only [packageDependency_eq_ok]
  constructor
  · rintro ⟨d, ⟨hobj, rfl⟩, hfits, hcolumn⟩
    exact ⟨⟨hobj, hfits.name, hfits.version, hfits.license⟩, hcolumn⟩
  · rintro ⟨h, hcolumn⟩
    have hempty : env.writes 1024 "" = true := by
      rw [Env.writes, env.sends_of_lt (by simp)]
      decide
    have hlibrary : env.writes 50 "library" = true := by
      rw [Env.writes, env.sends_of_lt (by simp)]
      decide
    exact ⟨_, ⟨h.object, rfl⟩, ⟨h.name, h.version, hempty, hlibrary, h.license⟩, hcolumn⟩

/-! ### Documents -/

/-- The entries that `store_sbom` makes dependencies of are as asked. -/
structure DocumentHas (component package : Json → Prop) (raw : Json) : Prop where
  object : raw.isObject = true
  entries : ∃ fmt, raw.fieldD "bomFormat" (.str "") = .str fmt ∧
    if PyStr.lower fmt = "cyclonedx" then
      (raw.fieldD "components" (.arr [])).Elements component
    else if (raw.field "spdxVersion").truthy then
      (raw.fieldD "packages" (.arr [])).Elements package
    else True

theorem parseEntries_isOk {f : Json → Except PyError DependencyData} {q : DependencyData → Prop}
    {p : Json → Prop} (hf : ∀ x, (∃ d, f x = .ok d ∧ q d) ↔ p x) {raw : Json} {k : String}
    (hraw : raw.isObject = true) :
    (∃ ds, (do (← (← raw.get k (.arr [])).iter).mapM f) = .ok ds ∧ ∀ d ∈ ds, q d) ↔
      (raw.fieldD k (.arr [])).Elements p := by
  simp only [bind_eq_ok, Json.get_eq_ok_iff, Json.Elements, ← hf, ← mapM_isOk]
  constructor
  · rintro ⟨ds, ⟨_, ⟨-, rfl⟩, xs, hxs, hds⟩, hq⟩
    exact ⟨xs, hxs, ds, hds, hq⟩
  · rintro ⟨xs, hxs, ds, hds, hq⟩
    exact ⟨ds, ⟨_, ⟨hraw, rfl⟩, xs, hxs, hds⟩, hq⟩

/-- **Which documents can be read.** -/
theorem parseDocument_isOk {q : DependencyData → Prop} {component package : Json → Prop}
    (hcomponent : ∀ c, (∃ d, componentDependency c = .ok d ∧ q d) ↔ component c)
    (hpackage : ∀ p, (∃ d, packageDependency p = .ok d ∧ q d) ↔ package p) {raw : Json} :
    (∃ r, parseDocument raw = .ok r ∧ ∀ d ∈ r.2, q d) ↔ DocumentHas component package raw := by
  constructor
  · rintro ⟨r, h, hq⟩
    obtain ⟨fmt, hget, h⟩ := bind_eq_ok.1 h
    obtain ⟨hraw, hfmt⟩ := Json.get_eq_ok_iff.1 hget
    refine ⟨hraw, ?_⟩
    split at h
    · rename_i fmt
      refine ⟨fmt, hfmt, ?_⟩
      split_ifs at h ⊢ with hcyclonedx
      · obtain ⟨ds, hds, h⟩ := bind_eq_ok.1 h
        obtain rfl := Except.ok.inj h
        exact (parseEntries_isOk hcomponent hraw).1 ⟨ds, hds, hq⟩
      · obtain ⟨spdx, hspdx, h⟩ := bind_eq_ok.1 h
        obtain ⟨-, rfl⟩ := Json.get_eq_ok_iff.1 hspdx
        rw [Json.fieldD_null] at h
        split_ifs at h ⊢
        obtain ⟨ds, hds, h⟩ := bind_eq_ok.1 h
        obtain rfl := Except.ok.inj h
        exact (parseEntries_isOk hpackage hraw).1 ⟨ds, hds, hq⟩
    · cases h
  · rintro ⟨hraw, fmt, hfmt, h⟩
    have hget := Json.get_eq_ok_iff.2 ⟨hraw, hfmt⟩
    have hspdx := Json.get_eq_ok_iff.2 ⟨hraw, (rfl : raw.fieldD "spdxVersion" .null = _)⟩
    rw [Json.fieldD_null] at hspdx
    simp only [parseDocument, bind_eq_ok]
    split_ifs at h with hcyclonedx htruthy
    · obtain ⟨ds, hds, hq⟩ := (parseEntries_isOk hcomponent hraw).2 h
      refine ⟨(some .CYCLONEDX, ds), ⟨_, hget, ?_⟩, hq⟩
      simp only [if_pos hcyclonedx]
      exact bind_eq_ok.2 ⟨ds, hds, rfl⟩
    · obtain ⟨ds, hds, hq⟩ := (parseEntries_isOk hpackage hraw).2 h
      refine ⟨(some .SPDX, ds), ⟨_, hget, ?_⟩, hq⟩
      simp only [if_neg hcyclonedx]
      refine bind_eq_ok.2 ⟨_, hspdx, ?_⟩
      rw [if_pos htruthy]
      exact bind_eq_ok.2 ⟨ds, hds, rfl⟩
    · refine ⟨(none, []), ⟨_, hget, ?_⟩, fun _ hd => absurd hd List.not_mem_nil⟩
      simp only [if_neg hcyclonedx]
      refine bind_eq_ok.2 ⟨_, hspdx, ?_⟩
      rw [if_neg htruthy]
      rfl

/-! ### Values that can be stored -/

theorem storable_of_mem {xs : List Json} (h : Json.storableList xs = true) {x : Json}
    (hx : x ∈ xs) : x.storable = true := by
  induction xs with
  | nil => cases hx
  | cons y ys ih =>
    rw [Json.storableList, Bool.and_eq_true] at h
    rcases List.mem_cons.1 hx with rfl | hx
    · exact h.1
    · exact ih h.2 hx

theorem storable_of_lookup {kvs : List (String × Json)} (h : Json.storableFields kvs = true)
    {k : String} {v : Json} (hv : kvs.lookup k = some v) : v.storable = true := by
  induction kvs with
  | nil => cases hv
  | cons kv kvs ih =>
    obtain ⟨k', v'⟩ := kv
    rw [Json.storableFields, Bool.and_eq_true] at h
    rw [List.lookup_cons] at hv
    split at hv
    · exact Option.some.inj hv ▸ h.1
    · exact ih h.2 hv

theorem storable_fieldD {j d : Json} {k : String} (h : j.storable = true)
    (hd : d.storable = true) : (j.fieldD k d).storable = true := by
  cases j with
  | obj kvs =>
    change ((kvs.lookup k).getD d).storable = true
    cases hv : kvs.lookup k with
    | none => exact hd
    | some v => exact storable_of_lookup h hv
  | _ => exact hd

/-- What is in a value that can be stored can be stored. -/
theorem storable_iter {j : Json} (h : j.storable = true) {xs : List Json}
    (hxs : j.iter = .ok xs) {x : Json} (hx : x ∈ xs) : x.storable = true := by
  cases j with
  | arr ys => exact storable_of_mem h (Except.ok.inj hxs ▸ hx)
  | obj kvs =>
    obtain rfl := Except.ok.inj hxs
    obtain ⟨kv, -, rfl⟩ := List.mem_map.1 hx
    rfl
  | str s =>
    obtain rfl := Except.ok.inj hxs
    obtain ⟨c, -, rfl⟩ := List.mem_map.1 hx
    rfl
  | null => cases hxs
  | bool b => cases hxs
  | int n => cases hxs
  | float y => cases hxs

theorem depth_le_of_mem {xs : List Json} {x : Json} (hx : x ∈ xs) :
    x.depth ≤ Json.nestingList 0 xs := by
  induction xs with
  | nil => cases hx
  | cons y ys ih =>
    rw [Json.nestingList]
    rcases List.mem_cons.1 hx with rfl | hx
    · exact le_max_left _ _
    · exact (ih hx).trans (le_max_right _ _)

theorem depth_le_of_lookup {kvs : List (String × Json)} {k : String} {v : Json}
    (hv : kvs.lookup k = some v) : v.depth ≤ Json.nestingFields 0 kvs := by
  induction kvs with
  | nil => cases hv
  | cons kv kvs ih =>
    obtain ⟨k', v'⟩ := kv
    rw [Json.nestingFields]
    rw [List.lookup_cons] at hv
    split at hv
    · exact Option.some.inj hv ▸ le_max_left _ _
    · exact (ih hv).trans (le_max_right _ _)

/-- A value is nested at least as deep as what is in it. -/
theorem depth_iter_le {j : Json} {xs : List Json} (hxs : j.iter = .ok xs) {x : Json}
    (hx : x ∈ xs) : x.depth ≤ j.depth := by
  cases j with
  | arr ys => exact (depth_le_of_mem (Except.ok.inj hxs ▸ hx)).trans (Nat.le_succ _)
  | obj kvs =>
    obtain rfl := Except.ok.inj hxs
    obtain ⟨kv, -, rfl⟩ := List.mem_map.1 hx
    exact Nat.zero_le _
  | str s =>
    obtain rfl := Except.ok.inj hxs
    obtain ⟨c, -, rfl⟩ := List.mem_map.1 hx
    exact Nat.zero_le _
  | null => cases hxs
  | bool b => cases hxs
  | int n => cases hxs
  | float y => cases hxs

/-- The entries of a document are nested at most as deep as the document. -/
theorem depth_entry_le {raw : Json} {k : String} {xs : List Json}
    (hxs : (raw.fieldD k (.arr [])).iter = .ok xs) {x : Json} (hx : x ∈ xs) :
    x.depth ≤ raw.depth := by
  have hnone : ∀ {ys}, (Json.arr []).iter = .ok ys → x ∉ ys := fun h =>
    Except.ok.inj h ▸ List.not_mem_nil
  cases raw with
  | obj kvs =>
    change ((kvs.lookup k).getD (.arr [])).iter = .ok xs at hxs
    cases hv : kvs.lookup k with
    | none =>
      rw [hv] at hxs
      exact absurd hx (hnone hxs)
    | some v =>
      rw [hv] at hxs
      exact ((depth_iter_le hxs hx).trans (depth_le_of_lookup hv)).trans (Nat.le_succ _)
  | _ => exact absurd hx (hnone hxs)

/-- The entries of a document that can be stored can be stored. -/
theorem DocumentHas.fitsColumn {component package : Json → Prop} {raw : Json}
    (h : DocumentHas component package raw) (hraw : raw.FitsColumn env) :
    DocumentHas (fun c => component c ∧ c.FitsColumn env)
      (fun p => package p ∧ p.FitsColumn env) raw := by
  have helements : ∀ k (p : Json → Prop), (raw.fieldD k (.arr [])).Elements p →
      (raw.fieldD k (.arr [])).Elements fun x => p x ∧ x.FitsColumn env := by
    rintro k p ⟨xs, hxs, hp⟩
    exact ⟨xs, hxs, fun x hx => ⟨hp x hx, storable_iter (storable_fieldD hraw.1 rfl) hxs hx,
      (depth_entry_le hxs hx).trans hraw.2⟩⟩
  obtain ⟨hobj, fmt, hfmt, hentries⟩ := h
  refine ⟨hobj, fmt, hfmt, ?_⟩
  split_ifs at hentries ⊢
  · exact helements _ _ hentries
  · exact helements _ _ hentries

theorem DocumentHas.mono {component component' package package' : Json → Prop} {raw : Json}
    (h : DocumentHas component package raw) (hc : ∀ c, component c → component' c)
    (hp : ∀ p, package p → package' p) : DocumentHas component' package' raw := by
  obtain ⟨hobj, fmt, hfmt, hentries⟩ := h
  refine ⟨hobj, fmt, hfmt, ?_⟩
  split_ifs at hentries ⊢
  · exact hentries.imp fun _ hxs => ⟨hxs.1, fun x hx => hc x (hxs.2 x hx)⟩
  · exact hentries.imp fun _ hxs => ⟨hxs.1, fun x hx => hp x (hxs.2 x hx)⟩

/-- The entries that become dependencies. -/
def documentEntries (raw : Json) : List Json :=
  match raw.fieldD "bomFormat" (.str "") with
  | .str fmt =>
    if PyStr.lower fmt = "cyclonedx" then
      (raw.fieldD "components" (.arr [])).iter.toOption.getD []
    else if (raw.field "spdxVersion").truthy then
      (raw.fieldD "packages" (.arr [])).iter.toOption.getD []
    else []
  | _ => []

theorem length_mapM {α β : Type} {f : α → Except PyError β} {xs : List α} {ys : List β}
    (h : xs.mapM f = .ok ys) : ys.length = xs.length := by
  induction xs generalizing ys with
  | nil =>
    obtain rfl := Except.ok.inj h
    rfl
  | cons x xs ih =>
    simp only [List.mapM_cons, bind_eq_ok] at h
    obtain ⟨y, -, ys', hys, h⟩ := h
    obtain rfl := Except.ok.inj h
    rw [List.length_cons, List.length_cons, ih hys]

/-- Each entry becomes one dependency. -/
theorem length_parseDocument {raw : Json} {r : Option SBOMFormat × List DependencyData}
    (h : parseDocument raw = .ok r) : r.2.length = (documentEntries raw).length := by
  have hlength : ∀ {f : Json → Except PyError DependencyData} {k ds},
      (do (← (← raw.get k (.arr [])).iter).mapM f) = .ok ds →
        ds.length = ((raw.fieldD k (.arr [])).iter.toOption.getD []).length := by
    intro f k ds h
    obtain ⟨v, hget, h⟩ := bind_eq_ok.1 h
    obtain ⟨-, rfl⟩ := Json.get_eq_ok_iff.1 hget
    obtain ⟨xs, hxs, h⟩ := bind_eq_ok.1 h
    rw [hxs, length_mapM h]
    rfl
  obtain ⟨fmt, hget, h⟩ := bind_eq_ok.1 h
  obtain ⟨-, rfl⟩ := Json.get_eq_ok_iff.1 hget
  unfold documentEntries
  cases hfmt : raw.fieldD "bomFormat" (.str "") with
  | str fmt =>
    rw [hfmt] at h
    dsimp only at h ⊢
    split_ifs at h ⊢ with hcyclonedx
    · obtain ⟨ds, hds, h⟩ := bind_eq_ok.1 h
      obtain rfl := Except.ok.inj h
      exact hlength hds
    all_goals
      obtain ⟨spdx, hspdx, h⟩ := bind_eq_ok.1 h
      obtain ⟨-, rfl⟩ := Json.get_eq_ok_iff.1 hspdx
      rw [Json.fieldD_null] at h
    · rw [if_pos ‹_›] at h
      obtain ⟨ds, hds, h⟩ := bind_eq_ok.1 h
      obtain rfl := Except.ok.inj h
      exact hlength hds
    · rw [if_neg ‹_›] at h
      obtain rfl := Except.ok.inj h
      rfl
  | _ =>
    rw [hfmt] at h
    cases h

/-- The timestamp of a document. -/
def documentTimestamp (raw : Json) : Json := (raw.orEmpty "metadata").field "timestamp"

variable (env : Env)

/-- A timestamp that is there is a text, and an instant of the years 1 to 9999 if it is one. -/
def TimestampFits (raw : Json) : Prop :=
  (documentTimestamp raw).truthy = true → ∃ s, documentTimestamp raw = .str s ∧
    ∀ t ∈ env.fromisoformat (PyStr.replaceChar s 'Z' "+00:00"),
      Date.start 1 ≤ t ∧ t < Date.start 3652060

/-- The version of a new SBOM. -/
def documentVersion (raw : Json) (version : Option String) : String :=
  (version.filter (· ≠ "")).getD ((componentText "version" raw).getD (env.sha256 raw))

/-- The name of the service of a new SBOM. -/
def documentService (raw : Json) (serviceName : Option String) : Option String :=
  serviceName.filter (· ≠ "") <|> componentText "name" raw

/-- The service of the name is there, or it can be inserted: the name that the column holds of a
longer one with spaces at its end is free. -/
def ServiceFits (db : Database) (projectId : Uuid) (name : String) : Prop :=
  env.sends name = true ∧
    ((∃ v ∈ db.services, v.projectId = projectId ∧ v.name = name) ∨
      (castsVarchar 255 name = true ∧
        ∀ v ∈ db.services, ¬ (v.projectId = projectId ∧ v.name = cutText 255 name)))

/-- A document whose values can be written to their columns. -/
structure Storable (db : Database) (projectId : Uuid) (raw : Json)
    (version serviceName : Option String) : Prop where
  component : HasComponent raw
  timestamp : TimestampFits env raw
  service : ∀ name ∈ documentService raw serviceName, ServiceFits env db projectId name
  version : env.writes 255 (documentVersion env raw version) = true
  column : raw.FitsColumn env
  entries : DocumentHas (ComponentFits env) (PackageFits env) raw
  count : fitsInteger (documentEntries raw).length = true

/-- The document can be read and hashed, and it is stored already or its values can be written to
their columns. -/
structure Accepted (db : Database) (projectId : Uuid) (raw : Json)
    (version serviceName : Option String) : Prop where
  shape : DocumentHas ComponentShape (·.isObject = true) raw
  hashed : raw.depth ≤ env.dumpsDepth
  versioned : (version.filter (· ≠ "")).isSome = true ∨ HasComponent raw
  stored : (∃ s ∈ db.sboms, s.sha256 = env.sha256 raw) ∨
    Storable env db projectId raw version serviceName

variable {env} {db db' : Database} {projectId : Uuid} {raw : Json}
  {version serviceName : Option String} {inp : StoreInput}

theorem chooseVersion_eq_ok {sha chosen : String} (hraw : raw.isObject = true) :
    chooseVersion version raw sha = .ok chosen ↔
      ((version.filter (· ≠ "")).isSome = true ∨ HasComponent raw) ∧
        (version.filter (· ≠ "")).getD ((componentText "version" raw).getD sha) = chosen := by
  unfold chooseVersion
  cases version.filter (· ≠ "") with
  | some v => simp
  | none =>
    simp only [extractComponentVersion, bind_eq_ok, extractComponentText_eq_ok, Option.isSome_none,
      Bool.false_eq_true, false_or, Option.getD_none]
    constructor
    · rintro ⟨_, ⟨-, hcomp, rfl⟩, h⟩
      exact ⟨hcomp, Except.ok.inj h⟩
    · rintro ⟨hcomp, rfl⟩
      exact ⟨_, ⟨hraw, hcomp, rfl⟩, rfl⟩

theorem timestamp_isOk (hraw : raw.isObject = true)
    (hmetadata : (raw.orEmpty "metadata").isObject = true) :
    (∃ t, (do timestampParam (← extractTimestamp env raw)) = .ok t) ↔ TimestampFits env raw := by
  have hmeta := Json.get_eq_ok_iff.2 ⟨hraw, (rfl : raw.fieldD "metadata" .null = _)⟩
  have hts := Json.get_eq_ok_iff.2 ⟨hmetadata, (rfl : (raw.orEmpty "metadata").fieldD
    "timestamp" .null = _)⟩
  rw [Json.fieldD_null] at hmeta hts
  have hextract : extractTimestamp env raw = (do
      if !(documentTimestamp raw).truthy then return none
      match documentTimestamp raw with
      | .str s => return env.fromisoformat (PyStr.replaceChar s 'Z' "+00:00")
      | _ => throw .attributeError) := by
    simp only [extractTimestamp, hmeta]
    change (raw.orEmpty "metadata").get "timestamp" .null >>= _ = _
    rw [hts]
    rfl
  rw [hextract, TimestampFits]
  cases htruthy : (documentTimestamp raw).truthy with
  | false => exact iff_of_true ⟨none, rfl⟩ fun h => absurd h Bool.false_ne_true
  | true =>
    cases hjson : documentTimestamp raw with
    | str s =>
      change (∃ t, timestampParam (env.fromisoformat _) = .ok t) ↔ _
      cases hiso : env.fromisoformat (PyStr.replaceChar s 'Z' "+00:00") with
      | none =>
        refine ⟨fun _ _ => ⟨s, rfl, fun t ht => ?_⟩, fun _ => ⟨none, rfl⟩⟩
        rw [hiso] at ht
        cases ht
      | some t =>
        simp only [timestampParam]
        constructor
        · rintro ⟨t', h⟩ -
          split_ifs at h with hrange
          refine ⟨s, rfl, fun t'' ht => ?_⟩
          rw [hiso] at ht
          exact Option.some.inj ht ▸ hrange
        · intro h
          obtain ⟨s', hs, hrange⟩ := h trivial
          obtain rfl := Json.str.inj hs
          exact ⟨some t, if_pos (hrange t hiso)⟩
    | _ =>
      constructor
      · rintro ⟨t, h⟩
        cases h
      · intro h
        obtain ⟨s, hs, -⟩ := h rfl
        cases hs

theorem bindDependency_isOk {i : Uuid} {d : DependencyData} :
    (∃ row, bindDependency env i d = .ok row) ↔
      d.Fits env ∧ d.extraData.depth ≤ env.columnDepth := by
  constructor
  · rintro ⟨row, h⟩
    simp only [bindDependency, bind_eq_ok] at h
    obtain ⟨name, hname, version, hversion, purl, hpurl, depType, hdepType, license, hlicense,
      extraData, hextra, -⟩ := h
    exact ⟨⟨varcharParamNotNull_isOk.1 ⟨name, hname⟩,
      varcharParamNotNull_isOk.1 ⟨version, hversion⟩, varcharParam_isOk.1 ⟨purl, hpurl⟩,
      varcharParam_isOk.1 ⟨depType, hdepType⟩, varcharParam_isOk.1 ⟨license, hlicense⟩⟩,
      ((env.jsonParam_eq_ok).1 hextra).1⟩
  · rintro ⟨⟨hname, hversion, hpurl, hdepType, hlicense⟩, hextra⟩
    obtain ⟨name, hname⟩ := varcharParamNotNull_isOk.2 hname
    obtain ⟨version, hversion⟩ := varcharParamNotNull_isOk.2 hversion
    obtain ⟨purl, hpurl⟩ := varcharParam_isOk.2 hpurl
    obtain ⟨depType, hdepType⟩ := varcharParam_isOk.2 hdepType
    obtain ⟨license, hlicense⟩ := varcharParam_isOk.2 hlicense
    refine ⟨⟨i, name, version, purl, depType, license, d.isDirect, d.extraData⟩, ?_⟩
    simp only [bindDependency, bind_eq_ok]
    exact ⟨name, hname, version, hversion, purl, hpurl, depType, hdepType, license, hlicense,
      d.extraData, (env.jsonParam_eq_ok).2 ⟨hextra, rfl⟩, rfl⟩

theorem bindDependency_eq_ok {i : Uuid} {d : DependencyData} {row : Dependency}
    (h : bindDependency env i d = .ok row) : row.sbomId = i ∧ row.extraData = d.extraData := by
  simp only [bindDependency, bind_eq_ok] at h
  obtain ⟨_, -, _, -, _, -, _, -, _, -, extraData, hextra, h⟩ := h
  obtain ⟨-, rfl⟩ := (env.jsonParam_eq_ok).1 hextra
  obtain rfl := Except.ok.inj h
  exact ⟨rfl, rfl⟩

theorem addDependencies_isOk {i : Uuid} {ds : List DependencyData}
    (hs : ∃ s ∈ db.sboms, s.id = i) : (∃ db', addDependencies env i db ds = .ok db') ↔
      ∀ d ∈ ds, d.Fits env ∧ d.extraData.FitsColumn env := by
  induction ds generalizing db with
  | nil => exact ⟨fun _ _ hd => absurd hd List.not_mem_nil, fun _ => ⟨db, rfl⟩⟩
  | cons d ds ih =>
    simp only [addDependencies, bind_eq_ok, List.forall_mem_cons]
    constructor
    · rintro ⟨db', row, hrow, db₁, hins, h⟩
      obtain ⟨hi, hextra⟩ := bindDependency_eq_ok hrow
      obtain ⟨hfits, hdepth⟩ := bindDependency_isOk.1 ⟨row, hrow⟩
      have hstorable := (Database.insertDependency_isOk.1 ⟨db₁, hins⟩).1
      obtain ⟨t, -, ht⟩ := Database.insertDependency_eq_ok hins
      have hs₁ : ∃ s ∈ db₁.sboms, s.id = i := by rwa [ht]
      exact ⟨⟨hfits, hextra ▸ hstorable, hdepth⟩, (ih hs₁).1 ⟨db', h⟩⟩
    · rintro ⟨⟨hfits, hstorable, hdepth⟩, hds⟩
      obtain ⟨row, hrow⟩ := bindDependency_isOk.2 ⟨hfits, hdepth⟩
      obtain ⟨hi, hextra⟩ := bindDependency_eq_ok hrow
      have hs' : ∃ s ∈ db.sboms, s.id = row.sbomId := by rwa [hi]
      obtain ⟨db₁, hins⟩ := Database.insertDependency_isOk.2 ⟨hextra.symm ▸ hstorable, hs'⟩
      obtain ⟨t, -, ht⟩ := Database.insertDependency_eq_ok hins
      have hs₁ : ∃ s ∈ db₁.sboms, s.id = i := by rwa [ht]
      obtain ⟨db', h⟩ := (ih hs₁).2 hds
      exact ⟨db', row, hrow, db₁, hins, h⟩

/-- The insert of a service that was not found. -/
theorem insertService_name_isOk {name : String} {newId : Uuid}
    (hproject : ∃ p ∈ db.projects, p.id = projectId) (hnew : ∀ v ∈ db.services, v.id ≠ newId)
    (hcasts : castsVarchar 255 name = true) :
    (∃ db', db.insertService ⟨newId, projectId, cutText 255 name⟩ = .ok db') ↔
      ∀ v ∈ db.services, ¬ (v.projectId = projectId ∧ v.name = cutText 255 name) := by
  rw [Database.insertService_isOk]
  constructor
  · exact fun h v hv hmatch => h.2.2 v hv (.inr hmatch)
  · intro hfree
    refine ⟨fitsVarchar_cutText hcasts, hproject, fun v hv hclash => ?_⟩
    exact hclash.elim (hnew v hv) (hfree v hv)

/-- A service is found or inserted when the name fits. -/
theorem getOrCreateService_isOk {name : String} {newId : Uuid}
    (hproject : ∃ p ∈ db.projects, p.id = projectId) (hnew : ∀ v ∈ db.services, v.id ≠ newId) :
    (∃ r, getOrCreateService env db projectId name newId = .ok r) ↔
      ServiceFits env db projectId name := by
  unfold getOrCreateService ServiceFits
  cases hsends : env.sends name with
  | false => exact iff_of_false not_isOk_error fun h => nomatch h.1
  | true =>
    rw [Bool.not_true, if_neg Bool.false_ne_true, and_iff_right rfl]
    split
    · rename_i v hfind
      obtain ⟨hv, hmatch⟩ := Table.mem_of_find? hfind
      rw [Bool.and_eq_true, beq_iff_eq, beq_iff_eq] at hmatch
      exact iff_of_true ⟨_, rfl⟩ (.inl ⟨v, hv, hmatch⟩)
    · rename_i hnone
      have hfree : ¬ ∃ v ∈ db.services, v.projectId = projectId ∧ v.name = name := by
        rintro ⟨v, hv, hmatch⟩
        have := Table.find?_eq_none.1 hnone v hv
        simp [hmatch.1, hmatch.2] at this
      rw [or_iff_right hfree]
      simp only [bind_eq_ok, env.varchar_eq_ok, Env.writes, hsends, Bool.true_and]
      constructor
      · rintro ⟨_, _, ⟨hcasts, rfl⟩, db', hins, -⟩
        exact ⟨hcasts, (insertService_name_isOk hproject hnew hcasts).1 ⟨db', hins⟩⟩
      · rintro ⟨hcasts, hcut⟩
        obtain ⟨db', hins⟩ := (insertService_name_isOk hproject hnew hcasts).2 hcut
        exact ⟨_, _, ⟨hcasts, rfl⟩, db', hins, rfl⟩

theorem chooseService_isOk {name : Option String} {newId : Uuid}
    (hproject : ∃ p ∈ db.projects, p.id = projectId) (hnew : ∀ v ∈ db.services, v.id ≠ newId) :
    (∃ r, chooseService env db projectId name newId = .ok r) ↔
      ∀ n ∈ name, ServiceFits env db projectId n := by
  cases name with
  | none => exact ⟨fun _ n hn => (nomatch hn), fun _ => ⟨_, rfl⟩⟩
  | some n =>
    simp only [Option.mem_some_iff, forall_eq', ← getOrCreateService_isOk hproject hnew,
      chooseService, bind_eq_ok]
    exact ⟨fun ⟨_, r, hr, _⟩ => ⟨r, hr⟩, fun ⟨r, hr⟩ => ⟨_, r, hr, rfl⟩⟩

theorem parseDocument_shape : (∃ r, parseDocument raw = .ok r) ↔
    DocumentHas ComponentShape (·.isObject = true) raw := by
  have h : (∃ r, parseDocument raw = .ok r ∧ ∀ d ∈ r.2, True) ↔
      DocumentHas ComponentShape (·.isObject = true) raw :=
    parseDocument_isOk (fun c => by simp only [and_true, componentDependency_isOk])
      fun p => by simp only [and_true, packageDependency_isOk]
  simpa only [implies_true, and_true] using h

theorem parseDocument_fits : (∃ r, parseDocument raw = .ok r ∧
    ∀ d ∈ r.2, d.Fits env ∧ d.extraData.FitsColumn env) ↔
      DocumentHas (fun c => ComponentFits env c ∧ c.FitsColumn env)
        (fun p => PackageFits env p ∧ p.FitsColumn env) raw :=
  parseDocument_isOk (fun _ => componentDependency_fits) fun _ => packageDependency_fits

/-- A document for which `store_sbom` returned. -/
theorem accepted_of_storeSbom (hproject : ∃ p ∈ db.projects, p.id = projectId)
    (hservice : ∀ v ∈ db.services, v.id ≠ inp.newServiceId) {sbom : SBOM}
    (h : storeSbom env db projectId raw version serviceName inp = .ok (db', sbom)) :
    Accepted env db projectId raw version serviceName := by
  simp only [storeSbom, bind_eq_ok, Prod.exists] at h
  obtain ⟨fmt, ds, hparse, sha, hsha, chosen, hchosen, h⟩ := h
  obtain ⟨hdumps, rfl⟩ := env.computeSha256_eq_ok.1 hsha
  have hread := parseDocument_shape.1 ⟨_, hparse⟩
  obtain ⟨hversioned, rfl⟩ := (chooseVersion_eq_ok hread.object).1 hchosen
  refine ⟨hread, hdumps, hversioned, ?_⟩
  split at h
  · rename_i existing hfind
    obtain ⟨hmem, hsame⟩ := Table.mem_of_find? hfind
    exact .inl ⟨existing, hmem, beq_iff_eq.1 hsame⟩
  · simp only [bind_eq_ok, Prod.exists] at h
    obtain ⟨autoService, hauto, db₁, service, hchoose, ts, hts, createdAt, hcreated, written,
      hwritten, _, hcolumn, db₂, hins, db₃, hdeps, -⟩ := h
    obtain ⟨-, hcomponent, rfl⟩ := extractComponentText_eq_ok.1 hauto
    obtain ⟨hdepth, rfl⟩ := env.jsonParam_eq_ok.1 hcolumn
    obtain ⟨⟨-, -, hstorable, hcount⟩, -, -⟩ := Database.insertSbom_isOk.1 ⟨db₂, hins⟩
    obtain ⟨t, ht, hframe⟩ := Database.insertSbom_eq_ok hins
    have hadded := (addDependencies_isOk (by
      rw [hframe]
      exact ⟨_, (Table.mem_insert? ht).2 (.inr rfl), rfl⟩)).1 ⟨db₃, hdeps⟩
    refine .inr ⟨hcomponent, ?_, ?_, (env.varchar_eq_ok.1 hwritten).1, ⟨hstorable, hdepth⟩, ?_, ?_⟩
    · exact (timestamp_isOk hread.object hcomponent.1).1
        ⟨createdAt, bind_eq_ok.2 ⟨ts, hts, hcreated⟩⟩
    · exact (chooseService_isOk hproject hservice).1 ⟨_, hchoose⟩
    · exact (parseDocument_fits.1 ⟨_, hparse, hadded⟩).mono (fun _ h => h.1) fun _ h => h.1
    · rw [← length_parseDocument hparse]
      exact hcount

/-- A document that is accepted is stored or found. -/
theorem storeSbom_of_accepted (hproject : ∃ p ∈ db.projects, p.id = projectId)
    (hsha : ∀ j, fitsVarchar 64 (env.sha256 j) = true)
    (hsbom : ∀ s ∈ db.sboms, s.id ≠ inp.newSbomId)
    (hservice : ∀ v ∈ db.services, v.id ≠ inp.newServiceId)
    (h : Accepted env db projectId raw version serviceName) :
    ∃ r, storeSbom env db projectId raw version serviceName inp = .ok r := by
  obtain ⟨hread, hdumps, hversioned, hstored⟩ := h
  have hhash := env.computeSha256_eq_ok.2 ⟨hdumps, (rfl : env.sha256 raw = _)⟩
  obtain ⟨⟨fmt, ds⟩, hparse⟩ := parseDocument_shape.2 hread
  have hchosen : chooseVersion version raw (env.sha256 raw) =
      .ok (documentVersion env raw version) :=
    (chooseVersion_eq_ok hread.object).2 ⟨hversioned, rfl⟩
  simp only [storeSbom, bind_eq_ok, Prod.exists]
  cases hfind : db.sboms.find? fun s => s.sha256 == env.sha256 raw with
  | some existing =>
    refine ⟨db, existing, fmt, ds, hparse, _, hhash, _, hchosen, ?_⟩
    rw [hfind]
    rfl
  | none =>
    have hfree : ∀ s ∈ db.sboms, s.sha256 ≠ env.sha256 raw := fun s hs =>
      beq_eq_false_iff_ne.1 (Table.find?_eq_none.1 hfind s hs)
    rcases hstored with ⟨s, hs, hash⟩ | hstorable
    · exact absurd hash (hfree s hs)
    have hauto : extractServiceName raw = .ok (componentText "name" raw) :=
      extractComponentText_eq_ok.2 ⟨hread.object, hstorable.component, rfl⟩
    obtain ⟨⟨db₁, service⟩, hchoose⟩ := (chooseService_isOk hproject hservice).2 hstorable.service
    obtain ⟨createdAt, hcreated⟩ :=
      (timestamp_isOk hread.object hstorable.component.1).2 hstorable.timestamp
    obtain ⟨ts, hts, hcreated⟩ := bind_eq_ok.1 hcreated
    obtain ⟨hframe, -, hservices⟩ := chooseService_eq_ok hchoose
    have hsboms : db₁.sboms = db.sboms := by rw [hframe]
    have hprojects : db₁.projects = db.projects := by rw [hframe]
    -- the insert of the row clashes with nothing
    let sbom : SBOM := {
      id := inp.newSbomId
      projectId
      version := some (cutText 255 (documentVersion env raw version))
      format := fmt
      rawSbom := raw
      sha256 := env.sha256 raw
      dependencyCount := some ds.length
      uploadedAt := inp.now
      createdAt := createdAt.getD inp.now
      serviceId := service.map (·.id) }
    obtain ⟨db₂, hins⟩ : ∃ db₂, db₁.insertSbom sbom = .ok db₂ := by
      refine Database.insertSbom_isOk.2 ⟨⟨?_, hsha raw, hstorable.column.1, ?_⟩,
        ⟨hprojects ▸ hproject, fun i hi => ?_⟩, fun s hs hclash => ?_⟩
      · exact fitsVarchar_cutText (Bool.and_eq_true_iff.1 hstorable.version).2
      · show fitsInteger ds.length = true
        rw [length_parseDocument hparse]
        exact hstorable.count
      · obtain ⟨v, hv, rfl⟩ := Option.map_eq_some_iff.1 hi
        exact ⟨v, (hservices v hv).1, rfl⟩
      · rw [hsboms] at hs
        exact hclash.elim (hsbom s hs) (hfree s hs)
    obtain ⟨t, ht, hframe₂⟩ := Database.insertSbom_eq_ok hins
    have hmem : ∃ s ∈ db₂.sboms, s.id = sbom.id := by
      rw [hframe₂]
      exact ⟨sbom, (Table.mem_insert? ht).2 (.inr rfl), rfl⟩
    obtain ⟨r, hparse', hfits⟩ := parseDocument_fits.2
      (hstorable.entries.fitsColumn hstorable.column)
    obtain rfl := Except.ok.inj (hparse.symm.trans hparse')
    obtain ⟨db₃, hdeps⟩ := (addDependencies_isOk hmem).2 hfits
    have hwritten := env.varchar_eq_ok.2 ⟨hstorable.version, rfl⟩
    have hcolumn := env.jsonParam_eq_ok.2 ⟨hstorable.column.2, (rfl : raw = _)⟩
    refine ⟨db₃, sbom, fmt, ds, hparse, _, hhash, _, hchosen, ?_⟩
    simp only [hfind, bind_eq_ok, Prod.exists]
    exact ⟨_, hauto, db₁, service, hchoose, ts, hts, createdAt, hcreated, _, hwritten, _, hcolumn,
      db₂, hins, db₃, hdeps, rfl⟩

/-- **When a document is stored or found.**  With new identifiers and hashes of 64 characters
`store_sbom` returns for a project exactly when the document is accepted. -/
theorem storeSbom_isOk_iff (hproject : ∃ p ∈ db.projects, p.id = projectId)
    (hsha : ∀ j, fitsVarchar 64 (env.sha256 j) = true)
    (hsbom : ∀ s ∈ db.sboms, s.id ≠ inp.newSbomId)
    (hservice : ∀ v ∈ db.services, v.id ≠ inp.newServiceId) :
    (∃ r, storeSbom env db projectId raw version serviceName inp = .ok r) ↔
      Accepted env db projectId raw version serviceName :=
  ⟨fun ⟨_, h⟩ => accepted_of_storeSbom hproject hservice h,
    storeSbom_of_accepted hproject hsha hsbom hservice⟩

end ArgusSbomGuard
