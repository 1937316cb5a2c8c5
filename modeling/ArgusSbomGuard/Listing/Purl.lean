import ArgusSbomGuard.Alerts.Deliver
import ArgusSbomGuard.Python.Split

/-!
# Names of packages

A package is known by its package URL.  The alerts show the name in it, which `_package_names` of
`services/alerting.py` cuts out, and the pages the name and the version, by `dep_name` of
`api/pages/common.py`.  Both look for the last slash first, although qualifiers and a subpath may
have slashes too.  They agree on the package of the URL exactly when what they find there is its
name and version (`names_package_iff`).

## Main definitions

* `depName` : what the pages show; `packageNames` is what the alerts show.
* `Purl`, `Purl.text` : a package URL, and how it is written.
* `NamesPackage` : both functions find the package.
* `EndsWithPackage` : the condition.
-/

namespace ArgusSbomGuard

/-! ### What the pages show -/

/-- The part of a package URL that `dep_name` looks at; a text without a slash is looked at as a
whole. -/
def lastPart (purl : String) : List Char :=
  if '/' ∈ purl.toList then beforeFirst '?' (afterLast '/' purl.toList) else purl.toList

/-- `dep_name`. -/
def depName (name version purl : Option String) : String :=
  match name.filter (· ≠ ""), version.filter (· ≠ ""), purl.filter (· ≠ "") with
  | some name, some version, _ => name ++ " " ++ version
  | some name, none, _ => name
  | none, _, some purl =>
    match splitFirst '@' (lastPart purl) with
    | some (pkg, ver) => String.ofList pkg ++ " " ++ String.ofList ver
    | none => String.ofList (lastPart purl)
  | none, _, none => "-"

/-! ### Package URLs -/

/-- None of the characters is in the text. -/
def Without (seps : List Char) (s : String) : Prop := ∀ c ∈ seps, c ∉ s.toList

instance (seps : List Char) (s : String) : Decidable (Without seps s) :=
  List.decidableBAll (fun c => c ∉ s.toList) seps

/-- `pkg:type/(namespace/)*name@version?qualifiers#subpath`, with everything after the name
optional.  The parts have none of the characters that end them; qualifiers and subpath may have
slashes and at signs. -/
structure Purl where
  type : String
  namespaces : List String
  name : String
  version : Option String
  qualifiers : Option String
  subpath : Option String
  typeWithout : Without ['/', '@', '?', '#'] type
  namespacesWithout : ∀ n ∈ namespaces, Without ['/', '?', '#'] n
  nameNonempty : name ≠ ""
  nameWithout : Without ['/', '@', '?', '#'] name
  versionWithout : ∀ v ∈ version, Without ['/', '?', '#'] v
  qualifiersWithout : ∀ q ∈ qualifiers, Without ['?', '#'] q
  subpathWithout : ∀ s ∈ subpath, Without ['?', '#'] s

/-- A part that is there, after its mark. -/
def marked (mark : Char) (part : Option String) : List Char :=
  part.elim [] fun s => mark :: s.toList

namespace Purl

variable (p : Purl)

/-- What comes before the name. -/
def before : List Char :=
  "pkg:".toList ++ p.type.toList ++ '/' :: p.namespaces.flatMap fun n => n.toList ++ ['/']

/-- The name and the version, as they are written. -/
def package : List Char := p.name.toList ++ marked '@' p.version

/-- The qualifiers and the subpath, as they are written. -/
def rest : List Char := marked '?' p.qualifiers ++ marked '#' p.subpath

/-- The package URL. -/
def text : String := String.ofList (p.before ++ (p.package ++ p.rest))

/-- The name, followed by a space and the version if there is one. -/
def shown : String := p.name ++ p.version.elim "" fun v => " " ++ v

/-- Both functions find the package. -/
structure NamesPackage : Prop where
  alert : packageNames [p.text] = [p.name]
  page : depName none none (some p.text) = p.shown

instance : Decidable p.NamesPackage :=
  decidable_of_iff (packageNames [p.text] = [p.name] ∧ depName none none (some p.text) = p.shown)
    ⟨fun ⟨ha, hp⟩ => ⟨ha, hp⟩, fun h => ⟨h.alert, h.page⟩⟩

/-- No slash comes after the name and there is no subpath without qualifiers; or what comes after
the last slash happens to be the name and the version once more. -/
def EndsWithPackage : Prop :=
  if '/' ∈ p.rest then afterLast '/' p.rest = p.package
  else p.subpath.isSome → p.qualifiers.isSome

instance : Decidable p.EndsWithPackage :=
  inferInstanceAs (Decidable (ite _ _ _))

/-! ### What follows the last slash -/

variable {p}

theorem notMem_package {c : Char} (hc : c = '/' ∨ c = '?') : c ∉ p.package := by
  have hname : c ∉ p.name.toList := by
    rcases hc with rfl | rfl <;> exact p.nameWithout _ (by decide)
  have hversion : c ∉ marked '@' p.version := by
    cases hv : p.version with
    | none => exact List.not_mem_nil
    | some v =>
      refine List.not_mem_cons_of_ne_of_not_mem ?_ ?_
      · rcases hc with rfl | rfl <;> decide
      · rcases hc with rfl | rfl <;> exact p.versionWithout v hv _ (by decide)
  rw [package, List.mem_append, not_or]
  exact ⟨hname, hversion⟩

/-- The last character before the name is a slash. -/
theorem exists_before (p : Purl) : ∃ front, p.before = front ++ ['/'] := by
  unfold before
  rcases List.eq_nil_or_concat p.namespaces with h | ⟨init, n, h⟩
  · exact ⟨_, by rw [h, List.flatMap_nil]⟩
  · refine ⟨"pkg:".toList ++ p.type.toList ++
      '/' :: (init.flatMap (fun n => n.toList ++ ['/']) ++ n.toList), ?_⟩
    simp [h, List.flatMap_append]

theorem afterLast_text (p : Purl) : afterLast '/' p.text.toList =
    if '/' ∈ p.rest then afterLast '/' p.rest else p.package ++ p.rest := by
  rw [text, String.toList_ofList]
  split_ifs with hslash
  · rw [afterLast_append_of_mem (List.mem_append_right _ hslash), afterLast_append_of_mem hslash]
  · obtain ⟨front, hfront⟩ := exists_before p
    have hlast : '/' ∉ p.package ++ p.rest := by
      rw [List.mem_append, not_or]
      exact ⟨notMem_package (.inl rfl), hslash⟩
    rw [hfront, List.append_assoc, List.singleton_append]
    exact afterLast_append_cons hlast

/-- A question mark is the first character of the rest, or nowhere in it. -/
theorem notMem_rest : (p.qualifiers = none ∧ '?' ∉ p.rest) ∨
    ∃ tail, p.rest = '?' :: tail ∧ '?' ∉ tail := by
  have hsubpath : '?' ∉ marked '#' p.subpath := by
    cases hs : p.subpath with
    | none => exact List.not_mem_nil
    | some s =>
      exact List.not_mem_cons_of_ne_of_not_mem (by decide) (p.subpathWithout s hs _ (by decide))
  unfold rest
  cases hq : p.qualifiers with
  | none => exact .inl ⟨rfl, hsubpath⟩
  | some q =>
    refine .inr ⟨q.toList ++ marked '#' p.subpath, rfl, ?_⟩
    rw [List.mem_append, not_or]
    exact ⟨p.qualifiersWithout q hq _ (by decide), hsubpath⟩

theorem notMem_afterLast_rest (hslash : '/' ∈ p.rest) : '?' ∉ afterLast '/' p.rest := by
  rcases notMem_rest (p := p) with ⟨-, hno⟩ | ⟨tail, hrest, hno⟩
  · exact fun h => hno (mem_of_mem_afterLast h)
  · rw [hrest] at hslash ⊢
    have htail : '/' ∈ tail := (List.mem_cons.1 hslash).resolve_left (by decide)
    rw [← List.singleton_append, afterLast_append_of_mem htail]
    exact fun h => hno (mem_of_mem_afterLast h)

/-- The part that both functions look at is the name and the version under the condition. -/
theorem beforeFirst_afterLast_text (p : Purl) :
    beforeFirst '?' (afterLast '/' p.text.toList) = p.package ↔ p.EndsWithPackage := by
  rw [afterLast_text, EndsWithPackage]
  split_ifs with hslash
  · rw [beforeFirst_of_notMem (notMem_afterLast_rest hslash)]
  · rcases notMem_rest (p := p) with ⟨hnone, hno⟩ | ⟨tail, hrest, -⟩
    · have hall : '?' ∉ p.package ++ p.rest := by
        rw [List.mem_append, not_or]
        exact ⟨notMem_package (.inr rfl), hno⟩
      rw [beforeFirst_of_notMem hall, List.append_right_eq_self, hnone, rest, hnone]
      cases p.subpath with
      | none => exact iff_of_true rfl nofun
      | some s => exact iff_of_false nofun fun h => nomatch h rfl
    · refine iff_of_true ?_ fun _ => ?_
      · rw [hrest, beforeFirst_append_cons (notMem_package (.inr rfl))]
      · cases hq : p.qualifiers with
        | some q => rfl
        | none =>
          exfalso
          rw [rest, hq] at hrest
          cases hs : p.subpath with
          | none => rw [hs] at hrest; cases hrest
          | some s => rw [hs] at hrest; cases hrest

/-! ### What the functions find -/

/-- `_package_names` splits at the last slash, the first at sign and the first question mark. -/
theorem packageName_eq (purl : String) : packageName purl =
    String.ofList (beforeFirst '?' (beforeFirst '@' (afterLast '/' purl.toList))) := rfl

theorem packageNames_singleton {purl name : String} (hname : name ≠ "") :
    packageNames [purl] = [name] ↔ packageName purl = name := by
  simp only [packageNames, List.foldl_cons, List.foldl_nil, List.not_mem_nil,
    not_false_eq_true, and_true, List.nil_append]
  split_ifs with h
  · exact List.singleton_inj
  · rw [not_not] at h
    exact iff_of_false nofun fun heq => hname (heq ▸ h)

theorem packageName_eq_iff : packageName p.text = p.name ↔
    beforeFirst '@' (beforeFirst '?' (afterLast '/' p.text.toList)) = p.name.toList := by
  rw [packageName_eq, beforeFirst_comm]
  exact ⟨fun h => by rw [← h, String.toList_ofList], fun h => by rw [h, String.ofList_toList]⟩

theorem slash_mem_text (p : Purl) : '/' ∈ p.text.toList := by
  obtain ⟨front, hfront⟩ := exists_before p
  rw [text, String.toList_ofList, hfront, List.append_assoc]
  exact List.mem_append_right _ List.mem_cons_self

/-- What `dep_name` makes of the part that it looks at. -/
theorem depName_text {part : List Char}
    (hpart : beforeFirst '?' (afterLast '/' p.text.toList) = part) :
    depName none none (some p.text) = match splitFirst '@' part with
      | some (pkg, ver) => String.ofList pkg ++ " " ++ String.ofList ver
      | none => String.ofList part := by
  have hne : p.text ≠ "" := by
    intro h
    have hslash := slash_mem_text p
    rw [h] at hslash
    cases hslash
  have hlast : lastPart p.text = part := by
    rw [lastPart, if_pos (slash_mem_text p), hpart]
  simp only [depName, Option.filter_none, Option.filter_some, hne, ne_eq, not_false_eq_true,
    decide_true, if_true, hlast]

/-- The name and the version are shown as they are written, with a space between them. -/
theorem depName_of_package (h : beforeFirst '?' (afterLast '/' p.text.toList) = p.package) :
    depName none none (some p.text) = p.shown := by
  have hname : '@' ∉ p.name.toList := p.nameWithout _ (by decide)
  rw [depName_text h, package, shown]
  cases p.version with
  | none =>
    have hsplit : splitFirst '@' (p.name.toList ++ marked '@' none) = none := by
      rw [splitFirst_eq_none]
      simpa [marked] using hname
    rw [hsplit]
    simp [marked]
  | some v =>
    have hsplit : splitFirst '@' (p.name.toList ++ marked '@' (some v)) =
        some (p.name.toList, v.toList) := splitFirst_append_cons hname
    rw [hsplit]
    simp [String.append_assoc]

/-- Only the name and the version, as they are written, are shown so by both. -/
theorem package_of_names
    (halert : beforeFirst '@' (beforeFirst '?' (afterLast '/' p.text.toList)) = p.name.toList)
    (hpage : depName none none (some p.text) = p.shown) :
    beforeFirst '?' (afterLast '/' p.text.toList) = p.package := by
  generalize hpart : beforeFirst '?' (afterLast '/' p.text.toList) = part at halert
  rw [depName_text hpart] at hpage
  by_cases hat : '@' ∈ part
  · obtain ⟨pkg, ver, rfl, hpkg⟩ := List.eq_append_cons_of_mem hat
    rw [beforeFirst_append_cons hpkg] at halert
    subst halert
    rw [splitFirst_append_cons hpkg, shown] at hpage
    simp only [String.ofList_toList] at hpage
    cases hv : p.version with
    | none =>
      rw [hv, String.append_assoc] at hpage
      have hlen := congrArg String.length hpage
      simp at hlen
    | some v =>
      rw [hv, String.append_assoc] at hpage
      have hver : ver = v.toList := by
        have hlist := congrArg String.toList hpage
        simpa using hlist
      rw [hver, package, hv]
      rfl
  · rw [beforeFirst_of_notMem hat] at halert
    rw [splitFirst_eq_none.2 hat, halert, String.ofList_toList, shown] at hpage
    cases hv : p.version with
    | none =>
      rw [halert, package, hv]
      exact (List.append_nil _).symm
    | some v =>
      rw [hv] at hpage
      have hlen := congrArg String.length hpage
      simp at hlen

/-- **The package of any package URL.**  The alerts name the package of a package URL and the pages
show it with its version, exactly when no slash comes after the name and there is no subpath
without qualifiers, or the name and the version come again after the last slash. -/
theorem names_package_iff (p : Purl) : p.NamesPackage ↔ p.EndsWithPackage := by
  rw [← beforeFirst_afterLast_text]
  constructor
  · intro h
    have halert := (packageNames_singleton p.nameNonempty).1 h.alert
    exact package_of_names (packageName_eq_iff.1 halert) h.page
  · intro h
    refine ⟨(packageNames_singleton p.nameNonempty).2 (packageName_eq_iff.2 ?_),
      depName_of_package h⟩
    have hname : '@' ∉ p.name.toList := p.nameWithout _ (by decide)
    rw [h, package]
    cases p.version with
    | none =>
      rw [marked, Option.elim_none, List.append_nil]
      exact beforeFirst_of_notMem hname
    | some v => exact beforeFirst_append_cons hname

end Purl

/-- A package of a mirror. -/
def mirroredPurl : Purl where
  type := "npm"
  namespaces := []
  name := "left-pad"
  version := some "1.3.0"
  qualifiers := some "repository_url=mirror.example/npm"
  subpath := none
  typeWithout := by decide
  namespacesWithout := by decide
  nameNonempty := by decide
  nameWithout := by decide
  versionWithout := by decide
  qualifiersWithout := by decide
  subpathWithout := by decide

/-- The alerts and the pages take the end of the address of the mirror for the package. -/
theorem mirror_named : mirroredPurl.text =
      "pkg:npm/left-pad@1.3.0?repository_url=mirror.example/npm" ∧
    packageNames [mirroredPurl.text] = ["npm"] ∧
    depName none none (some mirroredPurl.text) = "npm" ∧ ¬ mirroredPurl.NamesPackage := by
  decide +kernel

end ArgusSbomGuard
