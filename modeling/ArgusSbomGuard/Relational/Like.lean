import ArgusSbomGuard.Python.Json

/-!
# Pattern matching

`LIKE` and `ILIKE` of the database.  A percent sign stands for any text, an underscore for any
character, and a backslash for the character behind it; a pattern that ends with a backslash is
an error as soon as the backslash is compared with a character, or looked for behind a percent
sign.

## Main definitions

* `danglingEscape` : is there a backslash behind a percent sign, and nothing behind it?
* `like` : does a text match a pattern?
* `ilike` : the same, ignoring case as the collation of the database does.
* `selectWhere` : the rows that satisfy a condition which may fail.
-/

namespace ArgusSbomGuard

/-- Some rest of the text, the whole text first, matches. -/
def likeRest (matches' : List Char → Except PyError Bool) : List Char → Except PyError Bool
  | [] => matches' []
  | c :: text => do
    if ← matches' (c :: text) then return true
    likeRest matches' text

/-- Behind a percent sign there are wildcards, for which the text is long enough, and then a
backslash at the end of the pattern. -/
def danglingEscape : List Char → List Char → Bool
  | '%' :: pattern, text => danglingEscape pattern text
  | '_' :: pattern, _ :: text => danglingEscape pattern text
  | ['\\'], _ => true
  | _, _ => false

/-- `text LIKE pattern`, the pattern first. -/
def like : List Char → List Char → Except PyError Bool
  | [], text => .ok text.isEmpty
  | '%' :: pattern, text =>
    if !text.isEmpty && danglingEscape pattern text then .error .dataError
    else likeRest (like pattern) text
  | _ :: _, [] => .ok false
  | '_' :: pattern, _ :: text => like pattern text
  | ['\\'], _ :: _ => .error .dataError
  | '\\' :: c :: pattern, d :: text => if c = d then like pattern text else .ok false
  | c :: pattern, d :: text => if c = d then like pattern text else .ok false

/-- `text ILIKE pattern`, where `lower` is the lower case of the collation. -/
def ilike (lower : String → String) (text pattern : String) : Except PyError Bool :=
  like (lower pattern).toList (lower text).toList

example : ilike PyStr.lower "CVE-2024-1" "%cve%-_" = .ok true := by decide
example : ilike PyStr.lower "critical" "CRITICAL" = .ok true := by decide
example : ilike PyStr.lower "CRITICAL" "\\" = .error .dataError := by decide
example : ilike PyStr.lower "LOW" "%___\\" = .error .dataError := by decide

/-! ### Conditions that may fail -/

/-- `WHERE condition`. -/
def selectWhere {α : Type} (condition : α → Except PyError Bool) :
    List α → Except PyError (List α)
  | [] => .ok []
  | a :: rows => do
    let holds ← condition a
    let rest ← selectWhere condition rows
    return if holds then a :: rest else rest

variable {α : Type} {condition : α → Except PyError Bool} {rows : List α}

theorem selectWhere_singleton {a : α} :
    selectWhere condition [a] = (condition a).map fun b => if b then [a] else [] := by
  rw [selectWhere]
  cases condition a <;> rfl

/-- A condition that does not fail is a filter. -/
theorem selectWhere_eq_filter {p : α → Bool} (h : ∀ a ∈ rows, condition a = .ok (p a)) :
    selectWhere condition rows = .ok (rows.filter p) := by
  induction rows with
  | nil => rfl
  | cons a rows ih =>
    rw [selectWhere, h a List.mem_cons_self, ih fun b hb => h b (List.mem_cons_of_mem _ hb),
      List.filter_cons]
    rfl

/-- The query fails when the condition fails on some row. -/
theorem selectWhere_isOk :
    (∃ kept, selectWhere condition rows = .ok kept) ↔ ∀ a ∈ rows, ∃ b, condition a = .ok b := by
  induction rows with
  | nil => exact iff_of_true ⟨[], rfl⟩ fun _ h => absurd h List.not_mem_nil
  | cons a rows ih =>
    simp only [selectWhere, bind_eq_ok, List.forall_mem_cons, ← ih]
    constructor
    · rintro ⟨kept, b, hb, rest, hrest, -⟩
      exact ⟨⟨b, hb⟩, rest, hrest⟩
    · rintro ⟨⟨b, hb⟩, rest, hrest⟩
      exact ⟨_, b, hb, rest, hrest, rfl⟩

/-- What is selected satisfies the condition. -/
theorem mem_selectWhere {kept : List α} (h : selectWhere condition rows = .ok kept) {a : α} :
    a ∈ kept ↔ a ∈ rows ∧ condition a = .ok true := by
  have hworks : ∀ b ∈ rows, ∃ c, condition b = .ok c := selectWhere_isOk.1 ⟨kept, h⟩
  have hfilter : selectWhere condition rows =
      .ok (rows.filter fun b => (condition b).toOption == some true) := by
    refine selectWhere_eq_filter fun b hb => ?_
    obtain ⟨c, hc⟩ := hworks b hb
    rw [hc]
    cases c <;> rfl
  rw [Except.ok.inj (h.symm.trans hfilter), List.mem_filter]
  refine and_congr_right fun ha => ?_
  obtain ⟨c, hc⟩ := hworks a ha
  rw [hc]
  cases c
  · exact iff_of_false nofun nofun
  · exact iff_of_true rfl rfl

end ArgusSbomGuard
