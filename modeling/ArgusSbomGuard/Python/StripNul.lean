import ArgusSbomGuard.Python.Dict
import ArgusSbomGuard.Python.Json

/-!
# Removing NUL characters

`_strip_nul_from_strings` of `api/v1/schemas.py`, which is `Json.stripNul` here, goes through a
whole value and builds its lists and dictionaries anew.  Keys that become equal are one key of the
new dictionary, with the last of their values.  No NUL is left at any depth, a value without one
stays the same, and a second pass changes nothing (`strip_nul_everywhere`).

## Main definitions

* `Json.parts` : the values in a value, at any depth.
* `Json.WithoutNul` : no string and no key of a value has a NUL character.
* `PyValue` : a value whose objects are dictionaries.
-/

namespace ArgusSbomGuard

namespace Json

mutual

/-- The value and the values in it, at any depth. -/
def parts : Json → List Json
  | .arr xs => .arr xs :: partsList xs
  | .obj kvs => .obj kvs :: partsFields kvs
  | j => [j]

def partsList : List Json → List Json
  | [] => []
  | x :: xs => x.parts ++ partsList xs

def partsFields : List (String × Json) → List Json
  | [] => []
  | (_, v) :: kvs => v.parts ++ partsFields kvs

end

/-- There is no NUL character in a string, and none in the keys of an object. -/
def NoNul : Json → Prop
  | .str s => '\x00' ∉ s.toList
  | .obj kvs => ∀ kv ∈ kvs, '\x00' ∉ kv.1.toList
  | _ => True

/-- No string and no object key has a NUL character, at any depth. -/
def WithoutNul (j : Json) : Prop := ∀ part ∈ j.parts, part.NoNul

/-- An object has each key once. -/
def KeysDiffer : Json → Prop
  | .obj kvs => UniqueEntries kvs
  | _ => True

/-- The objects are dictionaries, at any depth. -/
def Dictionaries (j : Json) : Prop := ∀ part ∈ j.parts, part.KeysDiffer

instance : DecidablePred NoNul
  | .str s => inferInstanceAs (Decidable ('\x00' ∉ s.toList))
  | .obj kvs => inferInstanceAs (Decidable (∀ kv ∈ kvs, '\x00' ∉ kv.1.toList))
  | .null | .bool _ | .int _ | .float _ | .arr _ => inferInstanceAs (Decidable True)

instance : DecidablePred KeysDiffer
  | .obj kvs => inferInstanceAs (Decidable (kvs.Pairwise fun a b => a.1 ≠ b.1))
  | .null | .bool _ | .int _ | .float _ | .str _ | .arr _ => inferInstanceAs (Decidable True)

instance : DecidablePred WithoutNul := fun j =>
  inferInstanceAs (Decidable (∀ part ∈ j.parts, part.NoNul))

instance : DecidablePred Dictionaries := fun j =>
  inferInstanceAs (Decidable (∀ part ∈ j.parts, part.KeysDiffer))

end Json

/-- A value of Python, in which a dictionary has each key once. -/
@[ext]
structure PyValue where
  json : Json
  dictionaries : json.Dictionaries

namespace Json

variable {j : Json} {xs : List Json} {kvs acc : List (String × Json)} {k : String} {v : Json}

/-! ### The parts of a value -/

/-- Induction over a value: a list has its elements before it, and an object its values. -/
theorem induction {motive : Json → Prop} (null : motive .null) (bool : ∀ b, motive (.bool b))
    (int : ∀ n, motive (.int n)) (float : ∀ x, motive (.float x)) (str : ∀ s, motive (.str s))
    (arr : ∀ xs, (∀ x ∈ xs, motive x) → motive (.arr xs))
    (obj : ∀ kvs, (∀ kv ∈ kvs, motive kv.2) → motive (.obj kvs)) (j : Json) : motive j :=
  @Json.rec motive (fun xs => ∀ x ∈ xs, motive x) (fun kvs => ∀ kv ∈ kvs, motive kv.2)
    (fun kv => motive kv.2) null bool int float str arr obj nofun
    (fun _ _ hx hxs => List.forall_mem_cons.2 ⟨hx, hxs⟩) nofun
    (fun _ _ hkv hkvs => List.forall_mem_cons.2 ⟨hkv, hkvs⟩) (fun _ _ hv => hv) j

theorem partsList_eq : partsList xs = xs.flatMap parts := by
  induction xs with
  | nil => rfl
  | cons x xs ih => rw [partsList, ih, List.flatMap_cons]

theorem partsFields_eq : partsFields kvs = kvs.flatMap fun kv => kv.2.parts := by
  induction kvs with
  | nil => rfl
  | cons kv kvs ih => rw [partsFields, ih, List.flatMap_cons]

/-- What holds of all parts of a list: of the list, and of all parts of its elements. -/
theorem forall_parts_arr {P : Json → Prop} : (∀ part ∈ (arr xs).parts, P part) ↔
    P (.arr xs) ∧ ∀ x ∈ xs, ∀ part ∈ x.parts, P part := by
  rw [parts, List.forall_mem_cons, partsList_eq, List.forall_mem_flatMap]

theorem forall_parts_obj {P : Json → Prop} : (∀ part ∈ (obj kvs).parts, P part) ↔
    P (.obj kvs) ∧ ∀ kv ∈ kvs, ∀ part ∈ kv.2.parts, P part := by
  rw [parts, List.forall_mem_cons, partsFields_eq, List.forall_mem_flatMap]

/-! ### A list and an object without NUL characters -/

theorem stripNulList_eq : stripNulList xs = xs.map stripNul := by
  induction xs with
  | nil => rfl
  | cons x xs ih => rw [stripNulList, ih, List.map_cons]

theorem stripNul_arr : (arr xs).stripNul = .arr (xs.map stripNul) := by
  rw [stripNul, stripNulList_eq]

/-- What is assigned for a field of an object. -/
def stripField (kv : String × Json) : String × Json := (PyStr.stripNul kv.1, kv.2.stripNul)

/-- In a dictionary, there is at most one entry to replace. -/
theorem setField_eq (h : UniqueEntries acc) : setField acc k v = updateKey k (fun _ => v) acc := by
  induction acc with
  | nil => rfl
  | cons e acc ih =>
    obtain ⟨hne, hacc⟩ := List.pairwise_cons.1 h
    rw [updateKey, ← ih hacc, setField, setField, List.any_cons, List.map_cons]
    by_cases he : e.1 = k
    · -- `setField` goes on to the end, but no later entry has the key
      have hrest : (acc.map fun kv => if kv.1 == k then (k, v) else kv) = acc := by
        refine (List.map_congr_left fun e' he' => if_neg ?_).trans (List.map_id _)
        exact mt beq_iff_eq.1 (he ▸ (hne e' he').symm)
      rw [if_pos he, hrest, beq_iff_eq.2 he, Bool.true_or, if_pos rfl, if_pos rfl]
    · rw [if_neg he, beq_eq_false_iff_ne.2 he, Bool.false_or, if_neg Bool.false_ne_true]
      split_ifs <;> rfl

theorem stripNulFields_eq (h : UniqueEntries acc) :
    stripNulFields kvs acc = (kvs.map stripField).foldl (groupRow fun v _ => v) acc := by
  induction kvs generalizing acc with
  | nil => rfl
  | cons kv kvs ih =>
    rw [stripNulFields, setField_eq h, ih h.updateKey]
    rfl

/-- The new dictionary: the last of the values whose keys become the same. -/
theorem stripNul_obj :
    (obj kvs).stripNul = .obj (groupInto (fun v _ => v) (kvs.map stripField)) := by
  rw [stripNul, stripNulFields_eq List.Pairwise.nil]
  rfl

/-! ### At any depth -/

/-- What holds of each new value holds of its parts, which are new values too. -/
theorem forall_parts_stripNul {P : Json → Prop} (h : ∀ j : Json, P j.stripNul) (j : Json) :
    ∀ part ∈ j.stripNul.parts, P part := by
  induction j using Json.induction with
  | null => exact List.forall_mem_singleton.2 (h .null)
  | bool b => exact List.forall_mem_singleton.2 (h (.bool b))
  | int n => exact List.forall_mem_singleton.2 (h (.int n))
  | float x => exact List.forall_mem_singleton.2 (h (.float x))
  | str s => exact List.forall_mem_singleton.2 (h (.str s))
  | arr xs ih =>
    have hnode := h (.arr xs)
    rw [stripNul_arr] at hnode ⊢
    exact forall_parts_arr.2 ⟨hnode, List.forall_mem_map.2 ih⟩
  | obj kvs ih =>
    have hnode := h (.obj kvs)
    rw [stripNul_obj] at hnode ⊢
    refine forall_parts_obj.2 ⟨hnode, fun e he => ?_⟩
    obtain ⟨kv, hkv, rfl⟩ := List.mem_map.1 (mem_of_mem_overwrite he)
    exact ih kv hkv

theorem notMem_stripNul (s : String) : '\x00' ∉ (PyStr.stripNul s).toList := by
  rw [PyStr.stripNul, String.toList_ofList, List.mem_filter]
  exact fun h => bne_iff_ne.1 h.2 rfl

theorem noNul_stripNul (j : Json) : j.stripNul.NoNul := by
  cases j with
  | str s => exact notMem_stripNul s
  | obj kvs =>
    rw [stripNul_obj]
    intro e he
    obtain ⟨kv, -, rfl⟩ := List.mem_map.1 (mem_of_mem_overwrite he)
    exact notMem_stripNul kv.1
  | _ => exact trivial

theorem keysDiffer_stripNul (j : Json) : j.stripNul.KeysDiffer := by
  cases j with
  | obj kvs =>
    rw [stripNul_obj]
    exact uniqueEntries_groupInto
  | _ => exact trivial

theorem withoutNul_stripNul (j : Json) : j.stripNul.WithoutNul :=
  forall_parts_stripNul noNul_stripNul j

theorem dictionaries_stripNul (j : Json) : j.stripNul.Dictionaries :=
  forall_parts_stripNul keysDiffer_stripNul j

/-- A value without NUL characters stays the same, the order of its keys included. -/
theorem stripNul_eq_self (hdict : j.Dictionaries) (h : j.WithoutNul) : j.stripNul = j := by
  induction j using Json.induction with
  | null | bool | int | float => rfl
  | str s =>
    have hs : NoNul (.str s) := List.forall_mem_singleton.1 h
    exact congrArg Json.str (stripNul_eq hs)
  | arr xs ih =>
    have hxs : xs.map stripNul = xs := by
      refine (List.map_congr_left fun x hx => ?_).trans (List.map_id xs)
      exact ih x hx ((forall_parts_arr.1 hdict).2 x hx) ((forall_parts_arr.1 h).2 x hx)
    rw [stripNul_arr, hxs]
  | obj kvs ih =>
    obtain ⟨hkeys, hvalues⟩ := forall_parts_obj.1 hdict
    obtain ⟨hnode, hparts⟩ := forall_parts_obj.1 h
    have hkvs : kvs.map stripField = kvs := by
      refine (List.map_congr_left fun kv hkv => ?_).trans (List.map_id kvs)
      exact Prod.ext (stripNul_eq (hnode kv hkv)) (ih kv hkv (hvalues kv hkv) (hparts kv hkv))
    -- keys that differed before still differ, so no entry is replaced
    rw [stripNul_obj, hkvs, overwrite_of_uniqueEntries hkeys]

/-- A second pass changes nothing: the new objects are dictionaries, whichever keys met in them. -/
theorem stripNul_stripNul (j : Json) : j.stripNul.stripNul = j.stripNul :=
  stripNul_eq_self (dictionaries_stripNul j) (withoutNul_stripNul j)

end Json

/-- `_strip_nul_from_strings`. -/
def PyValue.stripNul (v : PyValue) : PyValue where
  json := v.json.stripNul
  dictionaries := v.json.dictionaries_stripNul

/-- **No NUL character is left at any depth.**  A value without one stays the same, and so does the
result of an earlier pass. -/
theorem strip_nul_everywhere (v : PyValue) :
    v.stripNul.json.WithoutNul ∧ (v.json.WithoutNul → v.stripNul = v) ∧
      v.stripNul.stripNul = v.stripNul := by
  refine ⟨v.json.withoutNul_stripNul, fun h => ?_, ?_⟩
  · exact PyValue.ext (Json.stripNul_eq_self v.dictionaries h)
  · exact PyValue.ext v.json.stripNul_stripNul

/-- Two keys that differ in a NUL character, and more of them further inside. -/
def nulDemo : PyValue where
  json := .obj [("name\x00", .str "first"),
    ("name", .arr [.str "se\x00cond", .obj [("\x00id", .int 1)]])]
  dictionaries := by decide

/-- No NUL character. -/
def plainDemo : PyValue where
  json := .arr [.str "name", .obj [("id", .float .nan), ("", .obj [])]]
  dictionaries := by decide

theorem strip_nul_everywhere_demo :
    nulDemo.stripNul.json = .obj [("name", .arr [.str "second", .obj [("id", .int 1)]])] ∧
      nulDemo.stripNul.json.WithoutNul ∧ plainDemo.stripNul = plainDemo ∧
      nulDemo.stripNul.stripNul = nulDemo.stripNul :=
  ⟨rfl, (strip_nul_everywhere nulDemo).1, (strip_nul_everywhere plainDemo).2.1 (by decide),
    (strip_nul_everywhere nulDemo).2.2⟩

end ArgusSbomGuard
