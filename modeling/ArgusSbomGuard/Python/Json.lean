import Mathlib.Algebra.Ring.Nat
import Mathlib.Data.Rat.Defs
import Mathlib.Data.List.Infix

/-!
# Python values read from JSON

`json.loads` returns untyped values, and the programs that walk them rely on Python's rules:
which values count as true, which have a `get` method, which can be iterated over, and which
exception is raised otherwise.  This file states those rules for `Json`.

Strings are sequences of Unicode scalar values, so a lone surrogate escape is outside the model, and
so are the limits of the interpreter's stack, except where a document is uploaded (`Env`).
A double is represented by the number it denotes; converting an integer does not round.

## Main definitions

* `PyError` : the exceptions the modelled code can raise.
* `Json` : a JSON value, objects in insertion order.
* `Json.truthy`, `Json.pyOr`, `Json.get`, `Json.index0`, `Json.iter`, `Json.hasKey` : Python's
  operations.
* `Json.stripNul`, `Json.storable`, `Json.nesting`, `Json.pyEq` : recursion through a whole value.
* `PyStr.lower`, `PyStr.strip`, `PyStr.replaceChar` : string methods.
-/

namespace ArgusSbomGuard

universe u v

/-- The exceptions that the modelled code can raise. -/
inductive PyError
  | attributeError | typeError | keyError | indexError | valueError | overflowError
  | jsonDecodeError | unicodeDecodeError | recursionError
  | integrityError | dataError | noResultFound
  deriving DecidableEq

/-- A computation that ended without an exception: what its first part returned. -/
theorem bind_eq_ok {α β : Type u} {ε : Type v} {x : Except ε α} {f : α → Except ε β} {b : β} :
    x >>= f = .ok b ↔ ∃ a, x = .ok a ∧ f a = .ok b := by
  cases x with
  | error e => exact ⟨nofun, fun ⟨_, h, _⟩ => nomatch h⟩
  | ok a => exact ⟨fun h => ⟨a, rfl, h⟩, fun ⟨_, h, hf⟩ => by cases h; exact hf⟩

theorem mapError_eq_ok {ε ε' α : Type*} {f : ε → ε'} {x : Except ε α} {a : α}
    (h : x.mapError f = .ok a) : x = .ok a := by
  cases x with
  | error e => cases h
  | ok b => exact congrArg Except.ok (Except.ok.inj h)

theorem map_eq_ok {ε : Type u} {α β : Type v} {f : α → β} {x : Except ε α} {b : β} :
    x.map f = .ok b ↔ ∃ a, x = .ok a ∧ b = f a := by
  cases x with
  | error e => exact ⟨nofun, fun ⟨_, h, _⟩ => nomatch h⟩
  | ok a =>
    refine ⟨fun h => ⟨a, rfl, (Except.ok.inj h).symm⟩, ?_⟩
    rintro ⟨_, ⟨⟩, rfl⟩
    rfl

/-- A loop that collects a value for each element succeeds when it does for each element. -/
theorem mapM_isOk {α β : Type} {f : α → Except PyError β} {q : β → Prop} {xs : List α} :
    (∃ ys, xs.mapM f = .ok ys ∧ ∀ y ∈ ys, q y) ↔ ∀ x ∈ xs, ∃ y, f x = .ok y ∧ q y := by
  induction xs with
  | nil => exact ⟨fun _ _ hx => absurd hx List.not_mem_nil,
      fun _ => ⟨[], rfl, fun _ hy => absurd hy List.not_mem_nil⟩⟩
  | cons x xs ih =>
    simp only [List.mapM_cons, bind_eq_ok, List.forall_mem_cons, ← ih]
    constructor
    · rintro ⟨_, ⟨y, hy, ys, hys, h⟩, hq⟩
      obtain rfl := Except.ok.inj h
      obtain ⟨hqy, hqys⟩ := List.forall_mem_cons.1 hq
      exact ⟨⟨y, hy, hqy⟩, ys, hys, hqys⟩
    · rintro ⟨⟨y, hy, hqy⟩, ys, hys, hqys⟩
      exact ⟨_, ⟨y, hy, ys, hys, rfl⟩, List.forall_mem_cons.2 ⟨hqy, hqys⟩⟩

theorem not_isOk_error {ε α : Type*} {e : ε} : ¬ ∃ a, (.error e : Except ε α) = .ok a := by
  rintro ⟨a, ⟨⟩⟩

theorem not_isOk_error_and {ε α : Type*} {e : ε} {p : α → Prop} :
    ¬ ∃ a, (.error e : Except ε α) = .ok a ∧ p a := by
  rintro ⟨a, ⟨⟩, -⟩

instance decidableExistsOkPair {α β : Type u} {ε : Type v} [DecidableEq β]
    (x : Except ε (α × β)) (b : β) (P : α → Prop) [DecidablePred P] :
    Decidable (∃ a, x = .ok (a, b) ∧ P a) :=
  match x with
  | .error _ => isFalse fun ⟨_, h, _⟩ => nomatch h
  | .ok (a, b') =>
    decidable_of_iff (b' = b ∧ P a) ⟨fun h => ⟨a, by rw [h.1], h.2⟩, fun ⟨_, h, hP⟩ => by
      cases h; exact ⟨rfl, hP⟩⟩

instance decidableExistsOk {α : Type u} {ε : Type v} (x : Except ε α) (P : α → Prop)
    [DecidablePred P] : Decidable (∃ a, x = .ok a ∧ P a) :=
  match x with
  | .error _ => isFalse fun ⟨_, h, _⟩ => nomatch h
  | .ok a => decidable_of_iff (P a) ⟨fun h => ⟨a, rfl, h⟩, fun ⟨_, h, hP⟩ => by
      cases h; exact hP⟩

/-- A Python `float`. -/
inductive PyFloat
  | finite (q : ℚ)
  | infinite (negative : Bool)
  | nan
  deriving DecidableEq

/-- `float(n)`: the largest integers have no nearest double. -/
def PyFloat.ofInt (n : ℤ) : Except PyError PyFloat :=
  if n.natAbs < 2 ^ 1024 - 2 ^ 970 then .ok (.finite n) else .error .overflowError

/-- A value returned by `json.loads`. -/
inductive Json
  | null
  | bool (b : Bool)
  | int (n : ℤ)
  | float (x : PyFloat)
  | str (s : String)
  | arr (xs : List Json)
  | obj (kvs : List (String × Json))

namespace Json

/-- `bool(j)`. -/
def truthy : Json → Bool
  | null => false
  | bool b => b
  | int n => n != 0
  | float x => x != .finite 0
  | str s => s != ""
  | arr xs => !xs.isEmpty
  | obj kvs => !kvs.isEmpty

/-- `j or d`. -/
def pyOr (j d : Json) : Json := if j.truthy then j else d

/-- `j.get(k, d)`: only objects have this method. -/
def get (j : Json) (k : String) (d : Json) : Except PyError Json :=
  match j with
  | obj kvs => .ok ((kvs.lookup k).getD d)
  | _ => .error .attributeError

/-- `j[0]`; the keys of an object are strings, so `0` is not one of them. -/
def index0 : Json → Except PyError Json
  | arr (x :: _) => .ok x
  | arr [] => .error .indexError
  | str s => match s.toList with
    | c :: _ => .ok (str (String.ofList [c]))
    | [] => .error .indexError
  | obj _ => .error .keyError
  | _ => .error .typeError

/-- `j[k]` for a string `k`. -/
def item (j : Json) (k : String) : Except PyError Json :=
  match j with
  | obj kvs => match kvs.lookup k with
    | some v => .ok v
    | none => .error .keyError
  | _ => .error .typeError

/-- The values of `for x in j`. -/
def iter : Json → Except PyError (List Json)
  | arr xs => .ok xs
  | obj kvs => .ok (kvs.map fun kv => str kv.1)
  | str s => .ok (s.toList.map fun c => str (String.ofList [c]))
  | _ => .error .typeError

/-- The value is the string `s`. -/
def isStr (j : Json) (s : String) : Bool :=
  match j with
  | str t => t == s
  | _ => false

/-- `k in j`: a key of an object, an element of a list, a substring of a string. -/
def hasKey (k : String) : Json → Except PyError Bool
  | obj kvs => .ok (kvs.any fun kv => kv.1 == k)
  | arr xs => .ok (xs.any fun x => x.isStr k)
  | str s => .ok (decide (k.toList <:+: s.toList))
  | _ => .error .typeError

/-- Only an object answers `get`. -/
theorem get_eq_ok {j v d : Json} {k : String} (h : j.get k d = .ok v) :
    ∃ kvs, j = obj kvs ∧ (kvs.lookup k).getD d = v := by
  cases j with
  | obj kvs => exact ⟨kvs, rfl, Except.ok.inj h⟩
  | _ => cases h

@[simp] theorem truthy_str {s : String} : (str s).truthy = true ↔ s ≠ "" := by
  simp [truthy]

end Json

/-! ### Recursion through a value -/

/-- `s.replace("\x00", "")`. -/
def PyStr.stripNul (s : String) : String := String.ofList (s.toList.filter fun c => c != '\x00')

/-- A text without NUL bytes stays the same. -/
theorem stripNul_eq {text : String} (h : '\x00' ∉ text.toList) : PyStr.stripNul text = text := by
  have hall : (text.toList.filter fun c => c != '\x00') = text.toList := by
    refine List.filter_eq_self.2 fun c hc => bne_iff_ne.2 ?_
    rintro rfl
    exact h hc
  rw [PyStr.stripNul, hall, String.ofList_toList]

/-- Set a key of an object under construction: a key that is already there keeps its place. -/
def setField (kvs : List (String × Json)) (k : String) (v : Json) : List (String × Json) :=
  if kvs.any fun kv => kv.1 == k then
    kvs.map fun kv => if kv.1 == k then (k, v) else kv
  else kvs ++ [(k, v)]

mutual

/-- Remove the NUL characters of every string and object key. -/
def Json.stripNul : Json → Json
  | .str s => .str (PyStr.stripNul s)
  | .arr xs => .arr (stripNulList xs)
  | .obj kvs => .obj (stripNulFields kvs [])
  | j => j

def Json.stripNulList : List Json → List Json
  | [] => []
  | x :: xs => x.stripNul :: stripNulList xs

/-- The fields of a dict comprehension, added one by one to `acc`. -/
def Json.stripNulFields : List (String × Json) → List (String × Json) → List (String × Json)
  | [], acc => acc
  | (k, v) :: kvs, acc => stripNulFields kvs (setField acc (PyStr.stripNul k) v.stripNul)

end

mutual

/-- The value can be written to a JSON column: the database has no `NaN` and no infinities. -/
def Json.storable : Json → Bool
  | .float (.finite _) => true
  | .float _ => false
  | .arr xs => storableList xs
  | .obj kvs => storableFields kvs
  | _ => true

def Json.storableList : List Json → Bool
  | [] => true
  | x :: xs => x.storable && storableList xs

def Json.storableFields : List (String × Json) → Bool
  | [] => true
  | (_, v) :: kvs => v.storable && storableFields kvs

end

mutual

/-- How deep objects and arrays are nested, when a value of another kind counts as `leaf`. -/
def Json.nesting (leaf : ℕ) : Json → ℕ
  | .arr xs => nestingList leaf xs + 1
  | .obj kvs => nestingFields leaf kvs + 1
  | _ => leaf

def Json.nestingList (leaf : ℕ) : List Json → ℕ
  | [] => 0
  | x :: xs => max (x.nesting leaf) (nestingList leaf xs)

def Json.nestingFields (leaf : ℕ) : List (String × Json) → ℕ
  | [] => 0
  | (_, v) :: kvs => max (v.nesting leaf) (nestingFields leaf kvs)

end

/-- The objects and arrays that are nested. -/
def Json.depth : Json → ℕ := nesting 0

/-- The calls that are nested when a function calls itself on each element. -/
def Json.calls : Json → ℕ := nesting 1

/-! ### Comparison -/

/-- `x == y` for floats: `nan` is not even equal to itself. -/
def PyFloat.pyEq (x y : PyFloat) : Bool := x != .nan && x == y

/-- The number that a value is compared as. -/
def Json.number : Json → Option PyFloat
  | .bool b => some (.finite (if b then 1 else 0))
  | .int n => some (.finite n)
  | .float x => some x
  | _ => none

mutual

/-- `a == b`: numbers by what they denote, objects whatever the order of their keys. -/
def Json.pyEq : Json → Json → Bool
  | .null, .null => true
  | .str s, .str t => s == t
  | .arr xs, .arr ys => pyEqList xs ys
  | .obj kvs, .obj kvs' => kvs.length == kvs'.length && pyEqFields kvs kvs'
  | a, b => match a.number, b.number with
    | some x, some y => x.pyEq y
    | _, _ => false

def Json.pyEqList : List Json → List Json → Bool
  | [], [] => true
  | x :: xs, y :: ys => x.pyEq y && pyEqList xs ys
  | _, _ => false

def Json.pyEqFields : List (String × Json) → List (String × Json) → Bool
  | [], _ => true
  | (k, v) :: kvs, kvs' => (match kvs'.lookup k with
      | some v' => v.pyEq v'
      | none => false) && pyEqFields kvs kvs'

end

/-! ### Strings -/

namespace PyStr

/-- `str.lower` on ASCII.  The code only compares the result with ASCII words without a `k`,
and no other character becomes a letter of such a word. -/
def lower (s : String) : String := String.ofList (s.toList.map Char.toLower)

/-- `str.isspace` for one character. -/
def isSpace (c : Char) : Bool :=
  let n := c.toNat
  (9 ≤ n && n ≤ 13) || (28 ≤ n && n ≤ 32) || n == 0x85 || n == 0xa0 || n == 0x1680 ||
    (0x2000 ≤ n && n ≤ 0x200a) || n == 0x2028 || n == 0x2029 || n == 0x202f || n == 0x205f ||
    n == 0x3000

/-- `str.strip()`. -/
def strip (s : String) : String :=
  String.ofList ((s.toList.dropWhile isSpace).reverse.dropWhile isSpace).reverse

/-- The characters at which `str.splitlines` ends a line. -/
def endsLine (c : Char) : Bool :=
  let n := c.toNat
  (10 ≤ n && n ≤ 13) || (28 ≤ n && n ≤ 30) || n == 0x85 || n == 0x2028 || n == 0x2029

/-- `len(s.splitlines()) > 1`: something comes after the end of the first line. -/
def multiline (s : String) : Bool :=
  match s.toList.dropWhile fun c => !endsLine c with
  | '\r' :: '\n' :: rest => rest != []
  | _ :: rest => rest != []
  | [] => false

/-- `s.replace(c, t)` for a single character `c`. -/
def replaceChar (s : String) (c : Char) (t : String) : String :=
  String.ofList (s.toList.flatMap fun d => if d == c then t.toList else [d])

end PyStr

end ArgusSbomGuard
