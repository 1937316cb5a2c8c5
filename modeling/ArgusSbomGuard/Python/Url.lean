import ArgusSbomGuard.Python.Split

/-!
# The path of a URL

`urllib.parse.urlsplit` on a URL that is put together from a scheme, a host and a path.  The host
ends at the first slash, question mark or number sign, so that the path that is read back is the one
that was put in only if the host has none of them (`urlsplitPath_of_plainHost`).

## Main definitions

* `urlsplitPath` : the path that is read back.
* `plainHost` : a host that ends where it should.
* `urlTrim` : what is left of a path.
-/

namespace ArgusSbomGuard

/-- The characters that `urlsplit` removes. -/
def isUnsafeUrlChar (c : Char) : Bool := c == '\t' || c == '\r' || c == '\n'

/-- A query or a fragment begins. -/
def endsUrlPath (c : Char) : Bool := c == '?' || c == '#'

/-- `urlsplit(f"{scheme}://{host}{path}").path`, for a scheme of letters. -/
def urlsplitPath (host path : String) : String :=
  let url := (host.toList ++ path.toList).filter fun c => !isUnsafeUrlChar c
  let rest := url.dropWhile fun c => c ≠ '/' ∧ !endsUrlPath c
  String.ofList (rest.takeWhile fun c => !endsUrlPath c)

/-- The host of a URL does not end within the text. -/
def plainHost (host : String) : Bool := host.toList.all fun c => c ≠ '/' ∧ !endsUrlPath c

/-- A part of a path without the characters that are removed, up to a query or a fragment. -/
def urlTrim (text : List Char) : List Char :=
  (text.filter fun c => !isUnsafeUrlChar c).takeWhile fun c => !endsUrlPath c

variable {host path : String} {text part : List Char}

/-- The path of a URL whose host ends where it should. -/
theorem urlsplitPath_of_plainHost (hhost : plainHost host = true)
    (hpath : path.toList = '/' :: text) :
    (urlsplitPath host path).toList = '/' :: urlTrim text := by
  have hall : ∀ c ∈ host.toList.filter fun c => !isUnsafeUrlChar c,
      decide (c ≠ '/' ∧ (!endsUrlPath c) = true) = true := fun c hc =>
    List.all_eq_true.1 hhost c (List.mem_filter.1 hc).1
  have hslash : ('/' :: text).filter (fun c => !isUnsafeUrlChar c) =
      '/' :: text.filter fun c => !isUnsafeUrlChar c := List.filter_cons_of_pos (by decide)
  rw [urlsplitPath, hpath, List.filter_append, hslash, List.dropWhile_append_of_pos hall,
    List.dropWhile_cons_of_neg (by decide), String.toList_ofList,
    List.takeWhile_cons_of_pos (by decide)]
  rfl

/-- The parts of a path are trimmed one by one. -/
theorem beforeFirst_urlTrim : beforeFirst '/' (urlTrim text) = urlTrim (beforeFirst '/' text) := by
  have hfilter : (text.filter fun c => !isUnsafeUrlChar c).takeWhile (fun c => c ≠ '/') =
      (text.takeWhile fun c => c ≠ '/').filter fun c => !isUnsafeUrlChar c := by
    induction text with
    | nil => rfl
    | cons c text ih =>
      by_cases hslash : c = '/'
      · subst hslash
        rfl
      · rw [List.takeWhile_cons_of_pos (by simpa using hslash)]
        cases hremoved : isUnsafeUrlChar c with
        | true => simpa [hremoved] using ih
        | false => simpa [hremoved, hslash] using ih
  simp only [beforeFirst, urlTrim, List.takeWhile_takeWhile, and_comm, ← hfilter]

theorem urlTrim_append_newline : urlTrim (part ++ ['\n']) = urlTrim part := by
  have hdrop : ['\n'].filter (fun c => !isUnsafeUrlChar c) = [] := by decide
  rw [urlTrim, List.filter_append, hdrop, List.append_nil]
  rfl

/-- A part without the characters that are removed or end the path. -/
theorem urlTrim_append (h : ∀ c ∈ part, (isUnsafeUrlChar c || endsUrlPath c) = false) :
    urlTrim (part ++ text) = part ++ urlTrim text := by
  have hkept : part.filter (fun c => !isUnsafeUrlChar c) = part := by
    refine List.filter_eq_self.2 fun c hc => ?_
    rw [(Bool.or_eq_false_iff.1 (h c hc)).1]
    rfl
  rw [urlTrim, List.filter_append, hkept, List.takeWhile_append_of_pos]
  · rfl
  · intro c hc
    rw [(Bool.or_eq_false_iff.1 (h c hc)).2]
    rfl

end ArgusSbomGuard
