import Mathlib.Data.List.DropRight

/-!
# Stripping, splitting and cleaning text

Text is a list of characters. `strip`, `lstrip` and `rstrip` remove the characters of a
set from the ends, as the string methods of that name do; splitting at a separator is
`List.splitOn`. `cleanPath` is the canonical form of a URL path that Go's `net/http` uses.
-/

namespace Arena.Lib

variable {α : Type*}

/-- Drop the longest prefix of characters in `p`. -/
def lstrip (p : α → Bool) (s : List α) : List α := s.dropWhile p

/-- Drop the longest suffix of characters in `p`. -/
def rstrip (p : α → Bool) (s : List α) : List α := s.rdropWhile p

/-- Drop characters in `p` from both ends. -/
def strip (p : α → Bool) (s : List α) : List α := rstrip p (lstrip p s)

/-- Remove one leading occurrence of `pre`, if there is one. -/
def trimPrefix [DecidableEq α] (pre s : List α) : List α :=
  if pre <+: s then s.drop pre.length else s

/-- Cut at the last separator, as `rsplit(sep, 1)` does. -/
def cutLast [DecidableEq α] (sep : α) : List α → Option (List α × List α)
  | [] => none
  | c :: s => match cutLast sep s with
    | some (before, after) => some (c :: before, after)
    | none => if c = sep then some ([], s) else none

/-- Cut at the first separator, as `partition(sep)` does. -/
def cutFirst [DecidableEq α] (sep : α) : List α → List α × Option (List α)
  | [] => ([], none)
  | c :: s =>
    if c = sep then ([], some s)
    else
      let (before, after) := cutFirst sep s
      (c :: before, after)

/-- The characters that Python's `str.strip()` removes (`str.isspace`). -/
def isSpace (c : Char) : Bool :=
  let n := c.toNat
  (9 ≤ n && n ≤ 13) || (28 ≤ n && n ≤ 32) || n == 0x85 || n == 0xA0 || n == 0x1680 ||
    (0x2000 ≤ n && n ≤ 0x200A) || n == 0x2028 || n == 0x2029 || n == 0x202F || n == 0x205F ||
    n == 0x3000

/-- `s.strip()`. -/
def stripSpaces (s : String) : String := String.ofList (strip isSpace s.toList)

variable {p : α → Bool} {s t : List α}

/-- A property of the members of a list, checked member by member. -/
theorem forall_mem_of_check {α : Type*} {p : α → Prop} [DecidablePred p] {l : List α}
    (check : (l.all fun a => decide (p a)) = true) : ∀ a ∈ l, p a := by
  simpa using check

theorem cutLast_eq_none_iff [DecidableEq α] {sep : α} : cutLast sep s = none ↔ sep ∉ s := by
  induction s with
  | nil => simp [cutLast]
  | cons c s ih =>
    cases h : cutLast sep s with
    | some parts => simp [cutLast, h, ← not_iff_not.2 ih]
    | none => simp [cutLast, h, ih.1 h, eq_comm]

theorem cutLast_eq_some_iff [DecidableEq α] {sep : α} {before after : List α} :
    cutLast sep s = some (before, after) ↔ s = before ++ sep :: after ∧ sep ∉ after := by
  induction s generalizing before after with
  | nil => simp [cutLast]
  | cons c s ih =>
    cases h : cutLast sep s with
    | some parts =>
      obtain ⟨a, b⟩ := parts
      have here := ih.1 h
      simp only [cutLast, h, Option.some.injEq, Prod.mk.injEq]
      constructor
      · rintro ⟨rfl, rfl⟩
        exact ⟨by rw [here.1]; rfl, here.2⟩
      · rintro ⟨eq, clean⟩
        cases before with
        | nil =>
          -- a later separator contradicts that what follows the cut has none
          simp only [List.nil_append, List.cons.injEq] at eq
          exact absurd (eq.2 ▸ here.1 ▸ by simp : sep ∈ after) clean
        | cons a' before =>
          simp only [List.cons_append, List.cons.injEq] at eq
          have same := h.symm.trans (ih.2 ⟨eq.2, clean⟩)
          simp only [Option.some.injEq, Prod.mk.injEq] at same
          exact ⟨by rw [eq.1, same.1], same.2⟩
    | none =>
      have none_left := cutLast_eq_none_iff.1 h
      simp only [cutLast, h]
      constructor
      · intro cut
        split at cut
        · rename_i same
          cases cut
          exact ⟨by rw [same]; rfl, none_left⟩
        · cases cut
      · rintro ⟨eq, clean⟩
        cases before with
        | nil =>
          simp only [List.nil_append, List.cons.injEq] at eq
          rw [if_pos eq.1, eq.2]
        | cons a' before =>
          simp only [List.cons_append, List.cons.injEq] at eq
          exact absurd (eq.2 ▸ by simp : sep ∈ s) none_left

theorem cutFirst_of_notMem [DecidableEq α] {sep : α} (h : sep ∉ s) : cutFirst sep s = (s, none) := by
  induction s with
  | nil => rfl
  | cons c s ih =>
    have other : c ≠ sep := by rintro rfl; simp at h
    rw [cutFirst, if_neg other, ih (by simp_all)]

theorem cutFirst_append [DecidableEq α] {sep : α} (h : sep ∉ s) :
    cutFirst sep (s ++ sep :: t) = (s, some t) := by
  induction s with
  | nil => simp [cutFirst]
  | cons c s ih =>
    have other : c ≠ sep := by rintro rfl; simp at h
    rw [List.cons_append, cutFirst, if_neg other, ih (by simp_all)]

/-- A part without the separator stays in front of the cut. -/
theorem cutFirst_append_left [DecidableEq α] {sep : α} (h : sep ∉ s) :
    cutFirst sep (s ++ t) = (s ++ (cutFirst sep t).1, (cutFirst sep t).2) := by
  induction s with
  | nil => rfl
  | cons c s ih =>
    have other : c ≠ sep := by rintro rfl; simp at h
    rw [List.cons_append, cutFirst, if_neg other, ih (by simp_all)]
    rfl

/-- What a cut leaves: the separator is in neither the first part nor a text that was not cut. -/
theorem cutFirst_spec [DecidableEq α] {sep : α} {before : List α} {after : Option (List α)}
    (h : cutFirst sep s = (before, after)) :
    sep ∉ before ∧ s = before ++ after.elim [] (sep :: ·) := by
  by_cases mem : sep ∈ s
  · obtain ⟨first, rest, rfl, clean⟩ := List.eq_append_cons_of_mem mem
    rw [cutFirst_append clean] at h
    cases h
    exact ⟨clean, rfl⟩
  · rw [cutFirst_of_notMem mem] at h
    cases h
    exact ⟨mem, by simp⟩

theorem rstrip_of_last (h : s ≠ []) (last : ¬ p (s.getLast h)) : rstrip p s = s :=
  List.rdropWhile_eq_self_iff.2 fun _ => last

theorem lstrip_of_head (h : s ≠ []) (first : ¬ p (s.head h)) : lstrip p s = s := by
  cases s with
  | nil => rfl
  | cons a s =>
    have keep : p a = false := by simpa using first
    simp [lstrip, keep]

/-- Stripping the left end stops inside the first part when that has a kept character. -/
theorem lstrip_append (h : lstrip p s ≠ []) : lstrip p (s ++ t) = lstrip p s ++ t := by
  simp only [lstrip, List.dropWhile_append] at *
  simp [h]

/-- A suffix of stripped characters goes whole. -/
theorem rstrip_append_of_all (all : ∀ c ∈ t, p c = true) : rstrip p (s ++ t) = rstrip p s := by
  simp only [rstrip, List.rdropWhile, List.reverse_append]
  rw [List.dropWhile_append_of_pos (by simpa using all)]

/-- Text that ends in no stripped character keeps something of each of its suffixes. -/
theorem lstrip_ne_nil_of_rstrip (same : rstrip p (s ++ t) = s ++ t) (ne : t ≠ []) :
    lstrip p t ≠ [] := by
  intro gone
  have all : ∀ c ∈ t, p c = true := by simpa [lstrip, List.dropWhile_eq_nil_iff] using gone
  have shorter : (rstrip p s).length ≤ s.length := (List.rdropWhile_prefix p s).length_le
  have longer := congrArg List.length same
  rw [rstrip_append_of_all all, List.length_append] at longer
  have := List.length_pos_of_ne_nil ne
  omega

/-- A kept first character stays the first. -/
theorem head?_strip_cons {a : α} (keep : p a = false) : (strip p (a :: s)).head? = some a := by
  have whole : lstrip p (a :: s) = a :: s := lstrip_of_head (by simp) (by simp [keep])
  have ne : rstrip p (a :: s) ≠ [] := fun gone =>
    absurd (List.rdropWhile_eq_nil_iff.1 gone a (by simp)) (by simp [keep])
  obtain ⟨b, t, eq⟩ := List.exists_cons_of_ne_nil ne
  have front : b :: t <+: a :: s := eq ▸ List.rdropWhile_prefix p (a :: s)
  rw [strip, whole, eq, List.head?_cons, (List.cons_prefix_cons.1 front).1]

theorem trimPrefix_append [DecidableEq α] : trimPrefix s (s ++ t) = t := by
  simp [trimPrefix]

/-! ## Stripping both ends -/

theorem mem_of_mem_strip {a : α} (h : a ∈ strip p s) : a ∈ s :=
  (List.dropWhile_suffix p).subset ((List.rdropWhile_prefix p (lstrip p s)).subset h)

/-- A character that is not stripped stays, wherever it stands. -/
theorem mem_strip {a : α} (kept : p a = false) : a ∈ strip p s ↔ a ∈ s := by
  refine ⟨mem_of_mem_strip, fun mem => ?_⟩
  -- the parts that are dropped have stripped characters only
  have left : a ∈ lstrip p s := by
    rw [← List.takeWhile_append_dropWhile (p := p) (l := s)] at mem
    exact (List.mem_append.1 mem).resolve_left fun front => by simp [List.mem_takeWhile_imp front] at kept
  rw [strip, rstrip, List.rdropWhile, List.mem_reverse]
  have back := List.mem_reverse.2 left
  rw [← List.takeWhile_append_dropWhile (p := p) (l := (lstrip p s).reverse)] at back
  exact (List.mem_append.1 back).resolve_left fun front => by simp [List.mem_takeWhile_imp front] at kept

theorem strip_eq_nil_iff : strip p s = [] ↔ ∀ a ∈ s, p a = true := by
  constructor
  · intro gone a mem
    by_contra kept
    have there := (mem_strip (by simpa using kept)).2 mem
    rw [gone] at there
    cases there
  · intro all
    have nothing : lstrip p s = [] := by simpa [lstrip, List.dropWhile_eq_nil_iff] using all
    rw [strip, nothing]
    rfl

theorem length_strip_le : (strip p s).length ≤ s.length :=
  (List.rdropWhile_prefix p (lstrip p s)).length_le.trans (List.dropWhile_suffix p).length_le

/-- A text that stripping leaves alone loses nothing at the left end, and nothing at the right. -/
theorem lstrip_of_strip (same : strip p s = s) : lstrip p s = s := by
  have shorter : (strip p s).length ≤ (lstrip p s).length := (List.rdropWhile_prefix p _).length_le
  rw [same] at shorter
  exact (List.dropWhile_suffix p).eq_of_length_le shorter

theorem rstrip_of_strip (same : strip p s = s) : rstrip p s = s := by
  have both := same
  rwa [strip, lstrip_of_strip same] at both

/-- A text with kept characters at both ends is stripped. -/
theorem strip_of_ends (ne : s ≠ []) (first : ¬ p (s.head ne)) (last : ¬ p (s.getLast ne)) :
    strip p s = s := by
  rw [strip, lstrip_of_head ne first, rstrip_of_last ne last]

@[simp] theorem strip_strip : strip p (strip p s) = strip p s := by
  by_cases ne : strip p s = []
  · rw [ne]
    rfl
  · have front : strip p s <+: lstrip p s := List.rdropWhile_prefix p (lstrip p s)
    have whole : lstrip p s ≠ [] := fun nil => ne (List.prefix_nil.1 (nil ▸ front))
    refine strip_of_ends ne ?_ (List.rdropWhile_last_not p (lstrip p s) ne)
    rw [front.head ne]
    exact Bool.not_eq_true _ ▸ List.head_dropWhile_not p whole

/-! ## Splitting -/

/-- The parts of a split have no separator. -/
theorem false_of_mem_splitOnP {part : List α} (mem : part ∈ s.splitOnP p) : ∀ c ∈ part, p c = false := by
  induction s generalizing part with
  | nil => simp_all
  | cons c s ih =>
    rw [List.splitOnP_cons_eq_if_modifyHead] at mem
    split at mem
    · rcases List.mem_cons.1 mem with rfl | mem
      · simp
      · exact ih mem
    · rename_i other
      obtain ⟨first, rest, parts⟩ := List.exists_cons_of_ne_nil (List.splitOnP_ne_nil p s)
      rw [parts] at mem ih
      rcases List.mem_cons.1 mem with rfl | mem
      · intro d there
        rcases List.mem_cons.1 there with rfl | there
        · exact Bool.not_eq_true _ ▸ other
        · exact ih List.mem_cons_self d there
      · exact ih (List.mem_cons_of_mem _ mem)

/-- A map that keeps the separators keeps the parts. -/
theorem splitOn_map [DecidableEq α] {f : α → α} {sep : α} (same : ∀ c, f c = sep ↔ c = sep) (s : List α) :
    (s.map f).splitOn sep = (s.splitOn sep).map (List.map f) := by
  induction s with
  | nil => simp
  | cons c s ih =>
    rw [List.map_cons, List.splitOn_cons_eq_if_modifyHead, List.splitOn_cons_eq_if_modifyHead, ih]
    by_cases here : c = sep
    · simp [here, (same sep).2 rfl]
    · have other : ¬ f c = sep := fun eq => here ((same c).1 eq)
      obtain ⟨first, rest, parts⟩ := List.exists_cons_of_ne_nil (List.splitOn_ne_nil sep s)
      simp [here, other, parts]

/-- Splitting parts that were joined with a separator splits each of them. -/
theorem splitOnP_intercalate_flatMap {sep : α} (cuts : p sep) {parts : List (List α)} (ne : parts ≠ []) :
    ([sep].intercalate parts).splitOnP p = parts.flatMap (·.splitOnP p) := by
  induction parts with
  | nil => exact absurd rfl ne
  | cons part parts ih =>
    cases parts with
    | nil => simp [List.intercalate]
    | cons next parts =>
      have joined : [sep].intercalate (part :: next :: parts) =
          part ++ sep :: [sep].intercalate (next :: parts) := by
        simp [List.intercalate]
      rw [joined, List.splitOnP_append_cons _ _ cuts, ih (by simp)]
      rfl

theorem splitOn_intercalate_flatMap [DecidableEq α] {sep : α} {parts : List (List α)}
    (ne : parts ≠ []) : ([sep].intercalate parts).splitOn sep = parts.flatMap (·.splitOn sep) := by
  simp only [List.splitOn_eq_splitOnP]
  exact splitOnP_intercalate_flatMap (p := (· == sep)) (beq_self_eq_true sep) ne

/-- A character of joined texts is one of a text or of the separator. -/
theorem mem_intercalate {α : Type*} {sep : List α} {parts : List (List α)} {c : α}
    (mem : c ∈ sep.intercalate parts) : c ∈ sep ∨ ∃ part ∈ parts, c ∈ part := by
  induction parts with
  | nil => simp at mem
  | cons part parts ih =>
    by_cases last : parts = []
    · subst last
      exact .inr ⟨part, by simp, by simpa using mem⟩
    · rw [List.intercalate_cons_of_ne_nil last, List.mem_append, List.mem_append] at mem
      rcases mem with (mem | mem) | mem
      · exact .inr ⟨part, by simp, mem⟩
      · exact .inl mem
      · rcases ih mem with mem | ⟨other, there, mem⟩
        · exact .inl mem
        · exact .inr ⟨other, by simp [there], mem⟩

/-- Split at each separator of two characters. -/
def splitPair [DecidableEq α] (a b : α) : List α → List (List α)
  | [] => [[]]
  | [c] => [[c]]
  | c :: d :: s =>
    if c = a ∧ d = b then [] :: splitPair a b s else (splitPair a b (d :: s)).modifyHead (c :: ·)

theorem splitPair_of_notMem [DecidableEq α] {a b : α} (clean : a ∉ s) : splitPair a b s = [s] := by
  induction s using splitPair.induct (a := a) (b := b) with
  | case1 | case2 => rfl
  | case3 c d s here => exact absurd (here.1 ▸ List.mem_cons_self) clean
  | case4 c d s other ih =>
    rw [splitPair, if_neg other, ih fun mem => clean (List.mem_cons_of_mem c mem)]
    rfl

theorem splitPair_append [DecidableEq α] {a b : α} (clean : a ∉ s) :
    splitPair a b (s ++ a :: b :: t) = s :: splitPair a b t := by
  induction s with
  | nil => rw [List.nil_append, splitPair, if_pos ⟨rfl, rfl⟩]
  | cons c s ih =>
    have other : c ≠ a := fun same => clean (same ▸ List.mem_cons_self)
    have rest := ih fun mem => clean (List.mem_cons_of_mem c mem)
    obtain ⟨d, later, next⟩ := List.exists_cons_of_ne_nil (l := s ++ a :: b :: t) (by simp)
    rw [List.cons_append, next, splitPair, if_neg (fun both => other both.1), ← next, rest]
    rfl

/-- Splitting what was joined gives the parts back. -/
theorem splitPair_intercalate [DecidableEq α] {a b : α} {parts : List (List α)} (ne : parts ≠ [])
    (clean : ∀ part ∈ parts, a ∉ part) : splitPair a b ([a, b].intercalate parts) = parts := by
  induction parts with
  | nil => exact absurd rfl ne
  | cons part parts ih =>
    have here : a ∉ part := clean part List.mem_cons_self
    by_cases last : parts = []
    · subst last
      simpa using splitPair_of_notMem here
    · rw [List.intercalate_cons_of_ne_nil last, List.append_assoc, List.cons_append, List.cons_append,
        List.nil_append, splitPair_append here, ih last fun part mem => clean part (List.mem_cons_of_mem _ mem)]

/-! ## Paths -/

/-- One element of a rooted path under `path.Clean`: empty and `.` elements are dropped, `..`
drops the element before it. -/
def cleanElement (kept : List (List Char)) (e : List Char) : List (List Char) :=
  if e = [] ∨ e = ['.'] then kept
  else if e = ['.', '.'] then kept.dropLast
  else kept ++ [e]

/-- A path from its elements. -/
def joinPath (elements : List (List Char)) : List Char := '/' :: ['/'].intercalate elements

/-- `cleanPath` of `net/http`: `path.Clean` of the rooted path, with a trailing slash put back. -/
def cleanPath (s : List Char) : List Char :=
  let rooted := if s.head? = some '/' then s else '/' :: s
  let np := joinPath ((rooted.splitOn '/').foldl cleanElement [])
  if rooted.getLast? = some '/' ∧ np ≠ ['/'] then np ++ ['/'] else np

/-- An element that cleaning keeps and that does not split. -/
structure PlainElement (e : List Char) : Prop where
  nonempty : e ≠ []
  here : e ≠ ['.']
  up : e ≠ ['.', '.']
  whole : '/' ∉ e

theorem joinPath_eq (e : List Char) (es : List (List Char)) :
    joinPath (e :: es) = ['/'].intercalate ([] :: e :: es) := by
  simp [joinPath, List.intercalate, List.intersperse]

theorem splitOn_joinPath {es : List (List Char)} (ne : es ≠ []) (plain : ∀ e ∈ es, '/' ∉ e) :
    (joinPath es).splitOn '/' = [] :: es := by
  obtain ⟨e, es, rfl⟩ := List.exists_cons_of_ne_nil ne
  rw [joinPath_eq]
  exact List.splitOn_intercalate '/' (by simpa using plain) (by simp)

theorem foldl_cleanElement {es kept : List (List Char)} (plain : ∀ e ∈ es, PlainElement e) :
    es.foldl cleanElement kept = kept ++ es := by
  induction es generalizing kept with
  | nil => simp
  | cons e es ih =>
    have he := plain e (by simp)
    have step : cleanElement kept e = kept ++ [e] := by
      simp [cleanElement, he.nonempty, he.here, he.up]
    rw [List.foldl_cons, step, ih fun e' h => plain e' (by simp [h])]
    simp

/-- The last character of a path is that of its last element. -/
theorem getLast?_joinPath {es : List (List Char)} {e : List Char} (ne : e ≠ []) :
    (joinPath (es ++ [e])).getLast? = e.getLast? := by
  induction es with
  | nil => cases e <;> simp_all [joinPath, List.intercalate]
  | cons a es ih =>
    obtain ⟨b, rest, hb⟩ := List.exists_cons_of_ne_nil (l := es ++ [e]) (by simp)
    have split : joinPath (a :: es ++ [e]) = ('/' :: a) ++ joinPath (es ++ [e]) := by
      simp [joinPath, List.intercalate, hb]
    rw [split, List.getLast?_append, ih]
    cases h : e.getLast? with
    | none => exact absurd (List.getLast?_eq_none_iff.1 h) ne
    | some c => rfl

/-- **A path of plain elements is clean.** -/
theorem cleanPath_joinPath {es : List (List Char)} (ne : es ≠ []) (plain : ∀ e ∈ es, PlainElement e) :
    cleanPath (joinPath es) = joinPath es := by
  have split := splitOn_joinPath ne fun e he => (plain e he).whole
  have cleaned : ((joinPath es).splitOn '/').foldl cleanElement [] = es := by
    rw [split, List.foldl_cons, foldl_cleanElement plain]
    simp [cleanElement]
  have rooted : (joinPath es).head? = some '/' := rfl
  have open_end : (joinPath es).getLast? ≠ some '/' := by
    obtain ⟨es, e, rfl⟩ := (List.eq_nil_or_concat' es).resolve_left ne
    have he := plain e (by simp)
    rw [getLast?_joinPath he.nonempty]
    exact fun h => he.whole (List.mem_of_getLast? h)
  simp only [cleanPath, rooted, if_true, cleaned, open_end, false_and, if_false]

end Arena.Lib
