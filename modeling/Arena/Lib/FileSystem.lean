import Arena.Lib.Text

/-!
# Paths in a file system

A file system without symbolic links, by the canonical paths of its entries, and what the operating system
makes of a path: each name is looked up in the directory so far, and `..` leads to the parent. A path is a
list of names; `pathParts` and `joinPaths` are how `pathlib` gets one from a text.

Permissions and the length of names are left out: every directory can be searched, every file read, and a
name that no entry has is a missing one.
-/

namespace Arena.Lib

inductive Entry (β : Type) where
  | file (content : β)
  | dir
  deriving DecidableEq

/-- What is there, from the root on. -/
structure FileSystem (β : Type) where
  entry : List (List Char) → Option (Entry β)
  root : entry [] = some .dir
  parent : ∀ path name, (entry (path ++ [name])).isSome → entry path = some .dir
  names : ∀ path name, (entry (path ++ [name])).isSome → PlainElement name

/-- The names of a path, as `pathlib` reads them. -/
def pathParts (s : List Char) : List (List Char) := (s.splitOn '/').filter fun e => e ≠ [] && e ≠ ['.']

/-- `base / s`. -/
def joinPaths (base : List (List Char)) (s : List Char) : List (List Char) :=
  if s.head? = some '/' then pathParts s else base ++ pathParts s

namespace FileSystem

variable {β : Type} {fs : FileSystem β} {path base names p : List (List Char)} {name : List Char}

/-- One name, looked up in a directory. -/
def enter (fs : FileSystem β) (path : List (List Char)) (name : List Char) : Option (List (List Char)) :=
  match fs.entry path with
  | some .dir =>
    if name = ['.', '.'] then some path.dropLast
    else if name = [] ∨ name = ['.'] then some path
    else (fs.entry (path ++ [name])).map fun _ => path ++ [name]
  | _ => none

/-- The canonical path of what a path leads to. -/
def resolve (fs : FileSystem β) (path : List (List Char)) : List (List Char) → Option (List (List Char))
  | [] => some path
  | name :: names => (fs.enter path name).bind fun next => fs.resolve next names

/-- The file that a path from the root leads to. -/
def file? (fs : FileSystem β) (names : List (List Char)) : Option (List (List Char) × β) :=
  (fs.resolve [] names).bind fun path => match fs.entry path with
    | some (.file content) => some (path, content)
    | _ => none

theorem resolve_append {names' : List (List Char)} :
    fs.resolve path (names ++ names') = (fs.resolve path names).bind fun next => fs.resolve next names' := by
  induction names generalizing path with
  | nil => rfl
  | cons name names ih =>
    rw [List.cons_append, resolve, resolve, Option.bind_assoc]
    exact congrArg _ (funext fun next => ih)

/-- What has an entry below it is a directory. -/
theorem dir_of_below (ne : names ≠ []) (there : (fs.entry (path ++ names)).isSome) : fs.entry path = some .dir := by
  induction names using List.reverseRecOn with
  | nil => exact absurd rfl ne
  | append_singleton names name ih =>
    have above : fs.entry (path ++ names) = some .dir := fs.parent _ name (by rwa [List.append_assoc])
    by_cases last : names = []
    · rwa [last, List.append_nil] at above
    · exact ih last (by rw [above]; rfl)

theorem plain_of_entry {entry : Entry β} (there : fs.entry names = some entry) : ∀ e ∈ names, PlainElement e := by
  induction names using List.reverseRecOn generalizing entry with
  | nil => exact fun e mem => absurd mem List.not_mem_nil
  | append_singleton names name ih =>
    have isSome : (fs.entry (names ++ [name])).isSome := by rw [there]; rfl
    intro e mem
    rcases List.mem_append.1 mem with mem | mem
    · exact ih (fs.parent names name isSome) e mem
    · exact List.mem_singleton.1 mem ▸ fs.names names name isSome

theorem enter_name (plain : PlainElement name) (there : (fs.entry (path ++ [name])).isSome) :
    fs.enter path name = some (path ++ [name]) := by
  obtain ⟨entry, found⟩ := Option.isSome_iff_exists.1 there
  rw [enter, fs.parent path name there]
  simp [plain.nonempty, plain.here, plain.up, found]

/-- **What is there is found** under its canonical path. -/
theorem resolve_canonical (there : (fs.entry (path ++ names)).isSome) :
    fs.resolve path names = some (path ++ names) := by
  induction names generalizing path with
  | nil => simp [resolve]
  | cons name names ih =>
    have rest : (fs.entry ((path ++ [name]) ++ names)).isSome := by simpa using there
    have here : (fs.entry (path ++ [name])).isSome := by
      by_cases last : names = []
      · simpa [last] using rest
      · rw [dir_of_below last rest]
        rfl
    rw [resolve, enter_name (fs.names path name here) here, Option.bind_some, ih rest]
    simp

/-- **Without `..` a path leads further down.** -/
theorem below_of_resolve (down : ['.', '.'] ∉ names) (found : fs.resolve path names = some p) : path <+: p := by
  induction names generalizing path with
  | nil =>
    obtain rfl := Option.some.inj found
    exact List.prefix_rfl
  | cons name names ih =>
    obtain ⟨next, entered, rest⟩ := Option.bind_eq_some_iff.1 found
    have further := ih (fun mem => down (List.mem_cons_of_mem _ mem)) rest
    refine List.IsPrefix.trans ?_ further
    have other : name ≠ ['.', '.'] := fun same => down (same ▸ List.mem_cons_self)
    unfold enter at entered
    split at entered
    · rw [if_neg other] at entered
      split at entered
      · exact Option.some.inj entered ▸ List.prefix_rfl
      · obtain ⟨-, -, rfl⟩ := Option.map_eq_some_iff.1 entered
        exact List.prefix_append ..
    · cases entered

/-- Enough of `..` leads to the root. -/
theorem resolve_up (isDir : fs.entry path = some .dir) :
    fs.resolve path (List.replicate path.length ['.', '.']) = some [] := by
  induction path using List.reverseRecOn with
  | nil => rfl
  | append_singleton path name ih =>
    have above : fs.entry path = some .dir := fs.parent path name (by rw [isDir]; rfl)
    have entered : fs.enter (path ++ [name]) ['.', '.'] = some path := by
      rw [enter, isDir]
      simp
    rw [List.length_append, List.length_singleton, List.replicate_succ, resolve, entered, Option.bind_some, ih above]

theorem file?_eq_some {file : List (List Char) × β} :
    fs.file? names = some file ↔ fs.resolve [] names = some file.1 ∧ fs.entry file.1 = some (.file file.2) := by
  rw [file?, Option.bind_eq_some_iff]
  constructor
  · rintro ⟨path, led, found⟩
    split at found
    · rename_i content there
      cases found
      exact ⟨led, there⟩
    · cases found
  · rintro ⟨led, there⟩
    exact ⟨file.1, led, by rw [there]⟩

theorem file?_canonical {content : β} (there : fs.entry path = some (.file content)) :
    fs.file? path = some (path, content) := by
  have found : fs.resolve [] path = some path := resolve_canonical (by rw [List.nil_append, there]; rfl)
  exact file?_eq_some.2 ⟨found, there⟩

/-! ## A file system of given files -/

section OfFiles

variable {files : List (List (List Char) × β)}

/-- The files and the directories above them. -/
def fileEntry (files : List (List (List Char) × β)) (path : List (List Char)) : Option (Entry β) :=
  match files.lookup path with
  | some content => some (.file content)
  | none => if path = [] ∨ ∃ f ∈ files, path <+: f.1 then some .dir else none

theorem mem_of_lookup {content : β} (found : files.lookup path = some content) : (path, content) ∈ files := by
  obtain ⟨before, after, rfl, -⟩ := List.lookup_eq_some_iff.1 found
  simp

theorem below_of_fileEntry (there : (fileEntry files (path ++ [name])).isSome) :
    ∃ f ∈ files, path ++ [name] <+: f.1 := by
  unfold fileEntry at there
  split at there
  · rename_i content found
    exact ⟨_, mem_of_lookup found, List.prefix_rfl⟩
  · split at there
    · rename_i given
      exact given.resolve_left (by simp)
    · cases there

/-- Every file has a name, and none is a directory of another one. -/
def filesApart (files : List (List (List Char) × β)) : Bool :=
  files.all fun f => f.1 ≠ [] && (f.1.all fun e => e ≠ [] && e ≠ ['.'] && e ≠ ['.', '.'] && '/' ∉ e) &&
    files.all fun g => !f.1.isPrefixOf g.1 || f.1 = g.1

theorem named_of_apart (apart : filesApart files = true) {f : List (List Char) × β} (mem : f ∈ files) :
    f.1 ≠ [] ∧ (∀ e ∈ f.1, PlainElement e) ∧ ∀ g ∈ files, f.1 <+: g.1 → f.1 = g.1 := by
  have each := List.all_eq_true.1 apart f mem
  simp only [Bool.and_eq_true, decide_eq_true_eq, List.all_eq_true, Bool.or_eq_true, Bool.not_eq_true',
    ← Bool.not_eq_true, List.isPrefixOf_iff_prefix] at each
  obtain ⟨⟨named, plain⟩, apart⟩ := each
  refine ⟨named, fun e mem => ?_, fun g mem under => (apart g mem).resolve_left (not_not_intro under)⟩
  obtain ⟨⟨⟨nonempty, here⟩, up⟩, whole⟩ := plain e mem
  exact ⟨nonempty, here, up, whole⟩

theorem fileEntry_dir (apart : filesApart files = true) {f : List (List Char) × β}
    (mem : f ∈ files) (under : path ++ [name] <+: f.1) : fileEntry files path = some .dir := by
  have above : path <+: f.1 := (List.prefix_append ..).trans under
  unfold fileEntry
  split
  · rename_i content found
    have same : path = f.1 := (named_of_apart apart (mem_of_lookup found)).2.2 f mem above
    have longer : (path ++ [name]).length ≤ f.1.length := under.length_le
    rw [List.length_append, same, List.length_singleton] at longer
    omega
  · rw [if_pos (.inr ⟨f, mem, above⟩)]

def ofFiles (files : List (List (List Char) × β)) (apart : filesApart files = true) : FileSystem β where
  entry := fileEntry files
  root := by
    unfold fileEntry
    split
    · rename_i content found
      exact absurd rfl (named_of_apart apart (mem_of_lookup found)).1
    · rw [if_pos (.inl rfl)]
  parent path name there := by
    obtain ⟨f, mem, under⟩ := below_of_fileEntry there
    exact fileEntry_dir apart mem under
  names path name there := by
    obtain ⟨f, mem, under⟩ := below_of_fileEntry there
    exact (named_of_apart apart mem).2.1 name (under.subset (by simp))

end OfFiles

end FileSystem

/-! ## Paths from texts -/

theorem head?_intercalate {c : Char} {name : List Char} {names : List (List Char)} :
    (['/'].intercalate ((c :: name) :: names)).head? = some c := by
  cases names with
  | nil => simp
  | cons next names =>
    rw [List.intercalate_cons_of_ne_nil (by simp)]
    rfl

theorem pathParts_of_splitOn {s : List Char} {names : List (List Char)} (split : s.splitOn '/' = names)
    (kept : ∀ e ∈ names, e ≠ [] ∧ e ≠ ['.']) : pathParts s = names := by
  rw [pathParts, split]
  exact List.filter_eq_self.2 fun e mem => by simp [kept e mem]

theorem pathParts_intercalate {names : List (List Char)} (ne : names ≠ []) (whole : ∀ e ∈ names, '/' ∉ e)
    (kept : ∀ e ∈ names, e ≠ [] ∧ e ≠ ['.']) : pathParts (['/'].intercalate names) = names :=
  pathParts_of_splitOn (List.splitOn_intercalate '/' whole ne) kept

theorem pathParts_joinPath {names : List (List Char)} (ne : names ≠ []) (whole : ∀ e ∈ names, '/' ∉ e)
    (kept : ∀ e ∈ names, e ≠ [] ∧ e ≠ ['.']) : pathParts (joinPath names) = names := by
  rw [pathParts, splitOn_joinPath ne whole, List.filter_cons_of_neg (by simp)]
  exact List.filter_eq_self.2 fun e mem => by simp [kept e mem]

end Arena.Lib
