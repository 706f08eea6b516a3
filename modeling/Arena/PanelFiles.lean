import Arena.Model.Frontend

/-!
# What the panel's page gives away

`frontend` joins the path of a request to the directory of the built panel and serves what it leads to. A
path that goes down stays in that directory; with `..`, or with a second slash in front, every file of the
system is served. The file system is one in which no entry is a symbolic link, every name can be looked up
and every file read.
-/

namespace Arena.PanelFiles

open Arena.Lib Arena.Model

variable {β : Type} {fs : FileSystem β} {dist names : List (List Char)} {path : List Char}
  {file : List (List Char) × β}

/-- A relative path without `..`. -/
structure Downward (path : List Char) : Prop where
  relative : path.head? ≠ some '/'
  noParent : ['.', '.'] ∉ pathParts path

theorem frontend_eq_ok (served : frontend fs dist path = .ok file) :
    fs.file? (joinPaths dist path) = some file ∨ fs.file? (joinPaths dist "index.html".toList) = some file := by
  unfold frontend at served
  split at served
  · cases served
  · split at served
    · rename_i target found
      cases served
      unfold frontendTarget at found
      split at found
      · cases found
      · exact .inl found
    · split at served
      · rename_i page found
        cases served
        exact .inr found
      · cases served

/-- What is served is a file of the system. -/
theorem entry_of_served (served : frontend fs dist path = .ok file) : fs.entry file.1 = some (.file file.2) := by
  rcases frontend_eq_ok served with found | found <;> exact (FileSystem.file?_eq_some.1 found).2

theorem frontend_of_file (other : apiPath path = false) (given : path ≠ [])
    (found : fs.file? (joinPaths dist path) = some file) : frontend fs dist path = .ok file := by
  rw [frontend, frontendTarget, if_neg (by simp [other]), if_neg given, found]

/-! ## Down -/

theorem below_dist (isDir : fs.entry dist = some .dir) (down : Downward path)
    (found : fs.file? (joinPaths dist path) = some file) : dist <+: file.1 := by
  have led := (FileSystem.file?_eq_some.1 found).1
  rw [joinPaths, if_neg down.relative, FileSystem.resolve_append,
    FileSystem.resolve_canonical (by rw [List.nil_append, isDir]; rfl), List.nil_append, Option.bind_some] at led
  exact FileSystem.below_of_resolve down.noParent led

theorem index_downward : Downward "index.html".toList where
  relative := by decide
  noParent := by decide

/-! ## Up -/

/-- No prefix of the API begins with another letter. -/
theorem apiPath_of_head {c : Char} (head : path.head? = some c) (a : 'a' ≠ c) (s : 's' ≠ c) :
    apiPath path = false := by
  obtain ⟨rest, rfl⟩ := List.head?_eq_some_iff.1 head
  simp [apiPath, List.isPrefixOf_cons_cons, beq_eq_false_iff_ne.2 a, beq_eq_false_iff_ne.2 s]

/-- The root is no file. -/
theorem ne_root (there : fs.entry file.1 = some (.file file.2)) : file.1 ≠ [] := by
  intro root
  rw [root, fs.root] at there
  cases there

/-- A second slash in front. -/
theorem served_absolute (there : fs.entry file.1 = some (.file file.2)) :
    frontend fs dist (joinPath file.1) = .ok file := by
  have plain := FileSystem.plain_of_entry there
  have parts : pathParts (joinPath file.1) = file.1 :=
    pathParts_joinPath (ne_root there) (fun e mem => (plain e mem).whole) fun e mem =>
      ⟨(plain e mem).nonempty, (plain e mem).here⟩
  have rooted : (joinPath file.1).head? = some '/' := rfl
  refine frontend_of_file (apiPath_of_head rooted (by decide) (by decide)) (by simp [joinPath]) ?_
  rw [joinPaths, if_pos rooted, parts]
  exact FileSystem.file?_canonical there

/-- The path that leaves the directory of the panel. -/
def upward (dist names : List (List Char)) : List Char :=
  ['/'].intercalate (List.replicate dist.length ['.', '.'] ++ names)

theorem head_upward (deep : dist ≠ []) : (upward dist names).head? = some '.' := by
  obtain ⟨first, rest, rfl⟩ := List.exists_cons_of_ne_nil deep
  rw [upward, List.length_cons, List.replicate_succ, List.cons_append, head?_intercalate]

theorem pathParts_upward (ne : names ≠ []) (plain : ∀ e ∈ names, PlainElement e) :
    pathParts (upward dist names) = List.replicate dist.length ['.', '.'] ++ names := by
  refine pathParts_intercalate (by simp [ne]) (fun e mem => ?_) fun e mem => ?_ <;>
    rcases List.mem_append.1 mem with mem | mem
  · rw [List.eq_of_mem_replicate mem]
    decide
  · exact (plain e mem).whole
  · rw [List.eq_of_mem_replicate mem]
    decide
  · exact ⟨(plain e mem).nonempty, (plain e mem).here⟩

/-- Up to the root, and down to any file. -/
theorem served_upward (isDir : fs.entry dist = some .dir) (deep : dist ≠ [])
    (there : fs.entry file.1 = some (.file file.2)) : frontend fs dist (upward dist file.1) = .ok file := by
  have head : (upward dist file.1).head? = some '.' := head_upward deep
  have given : upward dist file.1 ≠ [] := fun none => by simp [none] at head
  refine frontend_of_file (apiPath_of_head head (by decide) (by decide)) given ?_
  refine FileSystem.file?_eq_some.2 ⟨?_, there⟩
  rw [joinPaths, if_neg (by simp [head]), pathParts_upward (ne_root there) (FileSystem.plain_of_entry there),
    FileSystem.resolve_append, FileSystem.resolve_canonical (by rw [List.nil_append, isDir]; rfl), List.nil_append,
    Option.bind_some, FileSystem.resolve_append, FileSystem.resolve_up isDir, Option.bind_some]
  exact FileSystem.resolve_canonical (by rw [List.nil_append, there]; rfl)

/-! ## The panel's own files -/

theorem served_asset {content : β} (ne : names ≠ [])
    (there : fs.entry (dist ++ names) = some (.file content)) (other : apiPath (['/'].intercalate names) = false) :
    frontend fs dist (['/'].intercalate names) = .ok (dist ++ names, content) := by
  have plain : ∀ e ∈ names, PlainElement e := fun e mem =>
    FileSystem.plain_of_entry there e (List.mem_append_right _ mem)
  have parts : pathParts (['/'].intercalate names) = names :=
    pathParts_intercalate ne (fun e mem => (plain e mem).whole) fun e mem =>
      ⟨(plain e mem).nonempty, (plain e mem).here⟩
  obtain ⟨c, head, relative⟩ : ∃ c, (['/'].intercalate names).head? = some c ∧ c ≠ '/' := by
    obtain ⟨first, rest, rfl⟩ := List.exists_cons_of_ne_nil ne
    have mem : first ∈ first :: rest := List.mem_cons_self
    obtain ⟨c, first, rfl⟩ := List.exists_cons_of_ne_nil (plain first mem).nonempty
    exact ⟨c, head?_intercalate, fun slash => (plain _ mem).whole (slash ▸ List.mem_cons_self)⟩
  refine frontend_of_file other (fun none => by simp [none] at head) ?_
  rw [joinPaths, if_neg (by simpa [head] using relative), parts]
  exact FileSystem.file?_canonical there

/-- **What the panel gives away**, where nothing is a symbolic link, too long a name or unreadable: a file of the
panel is served under its name, and a path without `..` and without a second slash stays in the directory of
the panel. But through either of them every file of the system is served, and nothing else. -/
theorem panel_files (isDir : fs.entry dist = some .dir) (deep : dist ≠ []) :
    (∀ names content, names ≠ [] → fs.entry (dist ++ names) = some (.file content) →
      apiPath (['/'].intercalate names) = false →
      frontend fs dist (['/'].intercalate names) = .ok (dist ++ names, content)) ∧
    (∀ path file, Downward path → frontend fs dist path = .ok file → dist <+: file.1) ∧
    (∀ file : List (List Char) × β, fs.entry file.1 = some (.file file.2) ↔
      ∃ path, ['.', '.'] ∉ pathParts path ∧ frontend fs dist path = .ok file) ∧
    (∀ file : List (List Char) × β, fs.entry file.1 = some (.file file.2) ↔
      ∃ path, path.head? ≠ some '/' ∧ frontend fs dist path = .ok file) := by
  refine ⟨fun names content ne there other => served_asset ne there other, fun path file down served => ?_,
    fun file => ⟨fun there => ?_, ?_⟩, fun file => ⟨fun there => ?_, ?_⟩⟩
  · rcases frontend_eq_ok served with found | found
    · exact below_dist isDir down found
    · exact below_dist isDir index_downward found
  · refine ⟨joinPath file.1, fun up => ?_, served_absolute there⟩
    have plain := FileSystem.plain_of_entry there
    rw [pathParts_joinPath (ne_root there) (fun e mem => (plain e mem).whole) fun e mem =>
      ⟨(plain e mem).nonempty, (plain e mem).here⟩] at up
    exact (plain _ up).up rfl
  · rintro ⟨path, -, served⟩
    exact entry_of_served served
  · exact ⟨upward dist file.1, by simp [head_upward deep], served_upward isDir deep there⟩
  · rintro ⟨path, -, served⟩
    exact entry_of_served served

/-- The container's `/app/frontend/dist`. -/
def appDist : List (List Char) := ["app".toList, "frontend".toList, "dist".toList]

def appDatabase : List (List Char) := ["app".toList, "arena.db".toList]

/-- The panel's page, and the database in the working directory. -/
def container : FileSystem String :=
  .ofFiles [(appDist ++ ["index.html".toList], "page"), (appDatabase, "rows")] (by decide +kernel)

theorem panel_files_database :
    (∃ path, path.head? ≠ some '/' ∧ frontend container appDist path = .ok (appDatabase, "rows")) ∧
    ∀ path, Downward path → frontend container appDist path ≠ .ok (appDatabase, "rows") := by
  have isDir : container.entry appDist = some .dir := by decide +kernel
  have there : container.entry appDatabase = some (.file "rows") := by decide +kernel
  obtain ⟨-, down, -, up⟩ := panel_files isDir (by decide)
  refine ⟨(up _).1 there, fun path downward served => ?_⟩
  have below : appDist <+: appDatabase := down path _ downward served
  exact absurd below (by decide)

end Arena.PanelFiles
