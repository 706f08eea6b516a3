import Arena.Lib.Config
import Arena.Model.Files
import Arena.Model.Patches

/-!
# What a WireGuard file says

`wireguard_profile` writes one `[Interface]` and one `[Peer]` section, and the user's name in a
comment at the end. A name with a line break goes on after the comment: what follows the break
is read as settings, sections, or an error. The file is read line by line, for whatever a reader
takes for the end of a line.
-/

namespace Arena.WireguardFile

open Arena.Lib Arena.Model

variable {reader : ConfigReader} {format : Json → String} {user : User} {node : Node} {key : AccessKey} {text : String}
  {name : List Char}

/-- A value of the node's metadata, or the default. -/
def metadataOr (node : Node) (name : String) (default : Json) : Json :=
  ((node.metadata.get? name).toOption.bind id).getD default

def secretText (key : AccessKey) (name : String) : List Char :=
  ((key.secretPayload.lookup name).getD "").toList

/-- The settings of the `[Interface]` section: the key's and the node's. -/
def interfaceSettings (format : Json → String) (node : Node) (key : AccessKey) : List Setting :=
  [("PrivateKey".toList, secretText key "private_key"), ("Address".toList, secretText key "address"),
    ("DNS".toList, (format (metadataOr node "dns" (.str "1.1.1.1"))).toList)]

/-- The settings of the `[Peer]` section: the node's. -/
def peerSettings (format : Json → String) (node : Node) : List Setting :=
  [("PublicKey".toList, (format (metadataOr node "server_public_key" .null)).toList)] ++
    (if (metadataOr node "preshared_key" .null).truthy then
      [("PresharedKey".toList, (format (metadataOr node "preshared_key" .null)).toList)] else []) ++
    [("AllowedIPs".toList, (format (metadataOr node "allowed_ips" (.str "0.0.0.0/0, ::/0"))).toList),
      ("Endpoint".toList, (node.host ++ ":" ++ toString node.port).toList),
      ("PersistentKeepalive".toList, (format (metadataOr node "persistent_keepalive" (.num 25))).toList)]

/-- What the file should say. -/
def sections (format : Json → String) (node : Node) (key : AccessKey) : List ConfigSection :=
  [("Interface".toList, interfaceSettings format node key), ("Peer".toList, peerSettings format node)]

/-- Beyond its first line a name has nothing but blank lines and comments. -/
def Silent (reader : ConfigReader) (name : List Char) : Prop :=
  ∀ line ∈ (name.splitOnP reader.isBreak).tail, lineContent reader line = []

instance (name : List Char) : Decidable (Silent reader name) :=
  inferInstanceAs (Decidable (∀ _ ∈ _, _))

/-! ## The text -/

/-- The lines that are written, where a name may go on for several. -/
def fileLines (format : Json → String) (user : User) (node : Node) (key : AccessKey) :
    List (List Char) :=
  ["[Interface]".toList] ++ (interfaceSettings format node key).map (fun s => settingLine s.1 s.2) ++
    [[], "[Peer]".toList] ++ (peerSettings format node).map (fun s => settingLine s.1 s.2) ++
    [[], "# ARENA user: ".toList ++ user.name.toList]

theorem metadataOr_eq {name : String} {value : Option Json} (h : node.metadata.get? name = .ok value)
    (default : Json) : value.getD default = metadataOr node name default := by
  rw [metadataOr, h]
  rfl

theorem wireguardProfile_lines (ok : wireguardProfile format user node key = .ok text) :
    text.toList = ['\n'].intercalate (fileLines format user node key) ++ ['\n'] := by
  simp only [wireguardProfile] at ok
  split at ok
  · cases ok
  obtain ⟨serverKey, server, ok⟩ := bind_eq_ok.1 ok
  split at ok
  · cases ok
  split at ok
  · cases ok
  rename_i address found
  simp only [Json.getOr, bind_eq_ok] at ok
  obtain ⟨dns, ⟨dns', hdns, dnsEq⟩, shared, hshared, allowed, ⟨allowed', hallowed, allowedEq⟩, keep,
    ⟨keep', hkeep, keepEq⟩, ok⟩ := ok
  cases dnsEq
  cases allowedEq
  cases keepEq
  cases ok
  have given : shared.any Json.truthy = (metadataOr node "preshared_key" .null).truthy := by
    rw [← metadataOr_eq hshared]
    cases shared <;> rfl
  simp only [metadataOr_eq server, metadataOr_eq hdns, metadataOr_eq hshared, metadataOr_eq hallowed,
    metadataOr_eq hkeep, given]
  rw [String.toList_append, String.toList_intercalate]
  congr 2
  simp only [fileLines, interfaceSettings, peerSettings, secretText, found, Option.getD_some]
  split <;> simp [settingLine]

/-! ## The lines, read -/

/-- Every setting has a name that settings can have. -/
theorem named {setting : Setting}
    (mem : setting ∈ interfaceSettings format node key ++ peerSettings format node) :
    isKey setting.1 := by
  simp only [interfaceSettings, peerSettings, List.mem_append, List.mem_cons, List.not_mem_nil,
    or_false] at mem
  rcases mem with (rfl | rfl | rfl) | (rfl | mem) | rfl | rfl | rfl
  · rfl
  · rfl
  · rfl
  · rfl
  · split at mem
    · rw [List.mem_singleton.1 mem]
      rfl
    · cases mem
  · rfl
  · rfl
  · rfl

/-- What is read of lines that may have line breaks. -/
def readLines (reader : ConfigReader) (lines : List (List Char)) : List ConfigLine :=
  (lines.flatMap fun line => line.splitOnP reader.isBreak).map (parseLine reader)

theorem readLines_append {lines more : List (List Char)} :
    readLines reader (lines ++ more) = readLines reader lines ++ readLines reader more := by
  simp [readLines]

theorem readLines_header {t : List Char} (letters : t.all isGraphic) (uncommented : '#' ∉ t) :
    readLines reader [headerLine t] = [.header t] := by
  rw [readLines, List.flatMap_singleton, List.splitOnP_eq_singleton (headerLine_unbroken letters),
    List.map_singleton, parseLine_header uncommented]

/-- Plain settings are read as they are. -/
theorem readLines_settings {settings : List Setting} (named : ∀ s ∈ settings, isKey s.1)
    (plain : ∀ s ∈ settings, IsPlain reader s.2) :
    readLines reader (settings.map fun s => settingLine s.1 s.2) =
      settings.map fun s => .setting s.1 s.2 := by
  induction settings with
  | nil => rfl
  | cons setting settings ih =>
    have key := named setting (by simp)
    have value := plain setting (by simp)
    have rest := ih (fun s h => named s (by simp [h])) fun s h => plain s (by simp [h])
    rw [readLines] at rest ⊢
    rw [List.map_cons, List.flatMap_cons, List.map_append, rest,
      List.splitOnP_eq_singleton (settingLine_unbroken key value), List.map_singleton,
      parseLine_setting key value]
    rfl

/-- The lines that a name adds to the file, and the empty one after them. -/
def nameLines (reader : ConfigReader) (name : List Char) : List ConfigLine :=
  ((name.splitOnP reader.isBreak).tail ++ [[]]).map (parseLine reader)

/-- The text before the name is of graphic characters and spaces, which end no line. -/
theorem comment_unbroken : ∀ c ∈ "# ARENA user: ".toList, reader.isBreak c = false := by
  have letters : ("# ARENA user: ".toList.all fun c => c = ' ' || isGraphic c) = true := by decide +kernel
  intro c mem
  have letter := List.all_eq_true.1 letters c mem
  rw [Bool.or_eq_true, decide_eq_true_eq] at letter
  rcases letter with rfl | graphic
  · exact reader.space.1
  · exact (reader.graphic c graphic).1

/-- A text without a break goes before the first line. -/
theorem splitOnP_append {before first : List Char} {rest : List (List Char)}
    (unbroken : ∀ c ∈ before, reader.isBreak c = false)
    (parts : name.splitOnP reader.isBreak = first :: rest) :
    (before ++ name).splitOnP reader.isBreak = (before ++ first) :: rest := by
  induction before with
  | nil => exact parts
  | cons c before ih =>
    rw [List.cons_append, List.splitOnP_cons_eq_if_modifyHead,
      if_neg (Bool.not_eq_true _ ▸ unbroken c List.mem_cons_self),
      ih fun d mem => unbroken d (List.mem_cons_of_mem _ mem)]
    rfl

/-- The first line of the name's text is a comment. -/
theorem readLines_name :
    readLines reader ["# ARENA user: ".toList ++ name, []] = .blank :: nameLines reader name := by
  obtain ⟨first, rest, parts⟩ := List.exists_cons_of_ne_nil (List.splitOnP_ne_nil reader.isBreak name)
  simp only [readLines, List.flatMap_cons, splitOnP_append comment_unbroken parts, nameLines, parts]
  rfl

theorem nameLines_silent_iff :
    parseLines (nameLines reader name) = some ([], []) ↔ Silent reader name := by
  have blank : ∀ line, parseLine reader line = .blank ↔ lineContent reader line = [] := by
    intro line
    simp only [parseLine]
    split
    · simp_all
    · rename_i content
      simp only [content, iff_false]
      split
      · simp
      · split <;> simp
  simp only [parseLines_eq_nil_iff, nameLines, Silent, List.map_append, List.mem_append, List.mem_map,
    List.mem_singleton, or_imp, forall_and, List.map_singleton, forall_eq]
  constructor
  · rintro ⟨silent, -⟩ line mem
    exact (blank line).1 (silent _ ⟨line, mem, rfl⟩)
  · intro silent
    refine ⟨?_, rfl⟩
    rintro _ ⟨line, mem, rfl⟩
    exact (blank line).2 (silent line mem)

/-- What is read of a file with plain values: its sections, and what the name adds. -/
theorem parseLines_file
    (plain : ∀ s ∈ interfaceSettings format node key ++ peerSettings format node,
      IsPlain reader s.2) :
    parseLines (readLines reader (fileLines format user node key ++ [[]])) =
      (parseLines (nameLines reader user.name.toList)).map fun (own, more) =>
        ([], ("Interface".toList, interfaceSettings format node key) ::
          ("Peer".toList, peerSettings format node ++ own) :: more) := by
  have interface := readLines_settings (fun s h => named (List.mem_append_left _ h))
    fun s h => plain s (List.mem_append_left _ h)
  have peer := readLines_settings (fun s h => @named format node key s (List.mem_append_right _ h))
    fun s h => plain s (List.mem_append_right _ h)
  have first : readLines reader ["[Interface]".toList] = [.header "Interface".toList] :=
    readLines_header (t := "Interface".toList) (by decide +kernel) (by decide +kernel)
  have second : readLines reader [[], "[Peer]".toList] = [.blank, .header "Peer".toList] := by
    have title : readLines reader ["[Peer]".toList] = [.header "Peer".toList] :=
      readLines_header (t := "Peer".toList) (by decide +kernel) (by decide +kernel)
    rw [← List.singleton_append, readLines_append, title]
    rfl
  have last : readLines reader ([[], "# ARENA user: ".toList ++ user.name.toList] ++ [[]]) =
      .blank :: .blank :: nameLines reader user.name.toList := by
    have split : [[], "# ARENA user: ".toList ++ user.name.toList] ++ [[]] =
        [[]] ++ ["# ARENA user: ".toList ++ user.name.toList, []] := rfl
    rw [split, readLines_append, readLines_name]
    rfl
  rw [fileLines, List.append_assoc, readLines_append, readLines_append, readLines_append,
    readLines_append, first, interface, second, peer, last]
  simp only [List.append_assoc, List.cons_append, List.nil_append, parseLines, parseLines_settings,
    Option.map_map]
  cases parseLines (nameLines reader user.name.toList) with
  | none => rfl
  | some read => simp

/-- The file says what it should exactly when its values are plain and the name is silent. -/
theorem parseConfig_file_iff (ok : wireguardProfile format user node key = .ok text) :
    parseConfig reader text.toList = some (sections format node key) ↔
      (∀ s ∈ interfaceSettings format node key ++ peerSettings format node, IsPlain reader s.2) ∧
        Silent reader user.name.toList := by
  have lines : (text.toList.splitOnP reader.isBreak).map (parseLine reader) =
      readLines reader (fileLines format user node key ++ [[]]) := by
    have ne : fileLines format user node key ≠ [] := by simp [fileLines]
    rw [wireguardProfile_lines ok, List.splitOnP_append_cons _ _ reader.newline,
      splitOnP_intercalate_flatMap reader.newline ne, List.map_append, readLines_append]
    rfl
  have plain_of : parseConfig reader text.toList = some (sections format node key) →
      ∀ s ∈ interfaceSettings format node key ++ peerSettings format node, IsPlain reader s.2 := by
    intro read s mem
    have values := parseConfig_plain read
    rcases List.mem_append.1 mem with mem | mem
    · exact values _ List.mem_cons_self s mem
    · exact values _ (List.mem_cons_of_mem _ List.mem_cons_self) s mem
  by_cases plain : ∀ s ∈ interfaceSettings format node key ++ peerSettings format node,
      IsPlain reader s.2
  · rw [and_iff_right plain, parseConfig, lines, parseLines_file plain, ← nameLines_silent_iff]
    cases parseLines (nameLines reader user.name.toList) with
    | none => simp
    | some read => simp [sections, Prod.ext_iff]
  · exact iff_of_false (fun read => plain (plain_of read)) fun said => plain said.1

/-- **When a WireGuard file contains only what it should.** For every reader of the file and every
user, node and key of which one is written, it says its two sections and nothing else exactly when
every value can be one (nothing that ends a line for the reader, no comment and no white space at
its ends) and the name has nothing but blank lines and comments after its first line. -/
theorem wireguard_file_iff (reader : ConfigReader) (format : Json → String) (user : User)
    (node : Node) (key : AccessKey) (text : String)
    (ok : wireguardProfile format user node key = .ok text) :
    parseConfig reader text.toList = some (sections format node key) ↔
      (∀ s ∈ interfaceSettings format node key ++ peerSettings format node, IsPlain reader s.2) ∧
        Silent reader user.name.toList :=
  parseConfig_file_iff ok

/-- The node and the key of `test_wireguard_profile_contains_required_peer_fields`. -/
def wgNode : Node where
  id := "wg"
  name := "WG"
  slug := "wg-test"
  kind := .wireguard
  protocol := .wireguard
  transport := .external
  host := "wg.example.test"
  port := 51820
  metadata := .obj [("server_public_key", .str "server-public-key"), ("dns", .str "1.1.1.1"),
    ("allowed_ips", .str "0.0.0.0/0")]

def wgKey : AccessKey where
  id := "key"
  userId := "user"
  nodeId := "wg"
  credential := "client-public-key"
  secretPayload := [("private_key", "client-private-key"), ("address", "10.66.0.2/24")]

/-- An f-string of the values of that test. -/
def showJson : Json → String
  | .str s => s
  | .num n => toString n.num
  | _ => ""

def wireUser : User := { id := "user", name := "Wire User" }

/-- The file of that test. -/
theorem wireguard_file_test :
    ∃ text, wireguardProfile showJson wireUser wgNode wgKey = .ok text ∧
      parseConfig universalNewlines text.toList = some (sections showJson wgNode wgKey) := by
  refine ⟨_, rfl, (wireguard_file_iff universalNewlines showJson wireUser wgNode wgKey _ rfl).2 ⟨?_, ?_⟩⟩
  · decide +kernel
  · decide +kernel

/-- Names that the schema accepts, with a section of their own after a line feed, and after a
carriage return. -/
def secondPeer : UserUpdate :=
  { UserUpdate.nothing with
    name := .set "Wire User\n[Peer]\nPublicKey = evil"
    nameLength := by rintro _ ⟨⟩; decide }

def returnedPeer : UserUpdate :=
  { UserUpdate.nothing with
    name := .set "Wire User\r[Peer]\rPublicKey = evil"
    nameLength := by rintro _ ⟨⟩; decide }

theorem unbroken_of_check {settings : List Setting}
    (check : (settings.all fun s => s.2.all fun c => !reader.isBreak c) = true) :
    ∀ s ∈ settings, ∀ c ∈ s.2, reader.isBreak c = false := by
  simpa using check

/-- What a reader sees of the file of a patched user: its sections, whatever the name is. -/
def ContainsOnly (reader : ConfigReader) (p : UserUpdate) : Prop :=
  ∀ (format : Json → String) (user row : User) (node : Node) (key : AccessKey) (text : String),
    patchUser p user = .ok row →
    (∀ s ∈ interfaceSettings format node key ++ peerSettings format node,
      ∀ c ∈ s.2, reader.isBreak c = false) →
    wireguardProfile format row node key = .ok text →
    parseConfig reader text.toList = some (sections format node key)

/-- The name of a user can add a peer to the file: after a line feed for each reader, and after a
carriage return for one whose lines end there. -/
theorem name_adds_peer :
    ¬ ContainsOnly lineFeeds secondPeer ∧ ¬ ContainsOnly universalNewlines secondPeer ∧
      ¬ ContainsOnly universalNewlines returnedPeer := by
  refine ⟨fun claim => ?_, fun claim => ?_, fun claim => ?_⟩
  · have read := claim showJson wireUser _ wgNode wgKey _ (patchUser_eq_ok.2 ⟨rfl, rfl⟩)
      (unbroken_of_check (by decide +kernel)) rfl
    exact absurd ((parseConfig_file_iff rfl).1 read).2 (by decide +kernel)
  · have read := claim showJson wireUser _ wgNode wgKey _ (patchUser_eq_ok.2 ⟨rfl, rfl⟩)
      (unbroken_of_check (by decide +kernel)) rfl
    exact absurd ((parseConfig_file_iff rfl).1 read).2 (by decide +kernel)
  · have read := claim showJson wireUser _ wgNode wgKey _ (patchUser_eq_ok.2 ⟨rfl, rfl⟩)
      (unbroken_of_check (by decide +kernel)) rfl
    exact absurd ((parseConfig_file_iff rfl).1 read).2 (by decide +kernel)

end Arena.WireguardFile
