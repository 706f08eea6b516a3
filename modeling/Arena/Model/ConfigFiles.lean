import Arena.Lib.Json
import Arena.Model.Runtime

/-!
# The files and the arguments of Xray

What `backend/app/xray.py` hands to the `xray` binary: the text of `config.json`, the patches of
`_add_clients`, and the arguments of the two commands. The binary is a parameter; of what it reads, the
documented part is stated: in a document the users of its inbounds, in the arguments the command.
-/

namespace Arena.Model

open Arena.Lib

/-! ## JSON texts -/

theorem wholeNumbers_read {q : ℚ} (whole : q.den = 1) :
    (readJsonInteger (toString q.num).toList).map (fun z : ℤ => (z : ℚ)) = some q := by
  rw [readJsonInteger_toString, Option.map_some, Rat.coe_int_num_of_den_eq_one whole]

/-- Numbers in the files of Xray: there are whole ones only. -/
def wholeNumbers : NumberFormat ℚ where
  text q := (toString q.num).toList
  read s := (readJsonInteger s).map fun z : ℤ => (z : ℚ)
  Valid q := q.den = 1
  read_text _ := wholeNumbers_read
  token _ := intText_token
  ne_nil _ := intText_ne_nil

mutual

/-- A JSON value as the value of a document. -/
def Json.value : Json → JsonValue ℚ
  | .null => .null
  | .bool b => .bool b
  | .num n => .num n
  | .str s => .str s
  | .arr items => .arr (itemValues items)
  | .obj members => .obj (memberValues members)

def itemValues : List Json → List (JsonValue ℚ)
  | [] => []
  | v :: vs => v.value :: itemValues vs

def memberValues : List (String × Json) → List (String × JsonValue ℚ)
  | [] => []
  | (name, v) :: ms => (name, v.value) :: memberValues ms

end

/-- The text that `_write_json` writes. -/
def fileText (data : Json) : List Char := data.value.write wholeNumbers (.indented true 2) 0 ++ ['\n']

/-- The patch of one round of `_add_clients`. -/
def addPatch (cfg : Settings) (protocol : Protocol) (users : List Json) : Json :=
  .obj [("inbounds", .arr [.obj [("tag", .str (inboundTag protocol)), ("listen", .str cfg.xrayListenHost),
    ("port", .num (if protocol = .vless then 11000 else 11001)), ("protocol", .str protocol.text),
    ("settings", .obj (("clients", .arr users) ::
      if protocol = .vless then [("decryption", .str "none")] else []))]])]

/-! ## Paths and arguments -/

/-- `Path(xray_config_dir) / name`. -/
def filePath (dir name : String) : String := dir ++ "/" ++ name

/-- `path.with_suffix(path.suffix + ".tmp")`. -/
def tempPath (path : String) : String := path ++ ".tmp"

/-- `api_address`. -/
def apiAddress (cfg : Settings) : String := cfg.xrayApiHost ++ ":" ++ toString cfg.xrayApiPort

/-- The protocol of an inbound's tag. -/
def protocolOf (tag : String) : Option Protocol := proxies.find? fun protocol => inboundTag protocol = tag

/-- The patch that a round of `_add_clients` writes before its command, with its path. -/
def Command.patch (cfg : Settings) (dir : String) : Command → Option (String × List Char)
  | .adu tag users => (protocolOf tag).map fun protocol =>
    (filePath dir ("add-" ++ protocol.text ++ ".json"),
      fileText (addPatch cfg protocol (users.map InboundUser.json)))
  | .rmu _ _ => none

/-- What `_run_cli` gets. -/
def Command.args (cfg : Settings) (dir : String) : Command → List String
  | .rmu tag emails => ["api", "rmu", "-server=" ++ apiAddress cfg, "-tag=" ++ tag] ++ emails
  | .adu tag users =>
    ["api", "adu", "-server=" ++ apiAddress cfg] ++
      ((Command.adu tag users).patch cfg dir).toList.map Prod.fst

/-! ## What Xray reads

The documented meaning of the files and arguments; any other file or flag means nothing here.
-/

/-- An entry of `clients`. -/
def readUser (v : JsonValue ℚ) : Option InboundUser :=
  ((v.field "id").bind JsonValue.asString).bind fun id =>
    ((v.field "email").bind JsonValue.asString).bind fun email =>
      ((v.field "level").bind JsonValue.asNumber).bind fun level =>
        if level.den = 1 ∧ 0 ≤ level then some ⟨id, email, level.num.toNat⟩ else none

/-- An entry of `inbounds`: its tag and its users, none where there are no `clients`. -/
def readInbound (v : JsonValue ℚ) : Option (String × List InboundUser) :=
  ((v.field "tag").bind JsonValue.asString).bind fun tag =>
    match (v.field "settings").bind (JsonValue.field "clients") with
    | none => some (tag, [])
    | some clients => (clients.asArray.bind fun items => items.mapM readUser).map fun users => (tag, users)

/-- The inbounds of a file. -/
def readInbounds (text : List Char) : Option (List (String × List InboundUser)) :=
  (readJson wholeNumbers text).bind fun v =>
    ((v.field "inbounds").bind JsonValue.asArray).bind fun items => items.mapM readInbound

/-- The users that a process serves after it has read its file. -/
def served (entries : List (String × List InboundUser)) : Inbounds := fun tag =>
  ((entries.filter (·.1 = tag)).flatMap Prod.snd).toFinset

/-- The flags at the head of the arguments, and the arguments after them. -/
def readFlags : List String → Option (List (String × String) × List String)
  | [] => some ([], [])
  | a :: rest =>
    match a.toList with
    | '-' :: flag =>
      match cutFirst '=' flag with
      | (name, some value) => (readFlags rest).map fun (flags, others) =>
        ((String.ofList name, String.ofList value) :: flags, others)
      | (_, none) => none
    | _ => some ([], a :: rest)

/-- The commands that the arguments and the files they name ask for. -/
def readCommands (disk : String → Option (List Char)) : List String → Option (List Command)
  | api :: name :: args =>
    (readFlags args).bind fun (flags, others) =>
      if api ≠ "api" then none
      else if name = "rmu" then (flags.lookup "tag").map fun tag => [.rmu tag others]
      else if name = "adu" then
        (others.mapM fun path => (disk path).bind readInbounds).map fun files =>
          files.flatten.map fun entry => .adu entry.1 entry.2
      else none
  | _ => none

/-- The binary: the inbounds it serves with a file, and the commands it carries out for its
arguments. -/
structure Xray where
  inbounds : List Char → Option (List (String × List InboundUser))
  commands : (String → Option (List Char)) → List String → Option (List Command)

/-- It reads at least what is documented. -/
structure Xray.Documented (xray : Xray) : Prop where
  inbounds : ∀ text entries, readInbounds text = some entries → xray.inbounds text = some entries
  commands : ∀ disk args cmds, readCommands disk args = some cmds → xray.commands disk args = some cmds

/-- The binary that reads nothing else. -/
def documentedXray : Xray := ⟨readInbounds, readCommands⟩

theorem documentedXray_documented : documentedXray.Documented := ⟨fun _ _ h => h, fun _ _ _ h => h⟩

/-! ## The texts read back -/

variable {cfg : Settings} {dir : String} {clients : List XrayClient} {users : List InboundUser} {protocol : Protocol}

@[simp] theorem itemValues_eq_map {vs : List Json} : itemValues vs = vs.map Json.value := by
  induction vs with
  | nil => rfl
  | cons v vs ih => rw [itemValues, ih, List.map_cons]

theorem readJson_fileText {data : Json} (clean : data.value.Clean wholeNumbers) :
    readJson wholeNumbers (fileText data) = some data.value :=
  readJson_write clean rfl

theorem natCast_valid (n : ℕ) : wholeNumbers.Valid (n : ℚ) := rfl

theorem clean_user (u : InboundUser) : u.json.value.Clean wholeNumbers := by
  simp [InboundUser.json, Json.value, memberValues, natCast_valid]

theorem payload_eq (c : XrayClient) : c.payload = c.inboundUser.json := by
  simp [XrayClient.payload, InboundUser.json, XrayClient.inboundUser]

theorem clean_inbound (i : Inbound) : i.json.value.Clean wholeNumbers := by
  have users : ∀ c ∈ i.clients, c.payload.value.Clean wholeNumbers := fun c _ => by
    rw [payload_eq]
    exact clean_user _
  unfold Inbound.json
  split <;> simp [Json.value, memberValues, natCast_valid] <;> exact users

theorem clean_config : (buildConfig cfg clients).value.Clean wholeNumbers := by
  have inbounds := fun i : Inbound => clean_inbound i
  simp [buildConfig, apiInbound, Json.value, memberValues, natCast_valid, inbounds]

theorem clean_patch : (addPatch cfg protocol (users.map InboundUser.json)).value.Clean wholeNumbers := by
  have each : ∀ u ∈ users, u.json.value.Clean wholeNumbers := fun u _ => clean_user u
  unfold addPatch
  split <;> simp [Json.value, memberValues] <;> exact ⟨rfl, each⟩

theorem readUser_json (u : InboundUser) : readUser u.json.value = some u := by
  have whole : ((u.level : ℚ)).den = 1 ∧ 0 ≤ (u.level : ℚ) := ⟨rfl, Nat.cast_nonneg _⟩
  simp [readUser, InboundUser.json, Json.value, memberValues, JsonValue.field, JsonValue.asString,
    JsonValue.asNumber, List.lookup_cons, whole]

theorem mapM_readUser (us : List InboundUser) : (us.map fun u => u.json.value).mapM readUser = some us := by
  have each : readUser ∘ (fun u : InboundUser => u.json.value) = fun u => pure u := funext readUser_json
  rw [List.mapM_map, each, List.mapM_pure, List.map_id']
  rfl

/-- What the entry of an inbound with clients reads as, whatever else it has. -/
theorem readInbound_of_clients {v : JsonValue ℚ} {tag : String} {settings : JsonValue ℚ}
    (tagIs : v.field "tag" = some (.str tag)) (settingsIs : v.field "settings" = some settings)
    (clientsIs : settings.field "clients" = some (.arr (users.map fun u => u.json.value))) :
    readInbound v = some (tag, users) := by
  simp only [readInbound, tagIs, settingsIs, clientsIs, Option.bind_some, JsonValue.asString, JsonValue.asArray,
    mapM_readUser, Option.map_some]

theorem readInbound_json (i : Inbound) :
    readInbound i.json.value = some (i.tag, i.clients.map XrayClient.inboundUser) := by
  have payloads : i.clients.map (Json.value ∘ XrayClient.payload) =
      (i.clients.map XrayClient.inboundUser).map fun u => u.json.value := by
    rw [List.map_map]
    exact List.map_congr_left fun c _ => congrArg Json.value (payload_eq c)
  refine readInbound_of_clients rfl rfl ?_
  rw [← payloads]
  simp [Json.value, memberValues, JsonValue.field]

theorem readInbound_api : readInbound (apiInbound cfg).value = some ("api", []) := rfl

/-- The entries that a configuration reads as. -/
def configEntries (cfg : Settings) (clients : List XrayClient) : List (String × List InboundUser) :=
  ("api", []) :: (proxyInbounds cfg clients).map fun i => (i.tag, i.clients.map XrayClient.inboundUser)

theorem readInbounds_config : readInbounds (fileText (buildConfig cfg clients)) = some (configEntries cfg clients) := by
  have items : (((buildConfig cfg clients).value.field "inbounds").bind JsonValue.asArray) =
      some ((apiInbound cfg).value :: (proxyInbounds cfg clients).map fun i => i.json.value) := by
    simp [buildConfig, Json.value, memberValues, JsonValue.field, JsonValue.asArray, List.lookup_cons, proxyInbounds]
  have each : ∀ is : List Inbound, (is.map fun i => i.json.value).mapM readInbound =
      some (is.map fun i => (i.tag, i.clients.map XrayClient.inboundUser)) := fun is => by
    have one : readInbound ∘ (fun i : Inbound => i.json.value) =
        fun i => pure (i.tag, i.clients.map XrayClient.inboundUser) := funext readInbound_json
    rw [List.mapM_map, one, List.mapM_pure]
    rfl
  rw [readInbounds, readJson_fileText clean_config, Option.bind_some, items, Option.bind_some, List.mapM_cons,
    readInbound_api, each]
  rfl

/-- **What a new process serves** is what its configuration names. -/
theorem served_config : served (configEntries cfg clients) = configured cfg clients := by
  funext tag
  have others : ∀ entries : List (String × List InboundUser),
      ((("api", []) :: entries).filter (·.1 = tag)).flatMap Prod.snd =
        (entries.filter (·.1 = tag)).flatMap Prod.snd := by
    intro entries
    by_cases api : "api" = tag <;> simp [api]
  rw [served, configEntries, others, List.filter_map, List.flatMap_map]
  rfl

/-- **What `xray api adu` reads** of a patch. -/
theorem readInbounds_patch : readInbounds (fileText (addPatch cfg protocol (users.map InboundUser.json))) =
    some [(inboundTag protocol, users)] := by
  have items : ∃ v, (((addPatch cfg protocol (users.map InboundUser.json)).value.field "inbounds").bind
      JsonValue.asArray) = some [v] ∧ readInbound v = some (inboundTag protocol, users) := by
    refine ⟨_, rfl, readInbound_of_clients rfl rfl ?_⟩
    simp [Json.value, memberValues, JsonValue.field]
  obtain ⟨v, items, read⟩ := items
  rw [readInbounds, readJson_fileText clean_patch, Option.bind_some, items, Option.bind_some, List.mapM_cons, read]
  rfl

/-! ## The arguments read back -/

/-- An argument that does not look like a flag. -/
def PlainArgument (a : String) : Prop := a.toList.head? ≠ some '-'

instance (a : String) : Decidable (PlainArgument a) := inferInstanceAs (Decidable (_ ≠ _))

/-- The commands of the dynamic path, when no credential looks like a flag. -/
def Command.Proper : Command → Prop
  | .rmu _ emails => ∀ email ∈ emails, PlainArgument email
  | .adu tag _ => (protocolOf tag).isSome

theorem readFlags_plain {others : List String} (plain : ∀ a ∈ others, PlainArgument a) :
    readFlags others = some ([], others) := by
  cases others with
  | nil => rfl
  | cons a rest =>
    have first := plain a List.mem_cons_self
    rw [readFlags]
    split
    · rename_i flag text
      rw [PlainArgument, text] at first
      exact absurd rfl first
    · rfl

theorem readFlags_flag {a name value : String} {rest : List String}
    (text : a.toList = '-' :: (name.toList ++ '=' :: value.toList)) (clean : '=' ∉ name.toList) :
    readFlags (a :: rest) = (readFlags rest).map fun (flags, others) => ((name, value) :: flags, others) := by
  rw [readFlags, text]
  simp only [cutFirst_append clean, String.ofList_toList]

theorem server_text {value : String} :
    ("-server=" ++ value).toList = '-' :: ("server".toList ++ '=' :: value.toList) := by
  have literal : "-server=".toList = '-' :: ("server".toList ++ ['=']) := by decide +kernel
  rw [String.toList_append, literal]
  simp

theorem tag_text {value : String} : ("-tag=" ++ value).toList = '-' :: ("tag".toList ++ '=' :: value.toList) := by
  have literal : "-tag=".toList = '-' :: ("tag".toList ++ ['=']) := by decide +kernel
  rw [String.toList_append, literal]
  simp

theorem protocolOf_spec {tag : String} (found : protocolOf tag = some protocol) : inboundTag protocol = tag := by
  simpa using List.find?_some found

theorem plain_path {name : String} (plain : PlainArgument dir) : PlainArgument (filePath dir name) := by
  unfold PlainArgument filePath at *
  rw [String.toList_append, String.toList_append]
  cases text : dir.toList with
  | nil =>
    have slash : "/".toList = ['/'] := by decide +kernel
    simp [slash]
  | cons c rest =>
    rw [text] at plain
    simpa using plain

/-- **Xray reads the command** that the control plane decided on. -/
theorem readCommands_args {disk : String → Option (List Char)} {cmd : Command} (proper : cmd.Proper)
    (plain : PlainArgument dir) (written : ∀ f ∈ cmd.patch cfg dir, disk f.1 = some f.2) :
    readCommands disk (cmd.args cfg dir) = some [cmd] := by
  have server : '=' ∉ "server".toList := by decide +kernel
  have tagName : '=' ∉ "tag".toList := by decide +kernel
  cases cmd with
  | rmu tag emails =>
    have flags : readFlags (("-server=" ++ apiAddress cfg) :: ("-tag=" ++ tag) :: emails) =
        some ([("server", apiAddress cfg), ("tag", tag)], emails) := by
      rw [readFlags_flag server_text server, readFlags_flag tag_text tagName, readFlags_plain proper]
      rfl
    show (readFlags (("-server=" ++ apiAddress cfg) :: ("-tag=" ++ tag) :: emails)).bind _ = _
    rw [flags]
    rfl
  | adu tag users =>
    obtain ⟨protocol, found⟩ := Option.isSome_iff_exists.1 proper
    have patch : (Command.adu tag users).patch cfg dir =
        some (filePath dir ("add-" ++ protocol.text ++ ".json"),
          fileText (addPatch cfg protocol (users.map InboundUser.json))) := by
      rw [Command.patch, found, Option.map_some]
    have file := written _ patch
    have flags : readFlags [("-server=" ++ apiAddress cfg), filePath dir ("add-" ++ protocol.text ++ ".json")] =
        some ([("server", apiAddress cfg)], [filePath dir ("add-" ++ protocol.text ++ ".json")]) := by
      rw [readFlags_flag server_text server, readFlags_plain (by simpa using plain_path plain)]
      rfl
    rw [Command.args, patch]
    show (readFlags [("-server=" ++ apiAddress cfg), filePath dir ("add-" ++ protocol.text ++ ".json")]).bind _ = _
    rw [flags]
    have entries : (disk (filePath dir ("add-" ++ protocol.text ++ ".json"))).bind readInbounds =
        some [(tag, users)] := by
      rw [file, Option.bind_some, readInbounds_patch, protocolOf_spec found]
    show (([filePath dir ("add-" ++ protocol.text ++ ".json")].mapM fun path => (disk path).bind readInbounds).map
      fun files => files.flatten.map fun entry => Command.adu entry.1 entry.2) = _
    rw [List.mapM_cons, entries]
    rfl

/-! ## The commands of the dynamic path -/

/-- A credential that Xray's command line does not take for a flag. -/
def XrayClient.Plain (c : XrayClient) : Prop := PlainArgument c.credential

theorem XrayClient.Plain.email {c : XrayClient} (plain : c.Plain) : PlainArgument c.email := by
  unfold XrayClient.Plain PlainArgument at *
  have opens : "@".toList = ['@'] := by decide +kernel
  rw [XrayClient.email, String.toList_append, String.toList_append, String.toList_append]
  cases text : c.credential.toList with
  | nil => simp [opens]
  | cons a rest =>
    rw [text] at plain
    simpa using plain

theorem protocolOf_inboundTag (proxy : protocol ∈ proxies) : protocolOf (inboundTag protocol) = some protocol := by
  rcases List.mem_cons.1 proxy with rfl | proxy
  · decide +kernel
  · obtain rfl := List.mem_singleton.1 proxy
    decide +kernel

theorem syncCommands_proper {desired : List XrayClient} (plain : ∀ c ∈ clients, c.Plain) :
    ∀ cmd ∈ syncCommands clients desired, cmd.Proper := by
  intro cmd mem
  rcases List.mem_append.1 mem with removed | added
  · obtain ⟨protocol, -, removed⟩ := List.mem_filterMap.1 removed
    unfold removeCommand at removed
    split at removed
    · cases removed
    · cases removed
      refine List.forall_mem_map.2 fun c mem => ?_
      exact (plain c (List.mem_of_mem_filter (List.mem_of_mem_filter mem))).email
  · obtain ⟨protocol, proxy, added⟩ := List.mem_filterMap.1 added
    unfold addCommand at added
    split at added
    · cases added
    · cases added
      exact Option.isSome_iff_exists.2 ⟨protocol, protocolOf_inboundTag proxy⟩

/-- What a snapshot asks for is plain when its credentials are. -/
def Snapshot.Plain (snap : Snapshot) : Prop := ∀ k ∈ snap.db.accessKeys.rows, PlainArgument k.credential

theorem desired_plain {snap : Snapshot} (plain : snap.Plain) : ∀ c ∈ snap.desired, c.Plain := by
  intro c mem
  obtain ⟨k, loaded, -, -, rfl⟩ := mem_clientsFromKeys.1 mem
  exact plain k.key (mem_loadKeys.1 loaded).1

end Arena.Model
