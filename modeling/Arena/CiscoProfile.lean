import Arena.Lib.Xml
import Arena.Model.Files
import Arena.Model.Patches

/-!
# What a Cisco profile says

`cisco_profile_xml` writes the user's name, the node's host and its group into elements and a
username into a comment, as they are. They are read back where none of them has markup: a name
with `&` or `<` makes a document that is not XML, or another one.
-/

namespace Arena.CiscoProfile

open Arena.Lib Arena.Model

variable {format : Json → String} {user : User} {node : Node} {key : AccessKey} {document : String}
  {group : Json} {keep : XmlEvent → Bool} {name host groupText username text v w : List Char}
  {events : List XmlEvent} {final : XmlReader}

/-- `secret.get("username", key.credential)`. -/
def usernameOf (key : AccessKey) : String := (key.secretPayload.lookup "username").getD key.credential

/-! ## What the profile should say -/

def textNodes (text : List Char) : List XmlNode := text.map .char

/-- The elements of the profile, with these nodes for its comment. -/
def profile (name host group : List Char) (comment : List XmlNode) : List XmlNode :=
  [.element "AnyConnectProfile".toList [("xmlns".toList, "http://schemas.xmlsoap.org/encoding/".toList)]
    (textNodes "\n  ".toList ++
      [.element "ClientInitialization".toList []
        [.element "UseStartBeforeLogon".toList [("UserControllable".toList, "true".toList)]
          (textNodes "false".toList)]] ++
      textNodes "\n  ".toList ++
      [.element "ServerList".toList []
        [.element "HostEntry".toList []
          [.element "HostName".toList [] (textNodes ("ARENA - ".toList ++ name)),
            .element "HostAddress".toList [] (textNodes host),
            .element "UserGroup".toList [] (textNodes group)]]] ++
      textNodes "\n  ".toList ++ comment ++ textNodes "\n".toList)]

/-- The comment of a username. -/
def usernameComment (username : List Char) : List Char := " Username: ".toList ++ username ++ " ".toList

/-- A reader that keeps comments and processing instructions. -/
def everything (_ : XmlEvent) : Bool := true

/-- A reader that skips them. -/
def elementsOnly : XmlEvent → Bool
  | .comment _ | .instruction _ _ => false
  | _ => true

/-- Text of an element that is read as itself. -/
def CleanText (text : List Char) : Prop :=
  (∀ c ∈ text, isXmlChar c ∧ c ≠ '<' ∧ c ≠ '&' ∧ c ≠ '\r') ∧ ¬ "]]>".toList <:+: text

instance (text : List Char) : Decidable (CleanText text) :=
  @instDecidableAnd _ _ (List.decidableBAll _ text) inferInstance

/-- Text that a comment takes in as it is. -/
def CleanComment (text : List Char) : Prop :=
  (∀ c ∈ text, isXmlChar c ∧ c ≠ '\r') ∧ ¬ "--".toList <:+: text

instance (text : List Char) : Decidable (CleanComment text) :=
  @instDecidableAnd _ _ (List.decidableBAll _ text) inferInstance

/-- A username as `create_access_key` gives it to the keys of a user with a UUID. -/
def Issued (username : List Char) : Prop :=
  ∃ part : List Char, username = "arena-".toList ++ part ∧ ∀ c ∈ part, c.isAlphanum

/-! ## The text -/

/-- The declaration. -/
def declaration : List Char := "<?xml version=\"1.0\" encoding=\"UTF-8\"?>".toList

/-- From there to the name. -/
def opening : List Char :=
  ("\n" ++ "<AnyConnectProfile xmlns=\"http://schemas.xmlsoap.org/encoding/\">\n" ++
    "  <ClientInitialization><UseStartBeforeLogon UserControllable=\"true\">false" ++
    "</UseStartBeforeLogon></ClientInitialization>\n" ++
    "  <ServerList><HostEntry><HostName>ARENA - ").toList

def afterName : List Char := "</HostName><HostAddress>".toList

def afterHost : List Char := "</HostAddress><UserGroup>".toList

def afterGroup : List Char := "</UserGroup></HostEntry></ServerList>".toList

def beforeUsername : List Char := ("\n" ++ "  <!-- Username: ").toList

def closing : List Char := ("\n" ++ "</AnyConnectProfile>\n").toList

/-- What follows the name. -/
def rest (host group username : List Char) : List Char :=
  afterName ++ (host ++ (afterHost ++ (group ++ (afterGroup ++ (beforeUsername ++
    (username ++ (" -->".toList ++ closing)))))))

theorem ciscoProfileXml_text (member : node.metadata.getOr "group" (.str "ARENA") = .ok group)
    (ok : ciscoProfileXml format user node key = .ok document) :
    document.toList = declaration ++ (opening ++ (user.name.toList ++
      rest node.host.toList (format group).toList (usernameOf key).toList)) := by
  obtain ⟨group', found, same⟩ := bind_eq_ok.1 ok
  obtain rfl : group = group' := Except.ok.inj (member.symm.trans found)
  have written := congrArg String.toList (Except.ok.inj same)
  rw [← written]
  have first : "<?xml version=\"1.0\" encoding=\"UTF-8\"?>\n".toList = declaration ++ "\n".toList := by
    decide +kernel
  have third : "</UserGroup></HostEntry></ServerList>\n".toList = afterGroup ++ "\n".toList := by
    decide +kernel
  have last : " -->\n".toList = " -->".toList ++ "\n".toList := by decide +kernel
  unfold opening rest afterName afterHost beforeUsername closing usernameOf
  simp only [String.toList_append]
  rw [first, third, last]
  simp only [List.append_assoc]

/-- The text as it is read: line ends are normalised in each part. -/
theorem normalizeEnds_text :
    normalizeEnds (declaration ++ (opening ++ (name ++ rest host groupText username))) =
      declaration ++ (opening ++ (normalizeEnds name ++
        rest (normalizeEnds host) (normalizeEnds groupText) (normalizeEnds username))) := by
  have plain : ∀ part ∈ [declaration, opening, afterName, afterHost, afterGroup, beforeUsername, " -->".toList],
      '\r' ∉ part := by
    unfold declaration opening afterName afterHost afterGroup beforeUsername
    repeat rw [String.toList_append]
    repeat rw [String.toList_ofList]
    decide +kernel
  have closed : normalizeEnds closing = closing := normalizeEnds_of_notMem (by decide +kernel)
  have border : ∀ part ∈ [afterName, afterHost, afterGroup, " -->".toList], part.head?.isSome ∧
      part.head? ≠ some '\n' := by
    decide +kernel
  have border' : ∀ part ∈ [afterName, afterHost, afterGroup, " -->".toList], ∀ more,
      (part ++ more).head? ≠ some '\n' := by
    intro part mem more
    obtain ⟨some, other⟩ := border part mem
    rwa [List.head?_append_of_ne_nil _ (by rintro rfl; cases some)]
  rw [rest, normalizeEnds_append_of_notMem (plain _ (by simp)), normalizeEnds_append_of_notMem (plain _ (by simp)),
    normalizeEnds_append (border' _ (by simp) _), normalizeEnds_append_of_notMem (plain _ (by simp)),
    normalizeEnds_append (border' _ (by simp) _), normalizeEnds_append_of_notMem (plain _ (by simp)),
    normalizeEnds_append (border' _ (by simp) _), normalizeEnds_append_of_notMem (plain _ (by simp)),
    normalizeEnds_append_of_notMem (plain _ (by simp)), normalizeEnds_append (border' _ (by simp) _),
    normalizeEnds_append_of_notMem (plain _ (by simp)), closed, rest]

/-- The attributes of the declaration. -/
def pseudoAttributes : List Char := " version=\"1.0\" encoding=\"UTF-8\"".toList

theorem afterDeclaration_text : afterDeclaration (declaration ++ text) = some text := by
  have written : declaration = "<?xml".toList ++ (pseudoAttributes ++ ['?', '>']) := by decide +kernel
  have read : readAttributes (pseudoAttributes.length + 1) pseudoAttributes =
      some [("version".toList, "1.0".toList), ("encoding".toList, "UTF-8".toList)] := by
    decide +kernel
  rw [written, List.append_assoc, List.append_assoc]
  exact afterDeclaration_append (by decide +kernel) (by decide +kernel) read (by decide +kernel)

/-- The events of the text before the name. -/
def openingEvents : List XmlEvent :=
  let chars := List.map XmlEvent.char
  .start "AnyConnectProfile".toList [("xmlns".toList, "http://schemas.xmlsoap.org/encoding/".toList)] ::
    chars "\n  ".toList ++ [.start "ClientInitialization".toList [],
      .start "UseStartBeforeLogon".toList [("UserControllable".toList, "true".toList)]] ++
    chars "false".toList ++ [.stop "UseStartBeforeLogon".toList, .stop "ClientInitialization".toList] ++
    chars "\n  ".toList ++ [.start "ServerList".toList [], .start "HostEntry".toList [],
      .start "HostName".toList []] ++ chars "ARENA - ".toList

theorem run_opening :
    XmlReader.run ⟨.content 0, 0⟩ opening = some (⟨.content 0, 4⟩, openingEvents) := by
  unfold opening openingEvents
  repeat rw [String.toList_append]
  repeat rw [String.toList_ofList]
  decide +kernel

/-! ## Reading it -/

/-- The reader keeps the elements and their text. -/
structure KeepsElements (keep : XmlEvent → Bool) : Prop where
  chars : ∀ c, keep (.char c)
  starts : ∀ name attributes, keep (.start name attributes)
  stops : ∀ name, keep (.stop name)

theorem everything_keeps : KeepsElements everything := ⟨fun _ => rfl, fun _ _ => rfl, fun _ => rfl⟩

theorem elementsOnly_keeps : KeepsElements elementsOnly := ⟨fun _ => rfl, fun _ _ => rfl, fun _ => rfl⟩

theorem afterName_markup (keeps : KeepsElements keep) :
    IsMarkup keep afterName "HostName".toList [.start "HostAddress".toList []] fun depth => depth - 1 + 1 where
  less := by decide +kernel
  plain := forall_mem_of_check (by decide +kernel)
  read b depth := by
    unfold afterName
    repeat rw [String.toList_ofList]
    rfl
  kept := by simp [keeps.starts, keeps.stops]

theorem afterHost_markup (keeps : KeepsElements keep) :
    IsMarkup keep afterHost "HostAddress".toList [.start "UserGroup".toList []] fun depth => depth - 1 + 1 where
  less := by decide +kernel
  plain := forall_mem_of_check (by decide +kernel)
  read b depth := by
    unfold afterHost
    repeat rw [String.toList_ofList]
    rfl
  kept := by simp [keeps.starts, keeps.stops]

theorem afterGroup_markup (keeps : KeepsElements keep) :
    IsMarkup keep afterGroup "UserGroup".toList [.stop "HostEntry".toList, .stop "ServerList".toList]
      fun depth => depth - 1 - 1 - 1 where
  less := by decide +kernel
  plain := forall_mem_of_check (by decide +kernel)
  read b depth := by
    unfold afterGroup
    repeat rw [String.toList_ofList]
    rfl
  kept := by simp [keeps.stops]

/-- The events of the three texts and of the tags after them. -/
def fieldEvents (name host group : List Char) (after : List XmlEvent) : List XmlEvent :=
  name.map .char ++ .stop "HostName".toList :: ([.start "HostAddress".toList []] ++
    (host.map .char ++ .stop "HostAddress".toList :: ([.start "UserGroup".toList []] ++
      (group.map .char ++ .stop "UserGroup".toList ::
        ([.stop "HostEntry".toList, .stop "ServerList".toList] ++ after)))))

/-- The events after them. -/
def closingEvents (comment : List XmlNode) : List XmlEvent :=
  "\n  ".toList.map .char ++ (XmlNode.allEvents comment ++ ("\n".toList.map .char ++
    [.stop "AnyConnectProfile".toList]))

theorem allEvents_textNodes : XmlNode.allEvents (textNodes text) = text.map .char := by
  induction text with
  | nil => rfl
  | cons c text ih =>
    rw [textNodes] at ih ⊢
    rw [List.map_cons, XmlNode.allEvents, ih, List.map_cons]
    rfl

theorem profile_events {comment : List XmlNode} : XmlNode.allEvents (profile name host groupText comment) =
    openingEvents ++ fieldEvents name host groupText (closingEvents comment) := by
  simp only [profile, XmlNode.allEvents, XmlNode.events, XmlNode.allEvents_append, allEvents_textNodes,
    openingEvents, fieldEvents, closingEvents, List.map_append, List.append_assoc, List.cons_append,
    List.nil_append, List.append_nil]

theorem openingEvents_filter (keeps : KeepsElements keep) : openingEvents.filter keep = openingEvents := by
  have elements : ∀ e ∈ openingEvents, elementsOnly e := by
    unfold openingEvents
    repeat rw [String.toList_ofList]
    decide +kernel
  rw [List.filter_eq_self]
  intro e mem
  cases e with
  | char c => exact keeps.chars c
  | start name attributes => exact keeps.starts name attributes
  | stop name => exact keeps.stops name
  | comment text => cases elements _ mem
  | instruction target data => cases elements _ mem

theorem profile_isDocument {comment : List XmlNode} : isDocument (profile name host groupText comment) := by
  unfold isDocument profile
  rfl

/-- **What the document is read as** comes to how the texts and what follows them are read. -/
theorem parseXml_profile_iff {comment : List XmlNode} (keeps : KeepsElements keep) :
    parseXml keep (declaration ++ (opening ++ (name ++ rest host groupText username))) =
        some (profile name host groupText comment) ↔
      ∃ final events, XmlReader.run ⟨.content 0, 4⟩ (normalizeEnds name ++
          rest (normalizeEnds host) (normalizeEnds groupText) (normalizeEnds username)) = some (final, events) ∧
        final.mode.isContent ∧
        events.filter keep = fieldEvents name host groupText (closingEvents comment) := by
  rw [parseXml_eq_some_iff profile_isDocument, profile_events]
  constructor
  · rintro ⟨events, read, same⟩
    obtain ⟨text, final, found, run, content⟩ := readEvents_eq_some_iff.1 read
    rw [normalizeEnds_text, afterDeclaration_text] at found
    obtain rfl := Option.some.inj found
    obtain ⟨mid, first, events', head, tail, rfl⟩ := XmlReader.run_append_eq_some.1 run
    rw [run_opening] at head
    cases head
    rw [List.filter_append, openingEvents_filter keeps, List.append_cancel_left_eq] at same
    exact ⟨final, events', tail, content, same⟩
  · rintro ⟨final, events, run, content, same⟩
    have read := XmlReader.run_append_eq_some.2 ⟨_, _, _, run_opening, run, rfl⟩
    refine ⟨openingEvents ++ events, readEvents_eq_some_iff.2 ⟨_, final, ?_, read, content⟩, ?_⟩
    · rw [normalizeEnds_text, afterDeclaration_text]
    · rw [List.filter_append, openingEvents_filter keeps, same]

/-! ## No text has markup -/

variable {v₁ v₂ v₃ v₄ : List Char} {after : List XmlEvent}

/-- The three texts were read as themselves. -/
structure ReadAsIs (v₁ v₂ v₃ name host group : List Char) : Prop where
  first : v₁ = name ∧ isLiteral 0 v₁
  second : v₂ = host ∧ isLiteral 0 v₂
  third : v₃ = group ∧ isLiteral 0 v₃

theorem stop_notMem {X : List XmlEvent} {this earlier next : List Char} (absent : .stop this ∉ X)
    (other : this ≠ earlier) : XmlEvent.stop this ∉ X ++ .stop earlier :: [.start next []] := by
  simp [absent, other]

/-- **The three texts**: where the events are those of the profile, either each text was read as
itself, or the reader is outside of content after them with end tags still to come. -/
theorem fields_read (keeps : KeepsElements keep) (short₁ : v₁.length ≤ name.length)
    (short₂ : v₂.length ≤ host.length) (short₃ : v₃.length ≤ groupText.length)
    (run : XmlReader.run ⟨.content 0, 4⟩ (v₁ ++ rest v₂ v₃ v₄) = some (final, events))
    (same : events.filter keep = fieldEvents name host groupText after) :
    ∃ (s : XmlReader) (events' : List XmlEvent),
      s.run (beforeUsername ++ (v₄ ++ (" -->".toList ++ closing))) = some (final, events') ∧
      ((ReadAsIs v₁ v₂ v₃ name host groupText ∧ s = ⟨.content 0, 1⟩ ∧ events'.filter keep = after) ∨
        s.mode.Calm ∧ ∃ X, events'.filter keep = X ++ .stop "UserGroup".toList ::
          ([.stop "HostEntry".toList, .stop "ServerList".toList] ++ after)) := by
  -- no end tag of a text can come before it
  have names : "HostAddress".toList ≠ "HostName".toList ∧ "UserGroup".toList ≠ "HostName".toList ∧
      "UserGroup".toList ≠ "HostAddress".toList := by
    decide +kernel
  obtain ⟨hostName, groupName, groupHost⟩ := names
  obtain ⟨s₁, events₁, run₁, outcome₁⟩ := XmlReader.field_step (X := []) (.aligned rfl rfl) keeps.chars
    (afterName_markup keeps) short₁ (by simp) run same
  rcases outcome₁ with ⟨-, clean₁, literal₁, rfl, same₁⟩ | ⟨calm₁, X₁, sub₁, same₁⟩
  · obtain ⟨s₂, events₂, run₂, outcome₂⟩ := XmlReader.field_step (X := []) (.aligned rfl rfl) keeps.chars
      (afterHost_markup keeps) short₂ (by simp) run₁ same₁
    rcases outcome₂ with ⟨-, clean₂, literal₂, rfl, same₂⟩ | ⟨calm₂, X₂, sub₂, same₂⟩
    · obtain ⟨s₃, events₃, run₃, outcome₃⟩ := XmlReader.field_step (X := []) (.aligned rfl rfl) keeps.chars
        (afterGroup_markup keeps) short₃ (by simp) run₂ same₂
      refine ⟨s₃, events₃, run₃, ?_⟩
      rcases outcome₃ with ⟨-, clean₃, literal₃, rfl, same₃⟩ | ⟨calm₃, X₃, -, same₃⟩
      · exact .inl ⟨⟨⟨clean₁, literal₁⟩, ⟨clean₂, literal₂⟩, ⟨clean₃, literal₃⟩⟩, rfl, same₃⟩
      · exact .inr ⟨calm₃, X₃, same₃⟩
    · have new : XmlEvent.stop "UserGroup".toList ∉
          X₂ ++ .stop "HostAddress".toList :: [.start "UserGroup".toList []] :=
        stop_notMem (fun mem => by simpa using sub₂ mem) groupHost
      obtain ⟨s₃, events₃, run₃, calm₃, X₃, -, same₃⟩ := XmlReader.field_behind calm₂ keeps.chars
        (afterGroup_markup keeps) short₃ new run₂ same₂
      exact ⟨s₃, events₃, run₃, .inr ⟨calm₃, X₃, same₃⟩⟩
  · have new₁ : XmlEvent.stop "HostAddress".toList ∉
        X₁ ++ .stop "HostName".toList :: [.start "HostAddress".toList []] :=
      stop_notMem (fun mem => by simpa using sub₁ mem) hostName
    obtain ⟨s₂, events₂, run₂, calm₂, X₂, sub₂, same₂⟩ := XmlReader.field_behind calm₁ keeps.chars
      (afterHost_markup keeps) short₂ new₁ run₁ same₁
    have old₂ : XmlEvent.stop "UserGroup".toList ∉ X₂ := by
      intro mem
      rcases List.mem_append.1 (sub₂ mem) with mem | mem
      · exact stop_notMem (fun mem => by simpa using sub₁ mem) groupName mem
      · simp at mem
    obtain ⟨s₃, events₃, run₃, calm₃, X₃, -, same₃⟩ := XmlReader.field_behind calm₂ keeps.chars
      (afterGroup_markup keeps) short₃ (stop_notMem old₂ groupHost) run₂ same₂
    exact ⟨s₃, events₃, run₃, .inr ⟨calm₃, X₃, same₃⟩⟩

/-! ## After the texts -/

/-- Outside of content, the beginning of the comment is text or nothing. -/
theorem run_beforeUsername {s : XmlReader} (calm : s.mode.Calm)
    (run : s.run (beforeUsername ++ text) = some (final, events)) :
    ∃ (s' : XmlReader) (first events' : List XmlEvent), s'.mode.Raw ∧ Textual first ∧
      s'.run text = some (final, events') ∧ events = first ++ events' := by
  have parts : beforeUsername = "\n  <!".toList ++ (['-', '-'] ++ ' ' :: "Username: ".toList) := by
    unfold beforeUsername
    repeat rw [String.toList_append]
    repeat rw [String.toList_ofList]
    rfl
  rw [parts, List.append_assoc] at run
  obtain ⟨mid, first, later, start, run₂, rfl⟩ := XmlReader.run_append_eq_some.1 run
  obtain ⟨calm', textual⟩ := XmlReader.run_calm calm (forall_mem_of_check (by decide +kernel)) start
  have comment_or_raw : mid.mode.Raw ∨ ∃ t, mid.mode = .comment t ∧ t.getLast? ≠ some '-' := by
    cases mode : mid.mode with
    | comment t => exact .inr ⟨t, rfl, by rw [mode] at calm'; exact calm'⟩
    | _ => exact .inl (by rw [mode] at calm'; exact calm')
  rcases comment_or_raw with raw | ⟨t, mode, last⟩
  · obtain ⟨s', second, events', between, run₃, rfl⟩ := XmlReader.run_append_eq_some.1 run₂
    obtain ⟨raw', textual'⟩ := XmlReader.run_raw raw (forall_mem_of_check (by decide +kernel)) between
    exact ⟨s', first ++ second, events', raw', textual.append textual', run₃, by simp⟩
  · obtain ⟨mode', depth⟩ := mid
    cases mode
    rw [List.append_assoc] at run₂
    exact absurd run₂ (XmlReader.run_dashes_space last)

/-- Outside of content, the end of the document does not lead back. -/
theorem run_closing {s : XmlReader} (out : ¬ s.mode.isContent)
    (run : s.run closing = some (final, events)) : ¬ final.mode.isContent := by
  have parts : closing = '\n' :: '<' :: "/AnyConnectProfile>\n".toList := by
    unfold closing
    repeat rw [String.toList_append]
    repeat rw [String.toList_ofList]
    rfl
  rw [parts] at run
  obtain ⟨mid, first, later, here, run, -⟩ := XmlReader.run_cons_eq_some.1 run
  have still := XmlMode.step_not_content out (by decide) (by decide) (XmlReader.step_mode here).1
  exact (XmlReader.run_markup still (forall_mem_of_check (by decide +kernel)) run).1.not_content

/-- In content, the end of the document has no comment. -/
theorem run_closing_content {b depth : ℕ} (run : XmlReader.run ⟨.content b, depth⟩ closing = some (final, events)) :
    XmlEvent.comment text ∉ events := by
  unfold closing at run
  repeat rw [String.toList_append] at run
  repeat rw [String.toList_ofList] at run
  match depth with
  | 0 => cases run; simp
  | 1 => cases run; simp
  | depth + 2 => cases run; simp

theorem usernameComment_length : (usernameComment username).length = username.length + 12 := by
  unfold usernameComment
  repeat rw [String.toList_ofList]
  simp only [List.length_append, List.length_cons, List.length_nil]
  omega

/-- Outside of content there is no room for the comment: its text would have to be in the username. -/
theorem comment_notMem {s : XmlReader} (calm : s.mode.Calm) (content : final.mode.isContent)
    (short : v₄.length ≤ username.length)
    (run : s.run (beforeUsername ++ (v₄ ++ (" -->".toList ++ closing))) = some (final, events)) :
    XmlEvent.comment (usernameComment username) ∉ events := by
  obtain ⟨s', first, later, raw, textual, run₂, rfl⟩ := run_beforeUsername calm run
  rw [← List.append_assoc] at run₂
  obtain ⟨mid, inner, last, before, ends, rfl⟩ := XmlReader.run_append_eq_some.1 run₂
  have paid := XmlReader.run_cost (k := 1) le_rfl before
  have unsaved : s'.mode.saved 1 = 0 := by
    cases mode : s'.mode with
    | cdata b => rw [mode] at raw; exact raw
    | instruction text => rfl
    | _ => rw [mode] at raw; exact raw.elim
  rw [List.length_append, show " -->".toList.length = 4 from by decide +kernel, unsaved] at paid
  intro mem
  rcases List.mem_append.1 mem with mem | mem
  · obtain ⟨c, char⟩ := textual _ mem
    cases char
  rcases List.mem_append.1 mem with mem | mem
  · have dear := cost_le_totalCost (k := 1) mem
    rw [XmlEvent.cost, usernameComment_length] at dear
    omega
  · obtain ⟨mode, depth⟩ := mid
    cases mode with
    | content b => exact run_closing_content ends mem
    | _ => exact run_closing (by simp [XmlMode.isContent]) ends content

/-- An issued username closes nothing. -/
theorem Issued.plain (issued : Issued username) : ∀ c ∈ username, c ≠ ']' ∧ c ≠ '?' ∧ c ≠ '\r' ∧ isXmlChar c := by
  obtain ⟨part, rfl, alphanumeric⟩ := issued
  have fixed : ∀ c ∈ "arena-".toList, c ≠ ']' ∧ c ≠ '?' ∧ c ≠ '\r' ∧ isXmlChar c :=
    forall_mem_of_check (by decide +kernel)
  intro c mem
  rcases List.mem_append.1 mem with mem | mem
  · exact fixed c mem
  · have letter := alphanumeric c mem
    refine ⟨?_, ?_, ?_, ?_⟩
    · rintro rfl
      exact absurd letter (by decide)
    · rintro rfl
      exact absurd letter (by decide)
    · rintro rfl
      exact absurd letter (by decide)
    · replace letter : ((decide (c.val ≥ 65 ∧ c.val ≤ 90) || (c.val ≥ 97 && c.val ≤ 122)) ||
          (c.val ≥ 48 && c.val ≤ 57)) = true := letter
      simp only [Bool.or_eq_true, Bool.and_eq_true, decide_eq_true_eq, ge_iff_le,
        UInt32.le_iff_toNat_le] at letter
      have range : 0x20 ≤ c.toNat ∧ c.toNat ≤ 0xFFFD := by
        have same : c.toNat = c.val.toNat := rfl
        simp at letter
        omega
      simp [isXmlChar, range]

/-- It has one dash. -/
theorem Issued.clean (issued : Issued username) : CleanComment username := by
  refine ⟨fun c mem => ⟨(issued.plain c mem).2.2.2, (issued.plain c mem).2.2.1⟩, ?_⟩
  obtain ⟨part, rfl, alphanumeric⟩ := issued
  have none : ¬ "--".toList <:+: part := by
    intro dashes
    exact absurd (alphanumeric '-' (dashes.subset (by decide))) (by decide)
  have noDash : part.head? ≠ some '-' := by
    intro head
    exact absurd (alphanumeric '-' (List.mem_of_mem_head? head)) (by decide)
  rw [String.toList_ofList] at none
  repeat rw [String.toList_ofList]
  simp only [List.cons_append, List.nil_append, List.infix_cons_iff, List.cons_prefix_cons, none, or_false]
  -- two dashes begin at a letter, or at the dash before the part
  rintro (starts | starts | starts | starts | starts | ⟨-, rest, rfl⟩)
  · exact absurd starts.1 (by decide)
  · exact absurd starts.1 (by decide)
  · exact absurd starts.1 (by decide)
  · exact absurd starts.1 (by decide)
  · exact absurd starts.1 (by decide)
  · exact noDash rfl

/-- After an issued username the reader is where it was. -/
theorem issued_stays {s : XmlReader} (calm : s.mode.Calm) (issued : Issued username)
    (run : s.run (beforeUsername ++ (username ++ (" -->".toList ++ closing))) = some (final, events)) :
    ¬ final.mode.isContent := by
  obtain ⟨s', first, later, raw, textual, run₂, rfl⟩ := run_beforeUsername calm run
  have fixed : ∀ c ∈ " -->".toList ++ closing, c ≠ ']' ∧ c ≠ '?' := by
    unfold closing
    repeat rw [String.toList_append]
    repeat rw [String.toList_ofList]
    exact forall_mem_of_check (by decide +kernel)
  refine (XmlReader.run_raw raw ?_ run₂).1.not_content
  intro c mem
  rcases List.mem_append.1 mem with mem | mem
  · exact ⟨(issued.plain c mem).1, (issued.plain c mem).2.1⟩
  · exact fixed c mem

theorem run_beforeUsername_content : XmlReader.run ⟨.content 0, 1⟩ beforeUsername =
    some (⟨.comment " Username: ".toList, 1⟩, "\n  ".toList.map .char) := by
  unfold beforeUsername
  repeat rw [String.toList_append]
  repeat rw [String.toList_ofList]
  decide +kernel

theorem username_parts :
    text ++ (" -->".toList ++ closing) = (text ++ [' ']) ++ ((['-', '-'] ++ ['>']) ++ closing) := by
  repeat rw [String.toList_ofList]
  simp

/-- **In content, the comment is the username**, or it ends too early. -/
theorem comment_read (short : v₄.length ≤ username.length)
    (run : XmlReader.run ⟨.content 0, 1⟩ (beforeUsername ++ (v₄ ++ (" -->".toList ++ closing))) =
      some (final, events))
    (same : events = closingEvents [.comment (usernameComment username)]) :
    v₄ = username ∧ (∀ c ∈ username, isXmlChar c) ∧ ¬ "--".toList <:+: username := by
  obtain ⟨mid, first, later, here, run₂, rfl⟩ := XmlReader.run_append_eq_some.1 run
  rw [run_beforeUsername_content] at here
  cases here
  rw [closingEvents, List.append_cancel_left_eq] at same
  rw [username_parts] at run₂
  obtain ⟨mid, first, later', within, run₃, rfl⟩ := XmlReader.run_append_eq_some.1 run₂
  rcases XmlReader.run_comment within with ⟨rfl, rfl, chars, clean⟩ | ⟨inner, more, rfl, less⟩
  · obtain ⟨mid, first, later'', ended, -, rfl⟩ := XmlReader.run_append_eq_some.1 run₃
    have last : (" Username: ".toList ++ (v₄ ++ [' '])).getLast? ≠ some '-' := by
      rw [← List.append_assoc, List.getLast?_concat]
      decide
    rw [XmlReader.run_comment_end last] at ended
    cases ended
    have whole : " Username: ".toList ++ (v₄ ++ [' ']) = usernameComment username :=
      XmlEvent.comment.inj (List.cons.inj same).1
    have space : " ".toList = [' '] := String.toList_ofList
    have inside := List.append_cancel_left (whole.trans (List.append_assoc _ _ _))
    rw [space] at inside
    obtain rfl := List.append_cancel_right inside
    refine ⟨rfl, fun c mem => chars c (by simp [mem]), fun dashes => ?_⟩
    have none := clean (by decide +kernel)
    rw [← List.append_assoc, List.dropLast_concat] at none
    exact none (dashes.trans (List.suffix_append _ _).isInfix)
  · have whole : inner = usernameComment username := XmlEvent.comment.inj (List.cons.inj same).1
    have length : inner.length = username.length + 12 := by rw [whole, usernameComment_length]
    repeat rw [String.toList_ofList] at less
    simp only [List.length_append, List.length_cons, List.length_nil] at less
    omega

/-! ## Clean texts -/

theorem CleanText.literal (clean : CleanText text) : isLiteral 0 text := by
  rw [isLiteral_iff]
  exact ⟨fun c mem => ⟨(clean.1 c mem).1, (clean.1 c mem).2.1, (clean.1 c mem).2.2.1⟩, by simpa using clean.2⟩

theorem CleanText.normalizeEnds_eq (clean : CleanText text) : normalizeEnds text = text :=
  normalizeEnds_of_notMem fun mem => (clean.1 _ mem).2.2.2 rfl

/-- A text that is read as itself is clean: what a reader makes of a text has no return. -/
theorem cleanText_of_read (same : normalizeEnds text = text) (literal : isLiteral 0 text) : CleanText text := by
  obtain ⟨chars, ends⟩ := isLiteral_iff.1 literal
  refine ⟨fun c mem => ?_, by simpa using ends⟩
  obtain ⟨char, less, amp⟩ := chars c mem
  refine ⟨char, less, amp, ?_⟩
  rintro rfl
  exact cr_notMem_normalizeEnds (same ▸ mem)

/-- **Clean texts are read as themselves.** -/
theorem read_of_clean (cleanName : CleanText name) (cleanHost : CleanText host)
    (cleanGroup : CleanText groupText) (cleanUsername : CleanComment username) :
    XmlReader.run ⟨.content 0, 4⟩ (name ++ rest host groupText username) =
      some (⟨.content 0, 0⟩,
        fieldEvents name host groupText (closingEvents [.comment (usernameComment username)])) := by
  have openedComment := run_beforeUsername_content
  have taken : XmlReader.run ⟨.comment " Username: ".toList, 1⟩ (username ++ [' ']) =
      some (⟨.comment (" Username: ".toList ++ (username ++ [' '])), 1⟩, []) := by
    refine XmlReader.run_comment_of_clean ?_ ?_
    · intro c mem
      rcases List.mem_append.1 mem with mem | mem
      · exact (cleanUsername.1 c mem).1
      · rw [List.mem_singleton.1 mem]
        decide
    · have none : ¬ "--".toList <:+: username := cleanUsername.2
      have blank : ¬ "--".toList <:+ username ++ [' '] := by
        rintro ⟨front, same⟩
        have ends := congrArg List.getLast? same
        simp at ends
      have within : ¬ "--".toList <:+: username ++ [' '] := by
        rw [List.infix_concat_iff]
        exact not_or.2 ⟨blank, none⟩
      rw [String.toList_ofList] at within
      repeat rw [String.toList_ofList]
      simpa [List.infix_cons_iff, List.cons_prefix_cons] using within
  have last : (" Username: ".toList ++ (username ++ [' '])).getLast? ≠ some '-' := by
    rw [← List.append_assoc, List.getLast?_concat]
    decide
  have ended : XmlReader.run ⟨.content 0, 1⟩ closing = some (⟨.content 0, 0⟩, [.char '\n', .stop "AnyConnectProfile".toList]) := by
    unfold closing
    repeat rw [String.toList_append]
    repeat rw [String.toList_ofList]
    rfl
  have finish := XmlReader.run_append_eq_some.2 ⟨_, _, _, XmlReader.run_comment_end last, ended, rfl⟩
  have inside := XmlReader.run_append_eq_some.2 ⟨_, _, _, taken, finish, rfl⟩
  rw [← username_parts] at inside
  have tail := XmlReader.run_append_eq_some.2 ⟨_, _, _, openedComment, inside, rfl⟩
  have third := XmlReader.run_field 4 cleanGroup.literal (afterGroup_markup everything_keeps) (by decide) tail
  have second := XmlReader.run_field 4 cleanHost.literal (afterHost_markup everything_keeps) (by decide) third
  have first := XmlReader.run_field 4 cleanName.literal (afterName_markup everything_keeps) (by decide) second
  exact first

theorem fieldEvents_filter (keeps : KeepsElements keep) : (fieldEvents name host groupText after).filter keep =
    fieldEvents name host groupText (after.filter keep) := by
  have texts : ∀ text : List Char, (text.map XmlEvent.char).filter keep = text.map .char := by
    intro text
    have textual : Textual (text.map XmlEvent.char) := by simp [Textual]
    exact textual.filter_eq keeps.chars
  simp only [fieldEvents, List.filter_append, List.filter_cons, keeps.starts, keeps.stops, texts, if_true,
    List.filter_nil]

/-- **The whole document**: it is read as the profile exactly when every text is clean. -/
theorem profile_iff : parseXml everything (declaration ++ (opening ++ (name ++ rest host groupText username))) =
      some (profile name host groupText [.comment (usernameComment username)]) ↔
    CleanText name ∧ CleanText host ∧ CleanText groupText ∧ CleanComment username := by
  rw [parseXml_profile_iff everything_keeps]
  constructor
  · rintro ⟨final, events, run, content, same⟩
    obtain ⟨s, events', run', outcome⟩ := fields_read everything_keeps length_normalizeEnds_le
      length_normalizeEnds_le length_normalizeEnds_le run same
    have all : events'.filter everything = events' := List.filter_eq_self.2 fun _ _ => rfl
    rcases outcome with ⟨texts, rfl, closed⟩ | ⟨calm, X, behind⟩
    · rw [all] at closed
      obtain ⟨plain, chars, dashes⟩ := comment_read length_normalizeEnds_le run' closed
      refine ⟨cleanText_of_read texts.first.1 (texts.first.1 ▸ texts.first.2),
        cleanText_of_read texts.second.1 (texts.second.1 ▸ texts.second.2),
        cleanText_of_read texts.third.1 (texts.third.1 ▸ texts.third.2), fun c mem => ⟨chars c mem, ?_⟩, dashes⟩
      rintro rfl
      exact cr_notMem_normalizeEnds (plain ▸ mem)
    · rw [all] at behind
      have mem : XmlEvent.comment (usernameComment username) ∈ events' := by
        rw [behind]
        simp [closingEvents, XmlNode.allEvents, XmlNode.events]
      exact absurd mem (comment_notMem calm content length_normalizeEnds_le run')
  · rintro ⟨cleanName, cleanHost, cleanGroup, cleanUsername⟩
    have plain : normalizeEnds username = username :=
      normalizeEnds_of_notMem fun mem => (cleanUsername.1 _ mem).2 rfl
    rw [cleanName.normalizeEnds_eq, cleanHost.normalizeEnds_eq, cleanGroup.normalizeEnds_eq, plain]
    exact ⟨_, _, read_of_clean cleanName cleanHost cleanGroup cleanUsername, rfl,
      List.filter_eq_self.2 fun _ _ => rfl⟩

/-- **Its elements**, for a username of the code's own. -/
theorem elements_iff (issued : Issued username) :
    parseXml elementsOnly (declaration ++ (opening ++ (name ++ rest host groupText username))) =
        some (profile name host groupText []) ↔
      CleanText name ∧ CleanText host ∧ CleanText groupText := by
  rw [parseXml_profile_iff elementsOnly_keeps]
  have plain : normalizeEnds username = username :=
    normalizeEnds_of_notMem fun mem => (issued.plain _ mem).2.2.1 rfl
  rw [plain]
  constructor
  · rintro ⟨final, events, run, content, same⟩
    obtain ⟨s, events', run', outcome⟩ := fields_read elementsOnly_keeps length_normalizeEnds_le
      length_normalizeEnds_le length_normalizeEnds_le run same
    rcases outcome with ⟨texts, -, -⟩ | ⟨calm, -, -⟩
    · exact ⟨cleanText_of_read texts.first.1 (texts.first.1 ▸ texts.first.2),
        cleanText_of_read texts.second.1 (texts.second.1 ▸ texts.second.2),
        cleanText_of_read texts.third.1 (texts.third.1 ▸ texts.third.2)⟩
    · exact absurd content (issued_stays calm issued run')
  · rintro ⟨cleanName, cleanHost, cleanGroup⟩
    rw [cleanName.normalizeEnds_eq, cleanHost.normalizeEnds_eq, cleanGroup.normalizeEnds_eq]
    refine ⟨_, _, read_of_clean cleanName cleanHost cleanGroup issued.clean, rfl, ?_⟩
    rw [fieldEvents_filter elementsOnly_keeps]
    rfl

/-- A Cisco key has an issued username, and so has it when the payload is gone. -/
theorem issued_of_create {material : KeyMaterial} (protocol : node.protocol = .cisco)
    (uuid : ∀ c ∈ (user.id.toList.splitOn '-').headD [], c.isAlphanum)
    (made : createAccessKey material user node = .ok key) :
    Issued (usernameOf key).toList ∧ Issued (usernameOf { key with secretPayload := [] }).toList := by
  simp only [createAccessKey, protocol] at made
  cases made
  have issued : Issued ("arena-" ++ String.ofList ((user.id.toList.splitOn '-').headD [])).toList :=
    ⟨_, by rw [String.toList_append]; exact congrArg _ String.toList_ofList, uuid⟩
  exact ⟨issued, issued⟩

/-- **The Cisco profile.** For every user, node, group and key, the document is read as the one
profile with these texts exactly when each of them is clean; and for a username that the code
gives, a reader of the elements alone finds them, with the texts of the name, the host and the
group, exactly when these three are. -/
theorem cisco_profile_iff (format : Json → String) (user : User) (node : Node) (key : AccessKey)
    (group : Json) (document : String) (member : node.metadata.getOr "group" (.str "ARENA") = .ok group)
    (written : ciscoProfileXml format user node key = .ok document) :
    (parseXml everything document.toList =
        some (profile user.name.toList node.host.toList (format group).toList
          [.comment (usernameComment (usernameOf key).toList)]) ↔
      CleanText user.name.toList ∧ CleanText node.host.toList ∧ CleanText (format group).toList ∧
        CleanComment (usernameOf key).toList) ∧
    (Issued (usernameOf key).toList →
      (parseXml elementsOnly document.toList =
          some (profile user.name.toList node.host.toList (format group).toList []) ↔
        CleanText user.name.toList ∧ CleanText node.host.toList ∧ CleanText (format group).toList)) := by
  rw [ciscoProfileXml_text member written]
  exact ⟨profile_iff, elements_iff⟩

def ciscoNode : Node where
  id := "cisco"
  name := "Cisco"
  slug := "cisco"
  kind := .cisco
  protocol := .cisco
  transport := .external
  host := "vpn.example.test"
  port := 443
  metadata := .obj [("group", .str "ARENA")]

def ciscoUser : User := { id := "3f2a", name := "Office" }

def ciscoMaterial : KeyMaterial := ⟨"key", "", "", "", none, "password"⟩

/-- An f-string of a text. -/
def showText : Json → String
  | .str s => s
  | _ => ""

/-- The profile of a user whose name is plain. -/
theorem cisco_profile_plain :
    ∃ key document, createAccessKey ciscoMaterial ciscoUser ciscoNode = .ok key ∧
      ciscoProfileXml showText ciscoUser ciscoNode key = .ok document ∧
      parseXml everything document.toList =
        some (profile "Office".toList "vpn.example.test".toList "ARENA".toList
          [.comment (usernameComment "arena-3f2a".toList)]) := by
  refine ⟨_, _, rfl, rfl, ((cisco_profile_iff showText ciscoUser ciscoNode _ (.str "ARENA") _ rfl rfl).1.2 ?_)⟩
  decide +kernel

/-- A name that the schema accepts, with an ampersand. -/
def ampersand : UserUpdate :=
  { UserUpdate.nothing with
    name := .set "R&D"
    nameLength := by rintro _ ⟨⟩; decide }

/-- A name with an ampersand makes a document that is not the profile. -/
theorem ampersand_breaks_profile :
    ¬ ∀ (format : Json → String) (p : UserUpdate) (user row : User) (node : Node) (material : KeyMaterial)
      (key : AccessKey) (group : Json) (document : String), patchUser p user = .ok row →
      createAccessKey material row node = .ok key →
      node.metadata.getOr "group" (.str "ARENA") = .ok group →
      ciscoProfileXml format row node key = .ok document →
      parseXml elementsOnly document.toList =
        some (profile row.name.toList node.host.toList (format group).toList []) := by
  intro claim
  have patched : patchUser ampersand ciscoUser = .ok (ampersand.apply ciscoUser) :=
    patchUser_eq_ok.2 ⟨rfl, rfl⟩
  have member : ciscoNode.metadata.getOr "group" (.str "ARENA") = .ok (.str "ARENA") := rfl
  obtain ⟨key, made⟩ : ∃ key, createAccessKey ciscoMaterial (ampersand.apply ciscoUser) ciscoNode = .ok key :=
    ⟨_, rfl⟩
  obtain ⟨document, written⟩ :
      ∃ document, ciscoProfileXml showText (ampersand.apply ciscoUser) ciscoNode key = .ok document :=
    ⟨_, rfl⟩
  have read := claim showText ampersand ciscoUser _ ciscoNode ciscoMaterial key _ document patched made member
    written
  have issued := (issued_of_create rfl (forall_mem_of_check (by decide +kernel)) made).1
  rw [ciscoProfileXml_text member written] at read
  exact absurd ((elements_iff issued).1 read).1 (by decide +kernel)

end Arena.CiscoProfile
