import Mathlib.Algebra.Ring.Nat
import Arena.Lib.Text

/-!
# XML

A reader of XML 1.0 documents that have no document type declaration: a machine takes one
character after the other and makes events of them, and the events are nested into elements.

Every character that is not literal text costs the reader one: a text of `n` characters that it
reads as `n` characters of content has no markup in it.
-/

namespace Arena.Lib

/-! ## Characters and names -/

/-- `Char`. -/
def isXmlChar (c : Char) : Bool :=
  c = '\t' || c = '\n' || c = '\r' || (0x20 ≤ c.toNat && c.toNat ≤ 0xFFFD) || 0x10000 ≤ c.toNat

/-- `S`. -/
def isXmlSpace (c : Char) : Bool := c = ' ' || c = '\t' || c = '\n' || c = '\r'

/-- The ranges of `NameStartChar`. -/
def nameStartRanges : List (ℕ × ℕ) :=
  [(0x3A, 0x3A), (0x41, 0x5A), (0x5F, 0x5F), (0x61, 0x7A), (0xC0, 0xD6), (0xD8, 0xF6), (0xF8, 0x2FF),
    (0x370, 0x37D), (0x37F, 0x1FFF), (0x200C, 0x200D), (0x2070, 0x218F), (0x2C00, 0x2FEF),
    (0x3001, 0xD7FF), (0xF900, 0xFDCF), (0xFDF0, 0xFFFD), (0x10000, 0xEFFFF)]

/-- What `NameChar` has beyond them. -/
def nameRanges : List (ℕ × ℕ) :=
  [(0x2D, 0x2E), (0x30, 0x39), (0xB7, 0xB7), (0x300, 0x36F), (0x203F, 0x2040)]

def isNameStart (c : Char) : Bool := nameStartRanges.any fun r => r.1 ≤ c.toNat && c.toNat ≤ r.2

def isNameChar (c : Char) : Bool :=
  isNameStart c || nameRanges.any fun r => r.1 ≤ c.toNat && c.toNat ≤ r.2

/-- `Name`. -/
def isName : List Char → Bool
  | [] => false
  | c :: rest => isNameStart c && rest.all isNameChar

/-- `\r\n` and a lone `\r` are read as `\n`. -/
def normalizeEnds : List Char → List Char
  | [] => []
  | '\r' :: '\n' :: rest => '\n' :: normalizeEnds rest
  | '\r' :: rest => '\n' :: normalizeEnds rest
  | c :: rest => c :: normalizeEnds rest

/-! ## References -/

/-- The number that digits write in a base. -/
def referenceValue (base : ℕ) (digits : List Char) : Option ℕ :=
  digits.foldl
    (fun n d => n.bind fun n =>
      if d.isDigit then some (base * n + (d.toNat - 48))
      else if base = 16 ∧ 'a' ≤ d ∧ d ≤ 'f' then some (base * n + (d.toNat - 87))
      else if base = 16 ∧ 'A' ≤ d ∧ d ≤ 'F' then some (base * n + (d.toNat - 55))
      else none)
    (if digits = [] then none else some 0)

/-- The character of a number, if documents may have it. -/
def charOf (n : ℕ) : Option Char :=
  if n.isValidChar && isXmlChar (Char.ofNat n) then some (Char.ofNat n) else none

/-- The character of a reference, from what stands between `&` and `;`. -/
def resolve : List Char → Option Char
  | '#' :: 'x' :: digits => (referenceValue 16 digits).bind charOf
  | '#' :: digits => (referenceValue 10 digits).bind charOf
  | name =>
    if name = "lt".toList then some '<'
    else if name = "gt".toList then some '>'
    else if name = "amp".toList then some '&'
    else if name = "apos".toList then some '\x27'
    else if name = "quot".toList then some '"'
    else none

/-! ## Tags -/

inductive XmlEvent where
  | char (c : Char)
  | start (name : List Char) (attributes : List (List Char × List Char))
  | stop (name : List Char)
  | comment (text : List Char)
  | instruction (target data : List Char)
  deriving DecidableEq

/-- The value of an attribute, from its literal; `reference` is a reference that is open. -/
def attributeValue (reference : Option (List Char)) : List Char → Option (List Char)
  | [] => if reference.isNone then some [] else none
  | c :: rest =>
    match reference with
    | some name =>
      if c = ';' then do
        let c ← resolve name
        let value ← attributeValue none rest
        some (c :: value)
      else attributeValue (some (name ++ [c])) rest
    | none =>
      if c = '&' then attributeValue (some []) rest
      else if c = '<' || !isXmlChar c then none
      else do
        let value ← attributeValue none rest
        some ((if isXmlSpace c then ' ' else c) :: value)

/-- The attributes that follow a name, each after white space and none twice. -/
def readAttributes : ℕ → List Char → Option (List (List Char × List Char))
  | 0, _ => none
  | fuel + 1, text =>
    match text.dropWhile isXmlSpace with
    | [] => some []
    | c :: rest =>
      if (c :: rest).length = text.length then none
      else
        let name := (c :: rest).takeWhile isNameChar
        match ((c :: rest).drop name.length).dropWhile isXmlSpace with
        | '=' :: more =>
          match more.dropWhile isXmlSpace with
          | [] => none
          | quote :: more =>
            let literal := more.takeWhile (· ≠ quote)
            if (quote = '"' || quote = '\x27') && isName name && literal.length < more.length then do
              let value ← attributeValue none literal
              let others ← readAttributes fuel (more.drop (literal.length + 1))
              if name ∈ others.map Prod.fst then none else some ((name, value) :: others)
            else none
        | _ => none

/-- A start tag or an empty element, from what stands between its angle brackets. -/
def readTag (body : List Char) : Option (List XmlEvent) :=
  let closed := body.getLast? = some '/'
  let body := if closed then body.dropLast else body
  let name := body.takeWhile isNameChar
  if isName name then do
    let attributes ← readAttributes (body.length + 1) (body.drop name.length)
    some (.start name attributes :: if closed then [.stop name] else [])
  else none

/-- An end tag, from what stands between `</` and `>`. -/
def readEndTag (body : List Char) : Option XmlEvent :=
  let name := body.takeWhile isNameChar
  if isName name && (body.drop name.length).all isXmlSpace then some (.stop name) else none

/-- A processing instruction, from what stands between `<?` and `?>`. -/
def readInstruction (body : List Char) : Option XmlEvent :=
  let target := body.takeWhile isNameChar
  let rest := body.drop target.length
  if isName target && target.map Char.toLower ≠ "xml".toList && (rest.head?.all isXmlSpace) then
    some (.instruction target (rest.dropWhile isXmlSpace))
  else none

/-! ## The machine -/

/-- Where the reader stands. In `content` and `cdata` the number is that of the `]` just before. -/
inductive XmlMode where
  | content (brackets : ℕ)
  | reference (name : List Char)
  | markup
  | declaration (text : List Char)
  | tag (quote : Option Char) (text : List Char)
  | endTag (text : List Char)
  | comment (text : List Char)
  | cdata (brackets : ℕ)
  | instruction (text : List Char)
  deriving DecidableEq

/-- One character, with the number of elements that are open. -/
def XmlMode.step (depth : ℕ) : XmlMode → Char → Option (XmlMode × List XmlEvent)
  | .content brackets, c =>
    if c = '<' then some (.markup, [])
    else if !isXmlChar c || (c = '>' && 2 ≤ brackets) then none
    else if depth = 0 then (if isXmlSpace c then some (.content 0, []) else none)
    else if c = '&' then some (.reference [], [])
    else some (.content (if c = ']' then brackets + 1 else 0), [.char c])
  | .reference name, c =>
    if c = ';' then (resolve name).map fun c => (.content 0, [.char c])
    else if isNameChar c || c = '#' then some (.reference (name ++ [c]), [])
    else none
  | .markup, c =>
    if c = '!' then some (.declaration [], [])
    else if c = '?' then some (.instruction [], [])
    else if c = '/' then some (.endTag [], [])
    else if isNameStart c then some (.tag none [c], [])
    else none
  | .declaration text, c =>
    if text ++ [c] = "--".toList then some (.comment [], [])
    else if text ++ [c] = "[CDATA[".toList then (if depth = 0 then none else some (.cdata 0, []))
    else if (text ++ [c]).isPrefixOf "--".toList || (text ++ [c]).isPrefixOf "[CDATA[".toList then
      some (.declaration (text ++ [c]), [])
    else none
  | .tag quote text, c =>
    if c = '<' then none
    else
      match quote with
      | some q => some (.tag (if c = q then none else some q) (text ++ [c]), [])
      | none =>
        if c = '>' then (readTag text).map fun events => (.content 0, events)
        else some (.tag (if c = '"' || c = '\x27' then some c else none) (text ++ [c]), [])
  | .endTag text, c =>
    if c = '>' then (readEndTag text).map fun event => (.content 0, [event])
    else if isNameChar c || isXmlSpace c then some (.endTag (text ++ [c]), [])
    else none
  | .comment text, c =>
    if !isXmlChar c then none
    else if "--".toList.isSuffixOf text then
      (if c = '>' then some (.content 0, [.comment text.dropLast.dropLast]) else none)
    else some (.comment (text ++ [c]), [])
  | .cdata brackets, c =>
    if !isXmlChar c then none
    else if c = ']' then
      (if 2 ≤ brackets then some (.cdata brackets, [.char ']']) else some (.cdata (brackets + 1), []))
    else if c = '>' && 2 ≤ brackets then some (.content 0, [])
    else some (.cdata 0, List.replicate brackets (.char ']') ++ [.char c])
  | .instruction text, c =>
    if !isXmlChar c then none
    else if c = '>' && text.getLast? = some '?' then
      (readInstruction text.dropLast).map fun event => (.content 0, [event])
    else some (.instruction (text ++ [c]), [])

/-- The number of open elements after an event. -/
def XmlEvent.depth (depth : ℕ) : XmlEvent → ℕ
  | .start _ _ => depth + 1
  | .stop _ => depth - 1
  | _ => depth

structure XmlReader where
  mode : XmlMode
  depth : ℕ
  deriving DecidableEq

def XmlReader.step (s : XmlReader) (c : Char) : Option (XmlReader × List XmlEvent) :=
  (s.mode.step s.depth c).map fun (mode, events) => (⟨mode, events.foldl XmlEvent.depth s.depth⟩, events)

def XmlReader.run (s : XmlReader) : List Char → Option (XmlReader × List XmlEvent)
  | [] => some (s, [])
  | c :: rest => do
    let (s, events) ← s.step c
    let (s, more) ← s.run rest
    some (s, events ++ more)

/-- The attributes of a declaration, in their order. -/
def isDeclaration (attributes : List (List Char × List Char)) : Bool :=
  let names := attributes.map Prod.fst
  attributes.head? = some ("version".toList, "1.0".toList) &&
    names.tail.isSublist ["encoding".toList, "standalone".toList] &&
    attributes.all fun (name, value) =>
      name ≠ "standalone".toList || value = "yes".toList || value = "no".toList

/-- What follows the declaration of a document, if it has one. -/
def afterDeclaration (text : List Char) : Option (List Char) :=
  if "<?xml".toList.isPrefixOf text && (text.drop 5).head?.all isXmlSpace then
    let body := (text.drop 5).takeWhile (· ≠ '?')
    match (text.drop 5).drop body.length with
    | '?' :: '>' :: rest =>
      (readAttributes (body.length + 1) body).bind fun attributes =>
        if isDeclaration attributes then some rest else none
    | _ => none
  else some text

/-- The events of a document. Whether the tags match is for the nesting. -/
def readEvents (document : List Char) : Option (List XmlEvent) := do
  let text ← afterDeclaration (normalizeEnds document)
  let (s, events) ← XmlReader.run ⟨.content 0, 0⟩ text
  match s.mode with
  | .content _ => some events
  | _ => none

/-! ## Elements -/

inductive XmlNode where
  | char (c : Char)
  | element (name : List Char) (attributes : List (List Char × List Char)) (children : List XmlNode)
  | comment (text : List Char)
  | instruction (target data : List Char)

mutual

/-- The events of a node. -/
def XmlNode.events : XmlNode → List XmlEvent
  | .char c => [.char c]
  | .element name attributes children =>
    .start name attributes :: (XmlNode.allEvents children ++ [.stop name])
  | .comment text => [.comment text]
  | .instruction target data => [.instruction target data]

def XmlNode.allEvents : List XmlNode → List XmlEvent
  | [] => []
  | node :: rest => node.events ++ XmlNode.allEvents rest

end

/-- An element that is open: its tag and the nodes before it, last first. -/
structure XmlFrame where
  name : List Char
  attributes : List (List Char × List Char)
  before : List XmlNode

/-- Nests events: `done` are the nodes of the innermost open element so far, last first. -/
def nest : List XmlFrame → List XmlNode → List XmlEvent → Option (List XmlNode)
  | [], done, [] => some done.reverse
  | _ :: _, _, [] => none
  | frames, done, .char c :: rest => nest frames (.char c :: done) rest
  | frames, done, .comment text :: rest => nest frames (.comment text :: done) rest
  | frames, done, .instruction target data :: rest => nest frames (.instruction target data :: done) rest
  | frames, done, .start name attributes :: rest => nest (⟨name, attributes, done⟩ :: frames) [] rest
  | [], _, .stop _ :: _ => none
  | frame :: frames, done, .stop name :: rest =>
    if frame.name = name then
      nest frames (.element name frame.attributes done.reverse :: frame.before) rest
    else none

/-- The top level of a document has one element. -/
def isDocument (nodes : List XmlNode) : Bool :=
  nodes.countP (fun | .element .. => true | _ => false) = 1

/-- What a reader makes of a document when it keeps these kinds of events. -/
def parseXml (keep : XmlEvent → Bool) (document : List Char) : Option (List XmlNode) := do
  let events ← readEvents document
  let nodes ← nest [] [] (events.filter keep)
  if isDocument nodes then some nodes else none

section

variable {frames : List XmlFrame} {done nodes : List XmlNode} {events rest : List XmlEvent}

theorem XmlNode.allEvents_append {more : List XmlNode} :
    allEvents (nodes ++ more) = allEvents nodes ++ allEvents more := by
  induction nodes with
  | nil => rw [List.nil_append, allEvents, List.nil_append]
  | cons node nodes ih => rw [List.cons_append, allEvents, allEvents, ih, List.append_assoc]

/-- The events that led to these open elements. -/
def openEvents : List XmlFrame → List XmlNode → List XmlEvent
  | [], done => XmlNode.allEvents done.reverse
  | frame :: frames, done =>
    openEvents frames frame.before ++ .start frame.name frame.attributes :: XmlNode.allEvents done.reverse

theorem openEvents_cons {node : XmlNode} :
    openEvents frames (node :: done) = openEvents frames done ++ node.events := by
  cases frames with
  | nil => simp [openEvents, XmlNode.allEvents_append, XmlNode.allEvents]
  | cons frame frames => simp [openEvents, XmlNode.allEvents_append, XmlNode.allEvents]

/-- Nodes that are nested have the events they were nested from. -/
theorem events_of_nest (nested : nest frames done events = some nodes) :
    openEvents frames done ++ events = XmlNode.allEvents nodes := by
  induction frames, done, events using nest.induct with
  | case1 done =>
    simp only [nest, Option.some.injEq] at nested
    subst nested
    rw [List.append_nil, openEvents]
  | case2 => simp [nest] at nested
  | case3 frames done c rest ih =>
    rw [← ih (by simpa only [nest] using nested), openEvents_cons]
    simp [XmlNode.events]
  | case4 frames done text rest ih =>
    rw [← ih (by simpa only [nest] using nested), openEvents_cons]
    simp [XmlNode.events]
  | case5 frames done target data rest ih =>
    rw [← ih (by simpa only [nest] using nested), openEvents_cons]
    simp [XmlNode.events]
  | case6 frames done name attributes rest ih =>
    rw [← ih (by simpa only [nest] using nested), openEvents]
    simp [XmlNode.allEvents]
  | case7 => simp [nest] at nested
  | case8 frame frames done rest ih =>
    rw [← ih (by simpa only [nest, if_true] using nested), openEvents_cons, openEvents]
    simp [XmlNode.events]
  | case9 frame frames done name rest differs => simp [nest, differs] at nested

mutual

/-- The events of a node nest to it. -/
theorem nest_events (frames : List XmlFrame) (done : List XmlNode) (rest : List XmlEvent) :
    (node : XmlNode) → nest frames done (node.events ++ rest) = nest frames (node :: done) rest
  | .char c => by simp [XmlNode.events, nest]
  | .element name attributes children => by
    simp only [XmlNode.events, List.cons_append, List.append_assoc, nest,
      nest_allEvents _ _ _ children, List.nil_append, if_true, List.append_nil, List.reverse_reverse]
  | .comment text => by simp [XmlNode.events, nest]
  | .instruction target data => by simp [XmlNode.events, nest]

theorem nest_allEvents (frames : List XmlFrame) (done : List XmlNode) (rest : List XmlEvent) :
    (nodes : List XmlNode) →
      nest frames done (XmlNode.allEvents nodes ++ rest) = nest frames (nodes.reverse ++ done) rest
  | [] => by simp [XmlNode.allEvents]
  | node :: nodes => by
    rw [XmlNode.allEvents, List.append_assoc, nest_events frames done _ node,
      nest_allEvents frames (node :: done) rest nodes]
    simp

end

/-- **Nesting is exact**: events nest to the nodes that they are the events of. -/
theorem nest_eq_some_iff : nest [] [] events = some nodes ↔ events = XmlNode.allEvents nodes := by
  constructor
  · intro nested
    simpa [openEvents, XmlNode.allEvents] using events_of_nest nested
  · rintro rfl
    have nested := nest_allEvents [] [] [] nodes
    rw [List.append_nil] at nested
    rw [nested]
    simp [nest]

theorem parseXml_eq_some_iff {keep : XmlEvent → Bool} {document : List Char} (one : isDocument nodes) :
    parseXml keep document = some nodes ↔
      ∃ events, readEvents document = some events ∧ events.filter keep = XmlNode.allEvents nodes := by
  simp only [parseXml, Option.bind_eq_bind, Option.bind_eq_some_iff, nest_eq_some_iff]
  constructor
  · rintro ⟨events, read, nodes', same, found⟩
    split at found
    · cases found
      exact ⟨events, read, same⟩
    · cases found
  · rintro ⟨events, read, same⟩
    exact ⟨events, read, nodes, same, by rw [if_pos one]⟩

end

/-- A declaration is read whatever follows it. -/
theorem afterDeclaration_append {body text : List Char} {attributes : List (List Char × List Char)}
    (space : (body.head?.any isXmlSpace) = true) (plain : '?' ∉ body)
    (read : readAttributes (body.length + 1) body = some attributes) (declares : isDeclaration attributes) :
    afterDeclaration ("<?xml".toList ++ (body ++ '?' :: '>' :: text)) = some text := by
  have starts : "<?xml".toList.isPrefixOf ("<?xml".toList ++ (body ++ '?' :: '>' :: text)) :=
    List.isPrefixOf_iff_prefix.2 (List.prefix_append _ _)
  have dropped : ("<?xml".toList ++ (body ++ '?' :: '>' :: text)).drop 5 = body ++ '?' :: '>' :: text :=
    List.drop_left' (by decide)
  have head : (body ++ '?' :: '>' :: text).head?.all isXmlSpace := by
    cases body with
    | nil => cases space
    | cons c body => exact space
  have taken : (body ++ '?' :: '>' :: text).takeWhile (· ≠ '?') = body := by
    have all : ∀ c ∈ body, decide (c ≠ '?') = true := by
      intro c mem
      simpa using (ne_of_mem_of_not_mem mem plain)
    rw [List.takeWhile_append_of_pos all]
    simp
  simp only [afterDeclaration, starts, dropped, head, taken, Bool.and_self, if_true, List.drop_left, read,
    Option.bind_some, declares]

/-! ## What the reader can make of a text -/

section

variable {k depth b : ℕ} {mode mode' : XmlMode} {s s' : XmlReader} {c : Char} {text more : List Char}
  {events : List XmlEvent}

def XmlMode.isContent : XmlMode → Bool
  | .content _ => true
  | _ => false

/-- What an event takes at least; for `k = 1` the text of a comment counts. -/
def XmlEvent.cost (k : ℕ) : XmlEvent → ℕ
  | .comment text => k * text.length + 1
  | _ => 1

/-- What has been read for the events to come. -/
def XmlMode.saved (k : ℕ) : XmlMode → ℕ
  | .tag _ _ => 1
  | .comment text => k * (text.length + 1)
  | .cdata brackets => brackets
  | _ => 0

def totalCost (k : ℕ) (events : List XmlEvent) : ℕ := (events.map (XmlEvent.cost k)).sum

@[simp] theorem totalCost_nil : totalCost k [] = 0 := rfl

@[simp] theorem totalCost_cons {e : XmlEvent} : totalCost k (e :: events) = e.cost k + totalCost k events := by
  simp [totalCost]

@[simp] theorem totalCost_append {later : List XmlEvent} :
    totalCost k (events ++ later) = totalCost k events + totalCost k later := by
  simp [totalCost]

@[simp] theorem totalCost_replicate {n : ℕ} : totalCost k (List.replicate n (.char c)) = n := by
  simp [totalCost, XmlEvent.cost]

theorem length_le_totalCost : events.length ≤ totalCost k events := by
  induction events with
  | nil => simp
  | cons e events ih =>
    have one : 1 ≤ e.cost k := by cases e <;> simp [XmlEvent.cost]
    simp only [List.length_cons, totalCost_cons]
    omega

theorem cost_le_totalCost {e : XmlEvent} (mem : e ∈ events) : e.cost k ≤ totalCost k events := by
  obtain ⟨front, back, rfl⟩ := List.append_of_mem mem
  simp only [totalCost_append, totalCost_cons]
  omega

theorem readTag_cost (read : readTag text = some events) : totalCost k events ≤ 2 := by
  simp only [readTag, Option.bind_eq_bind] at read
  split_ifs at read <;>
  · obtain ⟨attributes, -, same⟩ := Option.bind_eq_some_iff.1 read
    cases same
    simp [XmlEvent.cost]

theorem readEndTag_cost {e : XmlEvent} (read : readEndTag text = some e) : e.cost k = 1 := by
  simp only [readEndTag] at read
  split at read
  · cases read; rfl
  · cases read

theorem readInstruction_cost {e : XmlEvent} (read : readInstruction text = some e) : e.cost k = 1 := by
  simp only [readInstruction] at read
  split at read
  · cases read; rfl
  · cases read

/-- **What a character can pay for**: an event of cost one. -/
theorem XmlMode.step_cost (small : k ≤ 1) (step : mode.step depth c = some (mode', events)) :
    totalCost k events + mode'.saved k ≤ 1 + mode.saved k := by
  have cases_small : k = 0 ∨ k = 1 := by omega
  cases mode with
  | content brackets =>
    simp only [XmlMode.step] at step
    split_ifs at step <;> cases step <;> simp [saved, XmlEvent.cost]
  | reference name =>
    simp only [XmlMode.step] at step
    split_ifs at step
    · obtain ⟨ch, -, same⟩ := Option.map_eq_some_iff.1 step
      cases same
      simp [saved, XmlEvent.cost]
    · cases step
      simp [saved]
  | markup =>
    simp only [XmlMode.step] at step
    split_ifs at step <;> cases step <;> simp [saved]
  | declaration text =>
    simp only [XmlMode.step] at step
    split_ifs at step <;> cases step <;> simp [saved, small]
  | tag quote text =>
    simp only [XmlMode.step] at step
    split at step
    · cases step
    split at step
    · cases step
      simp [saved]
    split at step
    · obtain ⟨read, found, same⟩ := Option.map_eq_some_iff.1 step
      cases same
      have cost := readTag_cost (k := k) found
      simpa [saved] using cost
    · cases step
      simp [saved]
  | endTag text =>
    simp only [XmlMode.step] at step
    split_ifs at step
    · obtain ⟨read, found, same⟩ := Option.map_eq_some_iff.1 step
      cases same
      simp [saved, readEndTag_cost found]
    · cases step
      simp [saved]
  | comment text =>
    simp only [XmlMode.step] at step
    split_ifs at step
    · cases step
      rcases cases_small with rfl | rfl
      · simp [saved, XmlEvent.cost]
      · simp only [saved, XmlEvent.cost, totalCost_cons, totalCost_nil, List.length_dropLast]
        omega
    · cases step
      rcases cases_small with rfl | rfl
      · simp [saved]
      · simp only [saved, totalCost_nil, List.length_append, List.length_singleton]
        omega
  | cdata brackets =>
    simp only [XmlMode.step] at step
    split_ifs at step
    · cases step
      simp only [saved, totalCost_cons, totalCost_nil, XmlEvent.cost]
      omega
    · cases step
      simp only [saved, totalCost_nil]
      omega
    · cases step
      simp [saved]
    · cases step
      simp only [saved, totalCost_append, totalCost_replicate, totalCost_cons, totalCost_nil, XmlEvent.cost]
      omega
  | instruction text =>
    simp only [XmlMode.step] at step
    split_ifs at step
    · obtain ⟨read, found, same⟩ := Option.map_eq_some_iff.1 step
      cases same
      simp [saved, readInstruction_cost found]
    · cases step
      simp [saved]

theorem XmlReader.step_mode (step : s.step c = some (s', events)) :
    s.mode.step s.depth c = some (s'.mode, events) ∧ s'.depth = events.foldl XmlEvent.depth s.depth := by
  obtain ⟨⟨mode, out⟩, here, same⟩ := Option.map_eq_some_iff.1 step
  cases same
  exact ⟨here, rfl⟩

@[simp] theorem XmlReader.run_nil : s.run [] = some (s, []) := rfl

theorem XmlReader.run_cons_eq_some :
    s.run (c :: text) = some (s', events) ↔ ∃ mid first later, s.step c = some (mid, first) ∧
      mid.run text = some (s', later) ∧ events = first ++ later := by
  simp only [XmlReader.run, Option.bind_eq_bind, Option.bind_eq_some_iff, Prod.exists]
  constructor
  · rintro ⟨mid, first, here, last, later, rest, same⟩
    cases same
    exact ⟨mid, first, later, here, rest, rfl⟩
  · rintro ⟨mid, first, later, here, rest, rfl⟩
    exact ⟨mid, first, here, s', later, rest, rfl⟩

/-- Reading two texts after one another. -/
theorem XmlReader.run_append_eq_some :
    s.run (text ++ more) = some (s', events) ↔ ∃ mid first later, s.run text = some (mid, first) ∧
      mid.run more = some (s', later) ∧ events = first ++ later := by
  induction text generalizing s events with
  | nil => simp
  | cons c text ih =>
    rw [List.cons_append, run_cons_eq_some]
    constructor
    · rintro ⟨mid, first, later, here, rest, rfl⟩
      obtain ⟨last, between, final, start, finish, rfl⟩ := ih.1 rest
      exact ⟨last, first ++ between, final,
        run_cons_eq_some.2 ⟨mid, first, between, here, start, rfl⟩, finish, by simp⟩
    · rintro ⟨last, between, final, start, finish, rfl⟩
      obtain ⟨mid, first, later, here, rest, rfl⟩ := run_cons_eq_some.1 start
      exact ⟨mid, first, later ++ final, here, ih.2 ⟨last, later, final, rest, finish, rfl⟩, by simp⟩

/-- **What a text can pay for.** -/
theorem XmlReader.run_cost (small : k ≤ 1) (run : s.run text = some (s', events)) :
    totalCost k events + s'.mode.saved k ≤ text.length + s.mode.saved k := by
  induction text generalizing s events with
  | nil => cases run; simp
  | cons c text ih =>
    obtain ⟨mid, first, later, here, rest, rfl⟩ := run_cons_eq_some.1 run
    have one := XmlMode.step_cost small (step_mode here).1
    have others := ih rest
    simp only [totalCost_append, List.length_cons]
    omega

end

theorem readEvents_eq_some_iff {document : List Char} {events : List XmlEvent} : readEvents document = some events ↔
    ∃ text final, afterDeclaration (normalizeEnds document) = some text ∧
      XmlReader.run ⟨.content 0, 0⟩ text = some (final, events) ∧ final.mode.isContent := by
  simp only [readEvents, Option.bind_eq_bind, Option.bind_eq_some_iff, Prod.exists]
  constructor
  · rintro ⟨text, found, final, events', run, read⟩
    split at read
    · rename_i b content
      cases read
      exact ⟨text, final, found, run, by rw [content]; rfl⟩
    · cases read
  · rintro ⟨text, final, found, run, content⟩
    refine ⟨text, found, final, events, run, ?_⟩
    cases mode : final.mode with
    | content b => rfl
    | _ => rw [mode] at content; cases content

/-! ## Literal text -/

/-- Text that is read as itself, after this many `]`. -/
def isLiteral : ℕ → List Char → Bool
  | _, [] => true
  | brackets, c :: rest =>
    isXmlChar c && c ≠ '<' && c ≠ '&' && !(c = '>' && 2 ≤ brackets) &&
      isLiteral (if c = ']' then brackets + 1 else 0) rest

section

variable {depth b : ℕ} {s' : XmlReader} {c : Char} {text rest : List Char} {events : List XmlEvent}

/-- Literal text is its characters. -/
theorem XmlReader.run_literal (literal : isLiteral b text) (inside : depth ≠ 0) :
    ∃ b', XmlReader.run ⟨.content b, depth⟩ text = some (⟨.content b', depth⟩, text.map .char) := by
  induction text generalizing b with
  | nil => exact ⟨b, rfl⟩
  | cons c text ih =>
    simp only [isLiteral, Bool.and_eq_true, decide_eq_true_eq, Bool.not_eq_true', ne_eq] at literal
    obtain ⟨⟨⟨⟨char, noLess⟩, noAmp⟩, noEnd⟩, rest⟩ := literal
    obtain ⟨b', run⟩ := ih rest
    have here : XmlReader.step ⟨.content b, depth⟩ c =
        some (⟨.content (if c = ']' then b + 1 else 0), depth⟩, [.char c]) := by
      simp [step, XmlMode.step, char, noLess, noAmp, noEnd, inside, XmlEvent.depth]
    exact ⟨b', run_cons_eq_some.2 ⟨_, _, _, here, run, rfl⟩⟩

/-- A character of content is an event of its own, or is lost. -/
theorem XmlReader.step_content (step : XmlReader.step ⟨.content b, depth⟩ c = some (s', events)) :
    (s' = ⟨.content (if c = ']' then b + 1 else 0), depth⟩ ∧ events = [.char c] ∧
      isXmlChar c ∧ c ≠ '<' ∧ c ≠ '&' ∧ ¬ (c = '>' ∧ 2 ≤ b)) ∨ events = [] ∧ s'.mode.saved 0 = 0 := by
  obtain ⟨⟨mode, out⟩, here, same⟩ := Option.map_eq_some_iff.1 step
  cases same
  simp only [XmlMode.step] at here
  split at here
  · cases here
    exact .inr ⟨rfl, rfl⟩
  rename_i less
  split at here
  · cases here
  rename_i good
  split at here
  · split at here <;> cases here
    exact .inr ⟨rfl, rfl⟩
  split at here
  · cases here
    exact .inr ⟨rfl, rfl⟩
  rename_i amp
  cases here
  refine .inl ⟨rfl, rfl, ?_, less, amp, ?_⟩
  · by_contra no
    exact good (by simp [no])
  · rintro ⟨rfl, two⟩
    exact good (by simp [two])

/-- **A text that loses nothing is literal.** -/
theorem XmlReader.literal_of_run (run : XmlReader.run ⟨.content b, depth⟩ text = some (s', events))
    (full : text.length ≤ events.length) :
    isLiteral b text ∧ events = text.map .char ∧ ∃ b', s' = ⟨.content b', depth⟩ := by
  induction text generalizing b events with
  | nil =>
    cases run
    exact ⟨rfl, rfl, b, rfl⟩
  | cons c text ih =>
    obtain ⟨mid, first, later, here, rest, rfl⟩ := run_cons_eq_some.1 run
    have paid := run_cost (k := 0) (by decide) rest
    have length : later.length ≤ totalCost 0 later := length_le_totalCost
    simp only [List.length_cons, List.length_append] at full
    rcases step_content here with ⟨rfl, rfl, char, noLess, noAmp, noEnd⟩ | ⟨rfl, nothing⟩
    · have fewer : text.length ≤ later.length := by
        rw [List.length_singleton] at full
        omega
      obtain ⟨literal, rfl, b', rfl⟩ := ih rest fewer
      refine ⟨?_, rfl, b', rfl⟩
      simpa [isLiteral, char, noLess, noAmp, literal, imp_iff_not_or] using noEnd
    · rw [List.length_nil] at full
      rw [nothing] at paid
      omega

/-- Where `]]>` can begin. -/
theorem endsCdata_iff (other : c ≠ ']') :
    "]]>".toList <:+: List.replicate b ']' ++ c :: rest ↔ c = '>' ∧ 2 ≤ b ∨ "]]>".toList <:+: rest := by
  have shape : "]]>".toList = [']', ']', '>'] := rfl
  rw [shape]
  induction b with
  | zero =>
    rw [List.replicate_zero, List.nil_append, List.infix_cons_iff]
    simp [List.cons_prefix_cons, other.symm]
  | succ b ih =>
    rw [List.replicate_succ, List.cons_append, List.infix_cons_iff]
    refine (or_congr_right ih).trans ?_
    match b with
    | 0 => simp [List.cons_prefix_cons, other.symm]
    | 1 => simp [List.cons_prefix_cons, eq_comm]
    | b + 2 => simp [List.replicate_succ, List.cons_prefix_cons]

theorem isLiteral_iff : isLiteral b text ↔
    (∀ c ∈ text, isXmlChar c ∧ c ≠ '<' ∧ c ≠ '&') ∧
      ¬ "]]>".toList <:+: List.replicate b ']' ++ text := by
  induction text generalizing b with
  | nil =>
    have absent : ¬ "]]>".toList <:+: List.replicate b ']' := by
      intro there
      have mem : '>' ∈ List.replicate b ']' := there.subset (by decide)
      exact absurd (List.eq_of_mem_replicate mem) (by decide)
    simpa [isLiteral] using absent
  | cons c text ih =>
    by_cases bracket : c = ']'
    · subst bracket
      have moved : List.replicate b ']' ++ ']' :: text = List.replicate (b + 1) ']' ++ text := by
        rw [List.replicate_succ', List.append_assoc, List.singleton_append]
      rw [moved]
      simp [isLiteral, ih, show isXmlChar ']' from by decide]
    · rw [endsCdata_iff bracket]
      simp [isLiteral, ih, bracket]
      tauto

end

/-! ## Line ends -/

section

variable {text more : List Char}

theorem normalizeEnds_cons {c : Char} (plain : c ≠ '\r') :
    normalizeEnds (c :: text) = c :: normalizeEnds text := by
  rw [normalizeEnds] <;> simp [plain]

theorem normalizeEnds_return (lone : text.head? ≠ some '\n') :
    normalizeEnds ('\r' :: text) = '\n' :: normalizeEnds text := by
  rw [normalizeEnds]
  rintro rest rfl
  exact lone rfl

theorem cr_notMem_normalizeEnds : '\r' ∉ normalizeEnds text := by
  induction text using normalizeEnds.induct with
  | case1 => simp [normalizeEnds]
  | case2 rest ih => simpa [normalizeEnds] using ih
  | case3 rest other ih => simpa [normalizeEnds] using ih
  | case4 c rest _ other ih =>
    have ne : c ≠ '\r' := other
    simp [normalizeEnds, ne.symm, ih]

theorem length_normalizeEnds_le : (normalizeEnds text).length ≤ text.length := by
  induction text using normalizeEnds.induct with
  | case1 => simp [normalizeEnds]
  | case2 rest ih => simp only [normalizeEnds, List.length_cons]; omega
  | case3 rest other ih => simpa [normalizeEnds] using ih
  | case4 c rest _ other ih => simpa [normalizeEnds] using ih

theorem normalizeEnds_append_of_notMem (plain : '\r' ∉ text) :
    normalizeEnds (text ++ more) = text ++ normalizeEnds more := by
  induction text with
  | nil => rfl
  | cons c text ih =>
    rw [List.mem_cons, not_or] at plain
    rw [List.cons_append, normalizeEnds_cons (Ne.symm plain.1), ih plain.2, List.cons_append]

theorem normalizeEnds_of_notMem (plain : '\r' ∉ text) : normalizeEnds text = text := by
  have alone : normalizeEnds (text ++ []) = text ++ normalizeEnds [] := normalizeEnds_append_of_notMem plain
  simpa [normalizeEnds] using alone

/-- A line end is not across the border of two texts. -/
theorem normalizeEnds_append (border : more.head? ≠ some '\n') :
    normalizeEnds (text ++ more) = normalizeEnds text ++ normalizeEnds more := by
  induction text using normalizeEnds.induct with
  | case1 => simp [normalizeEnds]
  | case2 rest ih => simp [normalizeEnds, ih]
  | case3 rest other ih =>
    have lone : rest.head? ≠ some '\n' := by
      cases rest with
      | nil => simp
      | cons c rest => exact fun same => other rest (by rw [Option.some.inj same])
    have lone' : (rest ++ more).head? ≠ some '\n' := by
      cases rest with
      | nil => exact border
      | cons c rest => exact lone
    rw [List.cons_append, normalizeEnds_return lone, normalizeEnds_return lone', ih, List.cons_append]
  | case4 c rest _ other ih =>
    rw [List.cons_append, normalizeEnds_cons other, normalizeEnds_cons other, ih, List.cons_append]

end

/-! ## Outside of content -/

section

variable {depth b : ℕ} {mode mode' : XmlMode} {s s' : XmlReader} {c : Char} {t text : List Char}
  {events : List XmlEvent}

def Textual (events : List XmlEvent) : Prop := ∀ e ∈ events, ∃ c, e = .char c

/-- In a section or an instruction, with no part of its end read. -/
def XmlMode.Raw : XmlMode → Prop
  | .cdata brackets => brackets = 0
  | .instruction text => text.getLast? ≠ some '?'
  | _ => False

/-- The same, or in a comment. -/
def XmlMode.Calm : XmlMode → Prop
  | .comment text => text.getLast? ≠ some '-'
  | mode => mode.Raw

theorem XmlMode.Raw.not_content (raw : mode.Raw) : ¬ mode.isContent := by
  cases mode <;> simp_all [Raw, isContent]

theorem XmlMode.Calm.not_content (calm : mode.Calm) : ¬ mode.isContent := by
  cases mode <;> simp_all [Calm, Raw, isContent]

theorem XmlMode.Raw.calm (raw : mode.Raw) : mode.Calm := by
  cases mode <;> simp_all [Calm, Raw]

/-- Only `>` and `;` lead back to content. -/
theorem XmlMode.step_not_content (out : ¬ mode.isContent) (angle : c ≠ '>') (semicolon : c ≠ ';')
    (step : mode.step depth c = some (mode', events)) : ¬ mode'.isContent := by
  cases mode with
  | content brackets => exact absurd rfl out
  | reference name =>
    simp only [XmlMode.step, semicolon, if_false] at step
    split at step <;> cases step
    exact Bool.false_ne_true
  | markup =>
    simp only [XmlMode.step] at step
    split_ifs at step <;> cases step <;> exact Bool.false_ne_true
  | declaration text =>
    simp only [XmlMode.step] at step
    split_ifs at step <;> cases step <;> exact Bool.false_ne_true
  | tag quote text =>
    simp only [XmlMode.step, angle, if_false] at step
    split at step
    · cases step
    · split at step <;> cases step <;> exact Bool.false_ne_true
  | endTag text =>
    simp only [XmlMode.step, angle, if_false] at step
    split at step <;> cases step
    exact Bool.false_ne_true
  | comment text =>
    simp only [XmlMode.step, angle, if_false] at step
    split_ifs at step
    cases step
    exact Bool.false_ne_true
  | cdata brackets =>
    simp only [XmlMode.step, angle, decide_false, Bool.false_and, Bool.false_eq_true, if_false] at step
    split_ifs at step <;> cases step <;> exact Bool.false_ne_true
  | instruction text =>
    simp only [XmlMode.step, angle, decide_false, Bool.false_and, Bool.false_eq_true, if_false] at step
    split at step <;> cases step
    exact Bool.false_ne_true

theorem Textual.append {later : List XmlEvent} (first : Textual events) (second : Textual later) :
    Textual (events ++ later) := by
  intro e mem
  rcases List.mem_append.1 mem with mem | mem
  · exact first e mem
  · exact second e mem

/-- A tag that begins outside of content begins in a section, an instruction or a comment. -/
theorem XmlMode.step_less (out : ¬ mode.isContent) (step : mode.step depth '<' = some (mode', events)) :
    mode'.Calm ∧ Textual events := by
  have name : isNameChar '<' = false := by decide
  have start : isNameStart '<' = false := by decide
  have char : isXmlChar '<' = true := by decide
  have angle : '<' ≠ '>' := by decide
  have bracket : '<' ≠ ']' := by decide
  cases mode with
  | content => exact absurd rfl out
  | reference name' => simp [XmlMode.step, name] at step
  | markup => simp [XmlMode.step, start] at step
  | declaration text =>
    -- neither of the two openings has this character
    have absent : ∀ whole : List Char, '<' ∉ whole → ¬ text ++ ['<'] <+: whole :=
      fun whole absent starts => absent (starts.subset (by simp))
    have dashes := absent "--".toList (by decide)
    have cdata := absent "[CDATA[".toList (by decide)
    simp only [XmlMode.step, List.isPrefixOf_iff_prefix, dashes, cdata, Bool.or_eq_true, or_self, if_false] at step
    have notDashes : text ++ ['<'] ≠ "--".toList := fun same => dashes (same ▸ List.prefix_rfl)
    have notCdata : text ++ ['<'] ≠ "[CDATA[".toList := fun same => cdata (same ▸ List.prefix_rfl)
    rw [if_neg notDashes, if_neg notCdata] at step
    cases step
  | tag quote text => simp [XmlMode.step] at step
  | endTag text => simp [XmlMode.step, name, isXmlSpace] at step
  | comment text =>
    simp only [XmlMode.step, char, angle, Bool.not_true, Bool.false_eq_true, if_false] at step
    split at step
    · cases step
    · cases step
      exact ⟨by simp [Calm], by simp [Textual]⟩
  | cdata brackets =>
    simp only [XmlMode.step, char, angle, bracket, Bool.not_true, Bool.false_eq_true, if_false,
      decide_false, Bool.false_and] at step
    cases step
    refine ⟨show (0 : ℕ) = 0 from rfl, ?_⟩
    intro e mem
    rcases List.mem_append.1 mem with mem | mem
    · exact ⟨_, List.eq_of_mem_replicate mem⟩
    · exact ⟨_, List.mem_singleton.1 mem⟩
  | instruction text =>
    simp only [XmlMode.step, char, angle, Bool.not_true, Bool.false_eq_true, if_false, decide_false,
      Bool.false_and] at step
    cases step
    exact ⟨by simp [Calm, Raw], by simp [Textual]⟩

/-- Other characters than these change nothing inside. -/
theorem XmlMode.Raw.step (raw : mode.Raw) (bracket : c ≠ ']') (question : c ≠ '?')
    (step : mode.step depth c = some (mode', events)) : mode'.Raw ∧ Textual events := by
  cases mode with
  | cdata brackets =>
    obtain rfl : brackets = 0 := raw
    simp only [XmlMode.step, bracket, if_false, show ¬ 2 ≤ 0 from by decide, decide_false, Bool.and_false,
      Bool.false_eq_true, List.replicate_zero, List.nil_append] at step
    split at step
    · cases step
    · cases step
      exact ⟨rfl, by simp [Textual]⟩
  | instruction text =>
    have last : text.getLast? ≠ some '?' := raw
    simp only [XmlMode.step, last, decide_false, Bool.and_false, Bool.false_eq_true, if_false] at step
    split at step
    · cases step
    · cases step
      exact ⟨by simp [Raw, question], by simp [Textual]⟩
  | _ => exact raw.elim

theorem XmlMode.Calm.step (calm : mode.Calm) (plain : c ∉ ['-', ']', '?'])
    (step : mode.step depth c = some (mode', events)) : mode'.Calm ∧ Textual events := by
  simp only [List.mem_cons, List.not_mem_nil, or_false, not_or] at plain
  obtain ⟨dash, bracket, question⟩ := plain
  cases mode with
  | comment text =>
    have last : text.getLast? ≠ some '-' := calm
    have ended : ¬ "--".toList.isSuffixOf text := by
      intro ends
      obtain ⟨front, rfl⟩ := List.isSuffixOf_iff_suffix.1 ends
      exact last (by simp)
    simp only [XmlMode.step, ended, Bool.false_eq_true, if_false] at step
    split at step
    · cases step
    · cases step
      exact ⟨by simp [Calm, dash], by simp [Textual]⟩
  | cdata brackets =>
    have raw : (XmlMode.cdata brackets).Raw := calm
    obtain ⟨raw, textual⟩ := raw.step bracket question step
    exact ⟨raw.calm, textual⟩
  | instruction text =>
    have raw : (XmlMode.instruction text).Raw := calm
    obtain ⟨raw, textual⟩ := raw.step bracket question step
    exact ⟨raw.calm, textual⟩
  | _ => exact calm.elim

theorem XmlReader.run_raw (raw : s.mode.Raw) (plain : ∀ c ∈ text, c ≠ ']' ∧ c ≠ '?')
    (run : s.run text = some (s', events)) : s'.mode.Raw ∧ Textual events := by
  induction text generalizing s events with
  | nil => cases run; exact ⟨raw, by simp [Textual]⟩
  | cons c text ih =>
    obtain ⟨mid, first, later, here, rest, rfl⟩ := run_cons_eq_some.1 run
    have ⟨bracket, question⟩ := plain c (by simp)
    obtain ⟨raw', textual⟩ := raw.step bracket question (step_mode here).1
    obtain ⟨raw'', textual'⟩ := ih raw' (fun c mem => plain c (by simp [mem])) rest
    exact ⟨raw'', textual.append textual'⟩

theorem XmlReader.run_calm (calm : s.mode.Calm) (plain : ∀ c ∈ text, c ∉ ['-', ']', '?'])
    (run : s.run text = some (s', events)) : s'.mode.Calm ∧ Textual events := by
  induction text generalizing s events with
  | nil => cases run; exact ⟨calm, by simp [Textual]⟩
  | cons c text ih =>
    obtain ⟨mid, first, later, here, rest, rfl⟩ := run_cons_eq_some.1 run
    obtain ⟨calm', textual⟩ := calm.step (plain c (by simp)) (step_mode here).1
    obtain ⟨calm'', textual'⟩ := ih calm' (fun c mem => plain c (by simp [mem])) rest
    exact ⟨calm'', textual.append textual'⟩

/-- **Markup outside of content** is text or nothing, and does not lead back. -/
theorem XmlReader.run_markup (out : ¬ s.mode.isContent) (plain : ∀ c ∈ text, c ∉ ['-', ']', '?'])
    (run : s.run ('<' :: text) = some (s', events)) : s'.mode.Calm ∧ Textual events := by
  obtain ⟨mid, first, later, here, rest, rfl⟩ := run_cons_eq_some.1 run
  obtain ⟨calm, textual⟩ := XmlMode.step_less out (step_mode here).1
  obtain ⟨calm', textual'⟩ := run_calm calm plain rest
  exact ⟨calm', textual.append textual'⟩

/-! ## Comments -/

theorem dashes_infix_concat {t : List Char} {c : Char} :
    "--".toList <:+: (t ++ [c]).dropLast ↔ "--".toList <:+: t := by
  rw [List.dropLast_concat]

theorem dashes_infix_of_dropLast (ends : ¬ "--".toList.isSuffixOf t) (clean : ¬ "--".toList <:+: t.dropLast) :
    ¬ "--".toList <:+: t := by
  rcases List.eq_nil_or_concat' t with rfl | ⟨front, c, rfl⟩
  · exact clean
  · rw [List.dropLast_concat] at clean
    rw [List.infix_concat_iff]
    rintro (suffix | within)
    · exact ends (List.isSuffixOf_iff_suffix.2 suffix)
    · exact clean within

/-- **A comment** takes a text in, or ends within it. -/
theorem XmlReader.run_comment (run : XmlReader.run ⟨.comment t, depth⟩ text = some (s', events)) :
    (s' = ⟨.comment (t ++ text), depth⟩ ∧ events = [] ∧ (∀ c ∈ text, isXmlChar c) ∧
      (¬ "--".toList <:+: t.dropLast → ¬ "--".toList <:+: (t ++ text).dropLast)) ∨
    ∃ inner later, events = .comment inner :: later ∧ inner.length + 3 ≤ t.length + text.length := by
  induction text generalizing t events with
  | nil =>
    cases run
    exact .inl ⟨by simp, rfl, by simp, by simp⟩
  | cons c text ih =>
    obtain ⟨mid, first, later, here, rest, rfl⟩ := run_cons_eq_some.1 run
    obtain ⟨⟨mode, out⟩, moved, same⟩ := Option.map_eq_some_iff.1 here
    cases same
    simp only [XmlMode.step] at moved
    split_ifs at moved with bad ended angle
    · cases moved
      obtain ⟨front, rfl⟩ := List.isSuffixOf_iff_suffix.1 ended
      refine .inr ⟨_, later, rfl, ?_⟩
      simp
      omega
    · cases moved
      rcases ih rest with ⟨rfl, rfl, chars, clean⟩ | ⟨inner, later', rfl, short⟩
      · refine .inl ⟨by simp, rfl, ?_, ?_⟩
        · intro d mem
          rcases List.mem_cons.1 mem with rfl | mem
          · simpa using bad
          · exact chars d mem
        · intro before
          simpa using clean (by rw [dashes_infix_concat]; exact dashes_infix_of_dropLast ended before)
      · refine .inr ⟨inner, later', rfl, ?_⟩
        simp only [List.length_append, List.length_singleton] at short
        simp only [List.length_cons]
        omega

/-- A character that a comment takes in. -/
theorem XmlReader.step_comment {c : Char} (char : isXmlChar c) (ended : ¬ "--".toList.isSuffixOf t) :
    XmlReader.step ⟨.comment t, depth⟩ c = some (⟨.comment (t ++ [c]), depth⟩, []) := by
  simp only [step, XmlMode.step, char, ended, Bool.not_true, Bool.false_eq_true, if_false, Option.map_some,
    List.foldl_nil]

theorem XmlReader.run_dashes (last : t.getLast? ≠ some '-') :
    XmlReader.run ⟨.comment t, depth⟩ ['-', '-'] = some (⟨.comment (t ++ ['-'] ++ ['-']), depth⟩, []) := by
  have none : ¬ "--".toList.isSuffixOf t := by
    rw [List.isSuffixOf_iff_suffix]
    rintro ⟨front, rfl⟩
    exact last (by simp)
  have one : ¬ "--".toList.isSuffixOf (t ++ ['-']) := by
    rw [List.isSuffixOf_iff_suffix]
    rintro ⟨front, same⟩
    have again : (front ++ ['-']) ++ ['-'] = t ++ ['-'] := by simpa using same
    rw [← List.append_cancel_right again] at last
    exact last (by simp)
  refine run_cons_eq_some.2 ⟨_, _, _, step_comment (by decide) none, ?_, rfl⟩
  exact run_cons_eq_some.2 ⟨_, _, _, step_comment (by decide) one, rfl, rfl⟩

theorem dashes_isSuffixOf : "--".toList.isSuffixOf (t ++ ['-'] ++ ['-']) :=
  List.isSuffixOf_iff_suffix.2 ⟨t, by simp⟩

/-- The end of a comment. -/
theorem XmlReader.run_comment_end (last : t.getLast? ≠ some '-') :
    XmlReader.run ⟨.comment t, depth⟩ (['-', '-'] ++ ['>']) = some (⟨.content 0, depth⟩, [.comment t]) := by
  have char : isXmlChar '>' = true := by decide
  have ends : XmlReader.step ⟨.comment (t ++ ['-'] ++ ['-']), depth⟩ '>' =
      some (⟨.content 0, depth⟩, [.comment t]) := by
    simp only [step, XmlMode.step, char, dashes_isSuffixOf, Bool.not_true, Bool.false_eq_true, if_false, if_true,
      Option.map_some, List.dropLast_concat, List.foldl_cons, List.foldl_nil, XmlEvent.depth]
  have tail := run_cons_eq_some.2 ⟨_, _, _, ends, run_nil, rfl⟩
  exact run_append_eq_some.2 ⟨_, _, _, run_dashes last, tail, rfl⟩

/-- Two dashes that do not end a comment. -/
theorem XmlReader.run_dashes_space (last : t.getLast? ≠ some '-') :
    XmlReader.run ⟨.comment t, depth⟩ (['-', '-'] ++ ' ' :: text) ≠ some (s', events) := by
  intro run
  obtain ⟨mid, first, later, dashes, run, -⟩ := run_append_eq_some.1 run
  rw [run_dashes last] at dashes
  cases dashes
  obtain ⟨mid, first, later, space, -, -⟩ := run_cons_eq_some.1 run
  have char : isXmlChar ' ' = true := by decide
  have angle : ' ' ≠ '>' := by decide
  simp only [step, XmlMode.step, char, dashes_isSuffixOf, angle, Bool.not_true, Bool.false_eq_true, if_false,
    if_true, Option.map_none] at space
  cases space

/-- A text without dashes side by side stays in the comment. -/
theorem XmlReader.run_comment_of_clean (chars : ∀ c ∈ text, isXmlChar c) (clean : ¬ "--".toList <:+: t ++ text) :
    XmlReader.run ⟨.comment t, depth⟩ text = some (⟨.comment (t ++ text), depth⟩, []) := by
  induction text generalizing t with
  | nil => simp
  | cons c text ih =>
    have char := chars c (by simp)
    have ended : ¬ "--".toList.isSuffixOf t := by
      intro ends
      exact clean ((List.isSuffixOf_iff_suffix.1 ends).isInfix.trans (List.prefix_append t _).isInfix)
    have here : XmlReader.step ⟨.comment t, depth⟩ c = some (⟨.comment (t ++ [c]), depth⟩, []) :=
      step_comment char ended
    have rest := ih (t := t ++ [c]) (fun d mem => chars d (by simp [mem])) (by simpa using clean)
    exact run_cons_eq_some.2 ⟨_, _, _, here, by simpa using rest, rfl⟩

end

/-! ## Texts between tags

A document made of texts and of markup that closes one element after each: where it has the
events that it was made for, no text has markup in it. A text that leaves content has to
make up for what its markup takes, and nothing after it can.
-/

section

variable {keep : XmlEvent → Bool} {depth : ℕ} {s final : XmlReader} {e : XmlEvent}
  {X Y events opens rest after : List XmlEvent} {name v w markup more : List Char} {down : ℕ → ℕ}

/-- Markup that ends an element, then has the tags `opens`, wherever content has it. -/
structure IsMarkup (keep : XmlEvent → Bool) (markup name : List Char) (opens : List XmlEvent)
    (down : ℕ → ℕ) : Prop where
  less : markup.head? = some '<'
  plain : ∀ c ∈ markup.tail, c ∉ ['-', ']', '?']
  read : ∀ b depth, XmlReader.run ⟨.content b, depth⟩ markup =
    some (⟨.content 0, down depth⟩, .stop name :: opens)
  kept : ∀ e ∈ XmlEvent.stop name :: opens, keep e

/-- Fewer events than come before one do not reach it. -/
theorem append_pass (same : events ++ rest = X ++ e :: after) (short : events.length ≤ X.length) :
    ∃ X', X = events ++ X' ∧ rest = X' ++ e :: after := by
  rcases List.append_eq_append_iff.1 same with ⟨X', rfl, rfl⟩ | ⟨Y, rfl, cut⟩
  · exact ⟨X', rfl, rfl⟩
  · rw [List.length_append] at short
    obtain rfl : Y = [] := List.length_eq_zero_iff.1 (by omega)
    exact ⟨[], by simp, by simpa using cut.symm⟩

/-- Text does not reach an end tag. -/
theorem textual_pass (textual : Textual events) (same : events ++ rest = X ++ .stop name :: after) :
    ∃ X', X = events ++ X' ∧ rest = X' ++ .stop name :: after := by
  rcases List.append_eq_append_iff.1 same with ⟨X', rfl, rfl⟩ | ⟨Y, rfl, cut⟩
  · exact ⟨X', rfl, rfl⟩
  · cases Y with
    | nil => exact ⟨[], by simp, by simpa using cut.symm⟩
    | cons e Y =>
      obtain ⟨c, char⟩ := textual e (by simp)
      rw [List.cons_append] at cut
      rw [← (List.cons.inj cut).1] at char
      cases char

theorem Textual.filter_eq (textual : Textual events) (chars : ∀ c, keep (.char c)) :
    events.filter keep = events := by
  rw [List.filter_eq_self]
  intro e mem
  obtain ⟨c, rfl⟩ := textual e mem
  exact chars c

theorem XmlMode.Calm.saved_eq {mode : XmlMode} (calm : mode.Calm) : mode.saved 0 = 0 := by
  cases mode with
  | comment text => exact Nat.zero_mul _
  | cdata brackets => exact calm
  | instruction text => rfl
  | _ => exact calm.elim

/-- Where the reader stands before a text: at its beginning, or outside of content with other
events still to come. -/
inductive Before (depth : ℕ) (s : XmlReader) (X : List XmlEvent) : Prop
  | aligned (start : s = ⟨.content 0, depth⟩) (none : X = [])
  | behind (calm : s.mode.Calm) (some : X ≠ [])

/-- **One text and the markup after it.** -/
theorem XmlReader.field_step (before : Before depth s X) (chars : ∀ c, keep (.char c))
    (mark : IsMarkup keep markup name opens down) (short : v.length ≤ w.length)
    (new : XmlEvent.stop name ∉ X) (run : s.run (v ++ (markup ++ more)) = some (final, events))
    (same : events.filter keep = X ++ (w.map .char ++ .stop name :: (opens ++ after))) :
    ∃ (s' : XmlReader) (events' : List XmlEvent), s'.run more = some (final, events') ∧
      ((s = ⟨.content 0, depth⟩ ∧ v = w ∧ isLiteral 0 v ∧ s' = ⟨.content 0, down depth⟩ ∧
          events'.filter keep = after) ∨
        s'.mode.Calm ∧ ∃ X', X' ⊆ X ++ w.map .char ∧
          events'.filter keep = X' ++ .stop name :: (opens ++ after)) := by
  obtain ⟨mid, read, later, field, following, rfl⟩ := run_append_eq_some.1 run
  obtain ⟨s', tags, events', marked, further, rfl⟩ := run_append_eq_some.1 following
  refine ⟨s', events', further, ?_⟩
  rw [List.filter_append, List.filter_append, ← List.append_assoc X] at same
  have paid := run_cost (k := 0) (by decide) field
  have fewer : (read.filter keep).length ≤ totalCost 0 read :=
    (List.length_filter_le keep read).trans length_le_totalCost
  have unsaved : s.mode.saved 0 = 0 := by
    cases before with
    | aligned start => rw [start]; rfl
    | behind calm => exact calm.saved_eq
  have reach : (read.filter keep).length ≤ (X ++ w.map XmlEvent.char).length := by
    rw [List.length_append, List.length_map]
    omega
  obtain ⟨X', split, rest⟩ := append_pass same reach
  by_cases content : mid.mode.isContent
  · -- the end tag is next, so every event before it has been read
    obtain ⟨⟨mode, d⟩, inside⟩ : ∃ m : XmlReader, m = mid := ⟨mid, rfl⟩
    subst inside
    cases mode with
    | content b =>
      rw [mark.read] at marked
      cases marked
      rw [List.filter_eq_self.2 mark.kept] at rest
      have all : X' = [] := by
        cases X' with
        | nil => rfl
        | cons e X' =>
          have first := (List.cons.inj rest).1
          have mem : e ∈ X ++ w.map XmlEvent.char := split ▸ by simp
          rw [← first] at mem
          simp [new] at mem
      subst all
      rw [List.append_nil] at split
      have length := congrArg List.length split
      rw [List.length_append, List.length_map] at length
      cases before with
      | aligned start none =>
        subst start none
        have kept := List.length_filter_le keep read
        rw [List.length_nil] at length
        obtain ⟨literal, rfl, b', same'⟩ := literal_of_run field (by omega)
        have texts : Textual (v.map XmlEvent.char) := by simp [Textual]
        rw [List.nil_append, texts.filter_eq chars] at split
        refine .inl ⟨rfl, ?_, literal, by cases same'; rfl, ?_⟩
        · exact (List.map_injective_iff.2 (fun _ _ h => XmlEvent.char.inj h) split).symm
        · simpa using rest
      | behind calm some =>
        have := List.length_pos_iff.2 some
        omega
    | _ => cases content
  · obtain ⟨rest', markup'⟩ : ∃ rest', markup = '<' :: rest' := by
      cases markup with
      | nil => cases mark.less
      | cons c rest' => exact ⟨rest', by rw [Option.some.inj mark.less]⟩
    rw [markup'] at marked
    obtain ⟨calm, textual⟩ := run_markup content (by simpa [markup'] using mark.plain) marked
    rw [textual.filter_eq chars] at rest
    obtain ⟨X'', split', rest'⟩ := textual_pass textual rest
    refine .inr ⟨calm, X'', ?_, rest'⟩
    rw [split, split']
    simp

/-- A text that is read outside of content does not lead back. -/
theorem XmlReader.field_behind {earlier : List Char} {tags : List XmlEvent} (calm : s.mode.Calm)
    (chars : ∀ c, keep (.char c)) (mark : IsMarkup keep markup name opens down)
    (short : v.length ≤ w.length) (new : XmlEvent.stop name ∉ X ++ .stop earlier :: tags)
    (run : s.run (v ++ (markup ++ more)) = some (final, events))
    (same : events.filter keep =
      X ++ .stop earlier :: (tags ++ (w.map .char ++ .stop name :: (opens ++ after)))) :
    ∃ (s' : XmlReader) (events' : List XmlEvent), s'.run more = some (final, events') ∧ s'.mode.Calm ∧
      ∃ X', X' ⊆ (X ++ .stop earlier :: tags) ++ w.map .char ∧
        events'.filter keep = X' ++ .stop name :: (opens ++ after) := by
  have before : Before 0 s (X ++ .stop earlier :: tags) := .behind calm (by simp)
  obtain ⟨s', events', further, outcome⟩ := field_step before chars mark short new run (by simpa using same)
  rcases outcome with ⟨start, -⟩ | ⟨calm', X', sub, same'⟩
  · rw [start] at calm
    exact calm.elim
  · exact ⟨s', events', further, calm', X', sub, same'⟩

/-- A literal text and the markup after it. -/
theorem XmlReader.run_field (depth : ℕ) (literal : isLiteral 0 v) (mark : IsMarkup keep markup name opens down)
    (inside : depth ≠ 0) (next : XmlReader.run ⟨.content 0, down depth⟩ more = some (final, events)) :
    XmlReader.run ⟨.content 0, depth⟩ (v ++ (markup ++ more)) =
      some (final, v.map .char ++ .stop name :: (opens ++ events)) := by
  obtain ⟨b, read⟩ := run_literal literal inside
  refine run_append_eq_some.2 ⟨_, _, _, read, ?_, rfl⟩
  exact run_append_eq_some.2 ⟨_, _, _, mark.read b depth, next, by simp⟩

end

end Arena.Lib
