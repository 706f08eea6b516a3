import Arena.Lib.Decoding
import Arena.Model.Auth

/-!
# The panel in a browser

`request` of `frontend/src/api.js`, in any number of tabs of one browser, with the browser's cookies and
the routes of `Arena.Model.Auth`. The script reads `arena_csrf` when it builds the headers, and the browser
adds the cookies when it sends the request; between the two, and while a response is on its way, anything
may happen. What a response sets is stored at once.
-/

namespace Arena.Model

open Arena.Lib

/-! ## `document.cookie` -/

/-- A cookie of another name, that scripts see. -/
structure OtherCookie where
  name : List Char
  value : List Char
  plain : ';' ∉ name ∧ ';' ∉ value ∧ '=' ∉ name
  other : name ≠ "arena_csrf".toList

def cookieText (name value : List Char) : List Char := name ++ '=' :: value

/-- A cookie of this server: its value, and the end that `Max-Age` gave it. -/
structure StoredCookie where
  value : String
  expires : Instant

/-- The value of a cookie that is there and not expired. -/
def liveCookie (now : Instant) (c : Option StoredCookie) : Option String :=
  (c.filter (now < ·.expires)).map StoredCookie.value

/-- The cookies of the browser. Scripts do not see `arena_session`, which is `HttpOnly`. -/
structure Jar where
  session : Option StoredCookie := none
  csrf : Option StoredCookie := none
  before : List OtherCookie := []
  after : List OtherCookie := []

/-- `document.cookie`. -/
def Jar.documentCookie (jar : Jar) (now : Instant) : List Char :=
  let texts := List.map fun c : OtherCookie => cookieText c.name c.value
  let mine := (liveCookie now jar.csrf).toList.map fun value => cookieText "arena_csrf".toList value.toList
  [';', ' '].intercalate (texts jar.before ++ mine ++ texts jar.after)

/-- `cookie(name)`; `none` when `decodeURIComponent` throws. -/
def readCookie (name text : List Char) : Option String :=
  match (splitPair ';' ' ' text).find? fun part => (name ++ ['=']).isPrefixOf part with
  | some item => unquote (['='].intercalate ((item.splitOn '=').drop 1))
  | none => some ""

/-! ## Requests -/

/-- A call of `api` that needs the session: the logout, or another route. -/
inductive TabTask where
  | logout
  | request (method : Method) (commits : Bool)

def TabTask.method : TabTask → Method
  | .logout => .post
  | .request method _ => method

/-- A request with its headers, before the browser sends it. -/
structure TabCall where
  task : TabTask
  /-- The header `X-CSRF-Token`. -/
  csrf : Option String
  /-- How many logins had stored their cookies when it was built. -/
  epoch : ℕ

/-- A request on its way. -/
structure TabRequest where
  task : TabTask
  cookie : Option String
  csrf : Option String
  /-- No login replaced the cookies between its header and its cookie. -/
  steady : Bool

namespace TabRequest

/-- What `require_csrf` reads. -/
def auth (q : TabRequest) : AuthRequest := ⟨q.task.method, q.cookie, q.csrf⟩

def event (q : TabRequest) : AuthEvent := match q.task with
  | .logout => .logout q.cookie q.csrf
  | .request _ commits => .request q.auth commits

end TabRequest

/-! ## The machine -/

structure Tabs where
  server : Auth
  jar : Jar := {}
  epoch : ℕ := 0
  /-- The responses to logins on their way. -/
  logins : List LoginReply := []
  /-- The number of responses to logouts on their way. -/
  logouts : ℕ := 0
  calls : List TabCall := []
  sent : List TabRequest := []

inductive TabMove where
  /-- Time passes, or somebody else makes a request. -/
  | elsewhere (e : AuthEvent)
  /-- The cookies of others change. -/
  | cookies (before after : List OtherCookie)
  | login (username password token csrf : String)
  | loggedIn (i : ℕ)
  | call (task : TabTask)
  | send (i : ℕ)
  | handled (i : ℕ)
  | loggedOut

/-- What `secrets.token_urlsafe` draws. -/
def urlSafe (token : String) : Bool := token.toList.all fun c => c.isAlphanum || c = '-' || c = '_'

namespace Tabs

/-- `Set-Cookie` of a login. -/
def store (s : Tabs) (reply : LoginReply) : Tabs :=
  let expires := s.server.now + seconds reply.maxAge
  { s with
    jar := { s.jar with
      session := some ⟨reply.sessionCookie, expires⟩
      csrf := some ⟨reply.csrfCookie, expires⟩ }
    epoch := s.epoch + 1 }

def step (env : AuthEnv) (s : Tabs) : TabMove → Option Tabs
  | .elsewhere e => (Auth.step env s.server e).map fun server => { s with server := server }
  | .cookies before after => some { s with jar := { s.jar with before := before, after := after } }
  | .login username password token csrf =>
    if urlSafe token ∧ urlSafe csrf then
      (Auth.step env s.server (.login username password token csrf)).map fun server =>
        match (Model.login env s.server.now username password token csrf s.server.db).2 with
        | .ok reply => { s with server := server, logins := s.logins ++ [reply] }
        | .error _ => { s with server := server }
    else none
  | .loggedIn i => s.logins[i]?.map fun reply => { s.store reply with logins := s.logins.eraseIdx i }
  | .call task =>
    (readCookie "arena_csrf".toList (s.jar.documentCookie s.server.now)).map fun csrf =>
      { s with calls := s.calls ++ [⟨task, if csrf = "" then none else some csrf, s.epoch⟩] }
  | .send i => s.calls[i]?.map fun call =>
    { s with
      calls := s.calls.eraseIdx i
      sent := s.sent ++ [⟨call.task, liveCookie s.server.now s.jar.session, call.csrf, call.epoch = s.epoch⟩] }
  | .handled i => s.sent[i]?.bind fun q => (Auth.step env s.server q.event).map fun server =>
    let done := match q.task, requireCsrf env s.server.now q.auth s.server.db with
      | .logout, .ok _ => 1
      | _, _ => 0
    { s with server := server, sent := s.sent.eraseIdx i, logouts := s.logouts + done }
  | .loggedOut =>
    if 0 < s.logouts then
      some { s with
        jar := { s.jar with session := none, csrf := none }
        logouts := s.logouts - 1 }
    else none

end Tabs

/-- A browser with the panel, and the control plane. -/
def tabs (env : AuthEnv) : Machine Tabs TabMove := ⟨Tabs.step env⟩

def Tabs.initial (admins : Table Admin.id) (usernames : (admins.rows.map Admin.username).Nodup) (now : Instant) :
    Tabs :=
  { server := .initial admins usernames now }

/-! ## What the script reads -/

theorem prefix_cookieText {name value name' : List Char} (clean : '=' ∉ name) (clean' : '=' ∉ name') :
    (name ++ ['=']).isPrefixOf (cookieText name' value) = true ↔ name' = name := by
  rw [List.isPrefixOf_iff_prefix, cookieText]
  constructor
  · rintro ⟨rest, same⟩
    have cut := congrArg (cutFirst '=') same
    rw [List.append_assoc, List.singleton_append, cutFirst_append clean, cutFirst_append clean'] at cut
    exact (Prod.mk.inj cut).1.symm
  · rintro rfl
    exact ⟨value, by simp⟩

theorem value_cookieText {name value : List Char} (clean : '=' ∉ name) :
    ['='].intercalate (((cookieText name value).splitOn '=').drop 1) = value := by
  rw [cookieText, List.splitOn_append_cons_self, List.splitOn_eq_singleton clean]
  exact List.intercalate_splitOn '='

/-- **The script reads its own cookie**, whatever others there are. -/
theorem readCookie_documentCookie {jar : Jar} {now : Instant}
    (plain : ∀ value, liveCookie now jar.csrf = some value → ';' ∉ value.toList ∧ '%' ∉ value.toList) :
    readCookie "arena_csrf".toList (jar.documentCookie now) = some ((liveCookie now jar.csrf).getD "") := by
  obtain ⟨name, isName⟩ : ∃ name, name = "arena_csrf".toList := ⟨_, rfl⟩
  have clean : ';' ∉ name ∧ '=' ∉ name := by
    rw [isName]
    decide +kernel
  have passed : ∀ cs : List OtherCookie, ((cs.map fun c => cookieText c.name c.value).find? fun part =>
      (name ++ ['=']).isPrefixOf part) = none := by
    intro cs
    refine List.find?_eq_none.2 fun part mem => ?_
    obtain ⟨c, -, rfl⟩ := List.mem_map.1 mem
    rw [prefix_cookieText clean.2 c.plain.2.2]
    exact fun same => c.other (same.trans isName)
  have others : ∀ cs : List OtherCookie, ∀ part ∈ cs.map fun c => cookieText c.name c.value, ';' ∉ part := by
    intro cs part mem
    obtain ⟨c, -, rfl⟩ := List.mem_map.1 mem
    simp [cookieText, c.plain.1, c.plain.2.1]
  simp only [Jar.documentCookie, ← isName]
  generalize mineIs : (liveCookie now jar.csrf).toList.map (fun value => cookieText name value.toList) = mine
  have cleanMine : ∀ part ∈ mine, ';' ∉ part := by
    intro part mem
    rw [← mineIs] at mem
    obtain ⟨value, there, rfl⟩ := List.mem_map.1 mem
    simp [cookieText, clean.1, (plain value (Option.mem_toList.1 there)).1]
  have split : ∀ parts : List (List Char), (∀ part ∈ parts, ';' ∉ part) →
      (splitPair ';' ' ' ([';', ' '].intercalate parts)).find? (fun part => (name ++ ['=']).isPrefixOf part) =
        parts.find? fun part => (name ++ ['=']).isPrefixOf part := by
    intro parts each
    by_cases none : parts = []
    · subst none
      simp [splitPair]
    · rw [splitPair_intercalate none each]
  have all : ∀ part ∈ jar.before.map (fun c => cookieText c.name c.value) ++ mine ++
      jar.after.map (fun c => cookieText c.name c.value), ';' ∉ part := by
    intro part mem
    rcases List.mem_append.1 mem with mem | mem
    · rcases List.mem_append.1 mem with mem | mem
      · exact others _ part mem
      · exact cleanMine part mem
    · exact others _ part mem
  rw [readCookie, split _ all, List.find?_append, List.find?_append, passed, passed, Option.none_or, Option.or_none,
    ← mineIs]
  cases live : liveCookie now jar.csrf with
  | none => rfl
  | some value =>
    have first : (name ++ ['=']).isPrefixOf (cookieText name value.toList) = true :=
      (prefix_cookieText clean.2 clean.2).2 rfl
    rw [Option.toList_some, List.map_singleton, List.find?_cons_of_pos first]
    simp only [value_cookieText clean.2]
    rw [unquote_plain (plain value live).2, String.ofList_toList, Option.getD_some]

end Arena.Model
