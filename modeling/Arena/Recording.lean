import Arena.Model.Storage

/-!
# Which denials are answered and recorded

A denial writes the caller's text into an audit row: the username of a login is its actor, the
`user_id` of a refused connection its entity, and the address goes into the detail. A text that does
not fit its column, or that has no encoding, turns the denial into a server error, and the row and the
sweep of stale sessions are lost with it.
-/

namespace Arena.Recording

open Arena.Lib Arena.Model

variable {cfg : Settings} {env : AuthEnv} {now : Instant} {newId : Id} {p : GatewayAuthorize}
  {body : AuthorizeBody} {db : Database} {auth : AuthDb} {token csrf : String}

/-- The response to a request that the checks refuse. -/
def Verdict.denial : Verdict → Option HttpError
  | .routeNotFound => some ⟨403, "route_not_found"⟩
  | .notAllowed reason => some ⟨403, reason.text⟩
  | .ipLimit _ => some ⟨429, "ip_limit"⟩
  | .admitted .. => none

/-- The response is the denial, and beyond the sweep one audit row about the user is committed. -/
def Denied (cfg : Settings) (now : Instant) (newId : Id) (p : AuthorizeBody) (db : Database)
    (denial : HttpError) : Prop :=
  (receiveAuthorize cfg now newId p db).2 = .error denial ∧
    ∃ event, event.action = "gateway.denied" ∧ p.userId = .ofString event.entityId ∧
      (receiveAuthorize cfg now newId p db).1 = (finishStaleSessions cfg now db).addAudit event

/-- The response is the 401, and one audit row about the username is all that is committed. -/
def LoginDenied (env : AuthEnv) (now : Instant) (username password : CodePoints) (token csrf : String)
    (db : AuthDb) : Prop :=
  ∃ name, username = .ofString name ∧ receiveLogin env now username password token csrf db =
    (db.addAudit (authEvent name "auth.login_failed" "" ""),
      .error ⟨401, "نام کاربری یا رمز عبور نادرست است"⟩)

/-- What `authorize` does with a request that the checks refuse. -/
theorem authorize_refused (newId : Id) {denial : HttpError}
    (refused : Verdict.denial (decideRoute now p (finishStaleSessions cfg now db)) = some denial) :
    ∃ detail, authorize cfg now newId p db =
      ((finishStaleSessions cfg now db).addAudit (deniedEvent p.userId detail), .error denial) := by
  cases verdict : decideRoute now p (finishStaleSessions cfg now db) with
  | routeNotFound =>
    rw [verdict] at refused
    cases refused
    refine ⟨[("reason", .str "route_not_found"), ("ip", .str p.sourceIp)], ?_⟩
    simp only [authorize, verdict]
  | notAllowed reason =>
    rw [verdict] at refused
    cases refused
    refine ⟨[("reason", .str reason.text), ("ip", .str p.sourceIp)], ?_⟩
    simp only [authorize, verdict]
  | ipLimit active =>
    rw [verdict] at refused
    cases refused
    refine ⟨[("reason", .str "ip_limit"), ("ip", .str p.sourceIp), ("active_ips", .num active)], ?_⟩
    simp only [authorize, verdict]
  | admitted user node =>
    rw [verdict] at refused
    cases refused

/-- The audit row of a refused connection, except for the user it is about, always fits. -/
theorem deniedEvent_fits {detail : List (String × Json)} :
    (deniedEvent p.userId detail).fits = fitsVarchar 80 p.userId := by
  simp only [AuditEvent.fits, deniedEvent]
  rw [show fitsVarchar 120 "system" = true by decide, show fitsVarchar 80 "gateway.denied" = true by decide,
    show fitsVarchar 80 "user" = true by decide]
  simp

theorem loginFailed_fits :
    (authEvent username "auth.login_failed" "" "").fits = fitsVarchar 120 username := by
  simp only [AuditEvent.fits, authEvent]
  rw [show fitsVarchar 80 "auth.login_failed" = true by decide, show fitsVarchar 80 "" = true by decide]
  simp

theorem denial_ne_internalError {verdict : Verdict} {denial : HttpError}
    (refused : Verdict.denial verdict = some denial) : denial ≠ internalError := by
  rintro rfl
  cases verdict <;> simp [Verdict.denial, internalError] at refused

/-- What `authorize` on PostgreSQL does with it, whose identifiers may not fit. -/
theorem storeAuthorize_refused (newId : Id) {denial : HttpError}
    (refused : Verdict.denial (decideRoute now p (finishStaleSessions cfg now db)) = some denial) :
    ∃ detail, storeAuthorize cfg now newId p db =
      if p.userId.length ≤ 80 ∧ isParameter p.userId ∧ isParameter p.nodeId then
        ((finishStaleSessions cfg now db).addAudit (deniedEvent p.userId detail), .error denial)
      else (db, .error internalError) := by
  obtain ⟨detail, done⟩ := authorize_refused newId refused
  refine ⟨detail, ?_⟩
  have accepted : db.accepts ((finishStaleSessions cfg now db).addAudit (deniedEvent p.userId detail)) =
      fitsVarchar 80 p.userId := by
    have events : (finishStaleSessions cfg now db).auditEvents = db.auditEvents := rfl
    rw [accepts_addAudit events (by simp [finishStaleSessions_sessions, Table.update]), deniedEvent_fits]
  rw [storeAuthorize, done, commitStored, accepted]
  by_cases sent : isParameter p.userId ∧ isParameter p.nodeId
  · simp [sent.1, sent.2, fitsVarchar]
  · rw [if_neg (by simpa using sent), if_neg fun fits => sent fits.2]

/-- A login with wrong credentials, whose username may not fit. -/
theorem storeLogin_refused {username password : String}
    (wrong : authenticate env username password auth = none) :
    storeLogin env now username password token csrf auth =
      if username.length ≤ 120 ∧ isParameter username then
        (auth.addAudit (authEvent username "auth.login_failed" "" ""),
          .error ⟨401, "نام کاربری یا رمز عبور نادرست است"⟩)
      else (auth, .error internalError) := by
  have done : login env now username password token csrf auth =
      (auth.addAudit (authEvent username "auth.login_failed" "" ""),
        .error ⟨401, "نام کاربری یا رمز عبور نادرست است"⟩) := by
    simp [login, wrong]
  by_cases sent : isParameter username
  · simp [storeLogin, sent, done, AuthDb.addAudit, loginFailed_fits, fitsVarchar]
  · simp [storeLogin, sent]

/-! ## Received texts -/

/-- An address that is a `String` is checked as `authorize` checks it. -/
theorem decideAddress_some : decideAddress now p.userId p.nodeId (some p.sourceIp) db = decideRoute now p db := by
  unfold decideAddress decideRoute
  cases db.users.find? p.userId with
  | none => rfl
  | some user =>
    cases db.nodes.find? p.nodeId with
    | none => rfl
    | some node =>
      cases db.enabledKey p.userId p.nodeId with
      | none => rfl
      | some key => simp

/-- A denial that is lost is none. -/
theorem not_denied {denial : HttpError} (refused : Verdict.denial (body.verdict now db') = some denial)
    (lost : receiveAuthorize cfg now newId body db = (db, .error internalError)) :
    ¬ Denied cfg now newId body db denial := by
  rintro ⟨answered, -⟩
  rw [lost] at answered
  exact denial_ne_internalError refused (Except.error.inj answered).symm

/-- A text that has no encoding fails the request. -/
theorem receiveAuthorize_lost
    (lost : (body.userId.encodable && body.nodeId.encodable && body.sourceIp.encodable) = false) :
    receiveAuthorize cfg now newId body db = (db, .error internalError) := by
  unfold receiveAuthorize
  split
  · rename_i userId nodeId sourceIp user node address
    rw [CodePoints.string?_eq_some_iff.1 user, CodePoints.string?_eq_some_iff.1 node,
      CodePoints.string?_eq_some_iff.1 address] at lost
    simp at lost
  · rfl

/-- A refused connection is answered and recorded exactly when its identifiers may be parameters, the
user's fits the column, and the address has an encoding. -/
theorem denied_iff {denial : HttpError}
    (refused : Verdict.denial (body.verdict now (finishStaleSessions cfg now db)) = some denial) :
    Denied cfg now newId body db denial ↔
      body.userId.length ≤ 80 ∧ isParameterText body.userId ∧ isParameterText body.nodeId ∧
        body.sourceIp.encodable := by
  by_cases encoded : body.userId.encodable && body.nodeId.encodable && body.sourceIp.encodable
  · obtain ⟨⟨userId, user⟩, ⟨nodeId, node⟩, sourceIp, address⟩ :
        (∃ s, body.userId = .ofString s) ∧ (∃ s, body.nodeId = .ofString s) ∧
          ∃ s, body.sourceIp = .ofString s := by
      simpa only [Bool.and_eq_true, CodePoints.encodable_iff, and_assoc] using encoded
    rw [user, node, address, CodePoints.length_ofString, isParameterText_ofString,
      isParameterText_ofString, CodePoints.encodable_ofString, eq_self, and_true]
    set p : GatewayAuthorize := ⟨userId, nodeId, sourceIp,
      (CodePoints.string? (body.userAgent.take 512)).getD "",
      (CodePoints.string? (body.gatewayInstance.take 120)).getD ""⟩ with request
    have decided : body.verdict now (finishStaleSessions cfg now db) =
        decideRoute now p (finishStaleSessions cfg now db) := by
      simp only [AuthorizeBody.verdict, user, node, address, CodePoints.string?_ofString]
      exact decideAddress_some (p := p)
    obtain ⟨detail, stored⟩ := storeAuthorize_refused newId (decided ▸ refused)
    have received : receiveAuthorize cfg now newId body db = storeAuthorize cfg now newId p db := by
      have failed : (storeAuthorize cfg now newId p db).2.isOk = false := by
        rw [stored]
        split <;> rfl
      simp only [receiveAuthorize, user, node, address, CodePoints.string?_ofString]
      rw [← request, failed]
      rfl
    rw [stored] at received
    by_cases fits : userId.length ≤ 80 ∧ isParameter userId ∧ isParameter nodeId
    · rw [if_pos fits] at received
      exact iff_of_true ⟨by rw [received], _, rfl, user, by rw [received]⟩ fits
    · rw [if_neg fits] at received
      exact iff_of_false (not_denied refused received) fits
  · have lost : receiveAuthorize cfg now newId body db = (db, .error internalError) :=
      receiveAuthorize_lost (Bool.eq_false_iff.2 encoded)
    refine iff_of_false (not_denied refused lost) ?_
    rintro ⟨-, user, node, address⟩
    simp only [isParameterText, Bool.and_eq_true] at user node
    simp [user.1, node.1, address] at encoded

/-- A login with wrong credentials is answered and recorded exactly when its username may be a
parameter and fits the column. -/
theorem loginDenied_iff {username password : CodePoints}
    (wrong : authenticateBody env username password auth = none) :
    LoginDenied env now username password token csrf auth ↔
      username.length ≤ 120 ∧ isParameterText username := by
  cases read : username.string? with
  | none =>
    have unencodable := CodePoints.string?_eq_none_iff.1 read
    refine iff_of_false ?_ (by simp [isParameterText, unencodable])
    rintro ⟨name, rfl, -⟩
    simp at read
  | some name =>
    obtain rfl := CodePoints.string?_eq_some_iff.1 read
    rw [CodePoints.length_ofString, isParameterText_ofString]
    have received : receiveLogin env now (.ofString name) password token csrf auth =
        if name.length ≤ 120 ∧ isParameter name then
          (auth.addAudit (authEvent name "auth.login_failed" "" ""),
            .error ⟨401, "نام کاربری یا رمز عبور نادرست است"⟩)
        else (auth, .error internalError) := by
      cases secret : password.string? with
      | none =>
        have nobody : authenticate { env with verifyPassword := fun _ _ => false } name "" auth = none := by
          simp [authenticate]
        simp only [receiveLogin, CodePoints.string?_ofString, secret, storeLogin_refused nobody]
      | some secretText =>
        simp only [authenticateBody, CodePoints.string?_ofString, secret] at wrong
        simp only [receiveLogin, CodePoints.string?_ofString, secret, storeLogin_refused wrong]
    rw [LoginDenied]
    by_cases fits : name.length ≤ 120 ∧ isParameter name
    · exact iff_of_true ⟨name, rfl, by rw [received, if_pos fits]⟩ fits
    · refine iff_of_false ?_ fits
      rintro ⟨name', same, answered⟩
      rw [received, if_neg fits] at answered
      exact absurd (congrArg Prod.snd answered) (by simp [internalError])

/-- **Which denials are answered and recorded.** A login with wrong credentials exactly when its
username has at most 120 characters, and a connection that the policy refuses exactly when its
`user_id` has at most 80, where the texts that a query reads have neither a NUL character nor a
surrogate, and the address has no surrogate. -/
theorem denials_recorded (env : AuthEnv) (cfg : Settings) (now : Instant) :
    (∀ (username password : CodePoints) (token csrf : String) (db : AuthDb),
      authenticateBody env username password db = none →
      (LoginDenied env now username password token csrf db ↔
        username.length ≤ 120 ∧ isParameterText username)) ∧
    ∀ (newId : Id) (p : AuthorizeBody) (db : Database) (denial : HttpError),
      Verdict.denial (p.verdict now (finishStaleSessions cfg now db)) = some denial →
      (Denied cfg now newId p db denial ↔
        p.userId.length ≤ 80 ∧ isParameterText p.userId ∧ isParameterText p.nodeId ∧
          p.sourceIp.encodable) :=
  ⟨fun _ _ _ _ _ => loginDenied_iff, fun _ _ _ _ => denied_iff⟩

/-- An installation without administrators. -/
def noAdmins : AuthDb where
  admins := ⟨[], List.nodup_nil⟩
  sessions := ⟨[], List.nodup_nil⟩
  auditEvents := []
  usernames := List.nodup_nil
  owner := fun _ mem => absurd mem List.not_mem_nil

def testEnv : AuthEnv where
  tokenHash := id
  verifyPassword := (· == ·)

/-- A connection of nobody to nowhere. -/
def nobody : AuthorizeBody where
  userId := .ofString "nobody"
  nodeId := .ofString "nowhere"
  sourceIp := .ofString "203.0.113.10"

/-- A login and a connection of nobody, both with short texts. -/
theorem denials_recorded_short :
    LoginDenied testEnv 0 (.ofString "root") (.ofString "guess") "t" "c" noAdmins ∧
      Denied {} 0 "s" nobody .empty ⟨403, "route_not_found"⟩ := by
  obtain ⟨login, connection⟩ := denials_recorded testEnv {} 0
  exact ⟨(login (.ofString "root") (.ofString "guess") "t" "c" noAdmins (by decide +kernel)).2
      (by decide +kernel),
    (connection "s" nobody .empty _ (by decide +kernel)).2 (by decide +kernel)⟩

/-- The escape of half a pair. -/
def loneSurrogate : CodePoint := ⟨0xD800, by decide⟩

/-- A login of 121 characters is answered by a server error and leaves no audit row, and so does one
with a lone surrogate. -/
theorem long_username_lost :
    (¬ ∀ (env : AuthEnv) (now : Instant) (username password : CodePoints) (token csrf : String) (db : AuthDb),
      authenticateBody env username password db = none → username.encodable →
      LoginDenied env now username password token csrf db) ∧
    ¬ ∀ (env : AuthEnv) (now : Instant) (username password : CodePoints) (token csrf : String) (db : AuthDb),
      authenticateBody env username password db = none → username.length ≤ 120 →
      LoginDenied env now username password token csrf db := by
  constructor <;> intro claim
  · have said := claim testEnv 0 (.ofString (String.ofList (List.replicate 121 'a'))) (.ofString "guess") "t" "c"
      noAdmins (by simp [authenticateBody, authenticate, noAdmins]) CodePoints.encodable_ofString
    rw [loginDenied_iff (by simp [authenticateBody, authenticate, noAdmins])] at said
    rw [CodePoints.length_ofString, String.length_ofList, List.length_replicate] at said
    exact absurd said.1 (by decide)
  · have said := claim testEnv 0 [loneSurrogate] (.ofString "guess") "t" "c" noAdmins rfl (by decide)
    rw [loginDenied_iff rfl] at said
    exact absurd said.2 (by decide)

end Arena.Recording
