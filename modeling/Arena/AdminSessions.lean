import Arena.Model.Auth

/-!
# Which requests pass `require_csrf`

A session row stands for one login: the table has, for the hashes of a pair of secrets and an
instant ahead, a row exactly when a login issued the pair with that expiry and no logout with
its cookie came after. So a request passes by what happened in the run, and expired rows never
count, deleted or not.
-/

namespace Arena.AdminSessions

open Arena.Lib Arena.Model

variable {env : AuthEnv} {s s' s₀ : Auth} {e : AuthEvent} {es : List AuthEvent} {db : AuthDb}
  {c x : String} {expiry now : Instant} {r : AuthRequest} {cookie csrf : Option String}

/-! ## What happened in a run -/

/-- The event is a login that succeeds and issues the pair, with this expiry. -/
def Opens (env : AuthEnv) (s : Auth) (c x : String) (expiry : Instant) : AuthEvent → Prop
  | .login username password token csrf => ∃ reply,
      (login env s.now username password token csrf s.db).2 = .ok reply ∧
        reply.sessionCookie = c ∧ reply.csrfCookie = x ∧ reply.expiresAt = expiry
  | _ => False

/-- The event is a logout with this cookie, and is not refused. -/
def Closes (env : AuthEnv) (s : Auth) (c : String) : AuthEvent → Prop
  | .logout cookie csrf => cookie = some c ∧ s.passes env ⟨.post, cookie, csrf⟩
  | _ => False

/-- One login of the run issued the pair with this expiry, and no logout with its cookie came
after it. -/
def Standing (env : AuthEnv) (s₀ : Auth) (es : List AuthEvent) (c x : String) (expiry : Instant) :
    Prop :=
  ∃ before e after s, es = before ++ e :: after ∧ (auth env).run s₀ before = some s ∧
    Opens env s c x expiry e ∧ (auth env).Along (fun t e => ¬ Closes env t c e) s (e :: after)

theorem Opens.not_closes (opens : Opens env s c x expiry e) (c' : String) : ¬ Closes env s c' e := by
  cases e with
  | login => exact id
  | _ => exact absurd opens id

theorem standing_snoc (run : (auth env).run s₀ es = some s) :
    Standing env s₀ (es ++ [e]) c x expiry ↔
      Opens env s c x expiry e ∨ (Standing env s₀ es c x expiry ∧ ¬ Closes env s c e) := by
  constructor
  · rintro ⟨before, e', after, t, split, run_before, opens, along⟩
    rcases List.eq_nil_or_concat' after with rfl | ⟨after, last, rfl⟩
    · obtain ⟨rfl, same⟩ := List.append_inj' split rfl
      obtain rfl : e = e' := by simpa using same
      obtain rfl : s = t := Option.some.inj (run.symm.trans run_before)
      exact .inl opens
    · rw [← List.cons_append, ← List.append_assoc] at split
      obtain ⟨rfl, same⟩ := List.append_inj' split rfl
      obtain rfl : e = last := by simpa using same
      have rest : (auth env).run t (e' :: after) = some s := (Machine.run_append run_before).symm.trans run
      rw [← List.cons_append] at along
      exact .inr ⟨⟨before, e', after, t, rfl, run_before, opens, along.left⟩, (along.right rest).1⟩
  · rintro (opens | ⟨⟨before, e', after, t, rfl, run_before, opens, along⟩, kept⟩)
    · exact ⟨es, e, [], s, rfl, run, opens, opens.not_closes c, fun _ _ => trivial⟩
    · have rest : (auth env).run t (e' :: after) = some s := (Machine.run_append run_before).symm.trans run
      have last : (auth env).Along (fun t e => ¬ Closes env t c e) s [e] := ⟨kept, fun _ _ => trivial⟩
      exact ⟨before, e', after ++ [e], t, by simp, run_before, opens, along.append rest last⟩

/-! ## What the table says -/

theorem given_iff {text : Option String} : given text = true ↔ ∃ t, text = some t ∧ t ≠ "" := by
  cases text <;> simp [given]

/-- A row of the table that its cookie and its secret explain. -/
def Row (env : AuthEnv) (db : AuthDb) (c x : String) (expiry : Instant) : Prop :=
  ∃ row ∈ db.sessions.rows, row.tokenHash = env.tokenHash c ∧ row.csrfHash = env.tokenHash x ∧
    row.expiresAt = expiry

theorem currentAdmin_eq_ok {admin : Admin} {row : AdminSession} :
    currentAdmin env now r db = .ok (admin, row) ↔ ∃ c, r.cookie = some c ∧ c ≠ "" ∧
      db.sessions.find? (env.tokenHash c) = some row ∧ now < row.expiresAt ∧
      db.admins.find? row.adminId = some admin := by
  unfold currentAdmin
  constructor
  · intro found
    split at found
    · cases found
    · rename_i cookie
      obtain ⟨c, here, ne⟩ := given_iff.1 (by simpa using cookie)
      rw [here, Option.getD_some] at found
      split at found
      · cases found
      · rename_i record filtered
        obtain ⟨key, ahead⟩ := Option.filter_eq_some_iff.1 filtered
        split at found
        · cases found
        · rename_i owner
          cases found
          exact ⟨c, here, ne, key, of_decide_eq_true ahead, owner⟩
  · rintro ⟨c, cookie, ne, key, ahead, owner⟩
    simp [given, cookie, ne, key, Option.filter, ahead, owner]

/-- A request passes by a row of its cookie that is not expired and, when it writes, has the
hash of its header. -/
theorem requireCsrf_eq_ok {admin : Admin} {row : AdminSession} :
    requireCsrf env now r db = .ok (admin, row) ↔ currentAdmin env now r db = .ok (admin, row) ∧
      (r.method.writes → ∃ x, r.csrf = some x ∧ x ≠ "" ∧ row.csrfHash = env.tokenHash x) := by
  unfold requireCsrf
  constructor
  · intro passed
    obtain ⟨⟨admin', row'⟩, current, passed⟩ := bind_eq_ok.1 passed
    simp only at passed
    split at passed
    · cases passed
    · rename_i fits
      cases passed
      refine ⟨current, fun writes => ?_⟩
      simp only [writes, Bool.true_and, Bool.or_eq_true, Bool.not_eq_true', decide_eq_true_eq,
        not_or, Bool.not_eq_false, ne_eq, not_not] at fits
      obtain ⟨x, header, nonempty⟩ := given_iff.1 fits.1
      exact ⟨x, header, nonempty, by simpa [header] using fits.2⟩
  · rintro ⟨current, fits⟩
    refine bind_eq_ok.2 ⟨(admin, row), current, ?_⟩
    cases writes : r.method.writes with
    | false => simp
    | true =>
      obtain ⟨x, header, nonempty, hash⟩ := fits writes
      simp [given, header, nonempty, hash]

theorem passes_iff : s.passes env r ↔ ∃ c row, r.cookie = some c ∧ c ≠ "" ∧
    row ∈ s.db.sessions.rows ∧ row.tokenHash = env.tokenHash c ∧ s.now < row.expiresAt ∧
    (r.method.writes → ∃ x, r.csrf = some x ∧ x ≠ "" ∧ row.csrfHash = env.tokenHash x) := by
  constructor
  · rintro ⟨⟨admin, row⟩, passed⟩
    obtain ⟨current, fits⟩ := requireCsrf_eq_ok.1 passed
    obtain ⟨c, cookie, ne, key, ahead, -⟩ := currentAdmin_eq_ok.1 current
    obtain ⟨mem, hash⟩ := Table.find?_eq_some_iff.1 key
    exact ⟨c, row, cookie, ne, mem, hash, ahead, fits⟩
  · rintro ⟨c, row, cookie, ne, mem, hash, ahead, fits⟩
    obtain ⟨admin, owner⟩ := Option.isSome_iff_exists.1 (s.db.owner row mem)
    exact ⟨(admin, row), requireCsrf_eq_ok.2 ⟨currentAdmin_eq_ok.2
      ⟨c, cookie, ne, Table.find?_eq_some_iff.2 ⟨mem, hash⟩, ahead, owner⟩, fits⟩⟩

/-! ## Steps -/

/-- The tokens drawn are not empty, and each row has the hashes of two of them. -/
structure Known (env : AuthEnv) (s : Auth) : Prop where
  nonempty : ∀ t ∈ s.issued, t ≠ ""
  drawn : ∀ row ∈ s.db.sessions.rows, ∃ c ∈ s.issued, ∃ x ∈ s.issued,
    row.tokenHash = env.tokenHash c ∧ row.csrfHash = env.tokenHash x

theorem row_touch (hash : String) (now : Instant) :
    Row env (db.touch hash now) c x expiry ↔ Row env db c x expiry := by
  simp only [Row, AuthDb.mem_touch]
  constructor
  · rintro ⟨row, ⟨row₀, mem, rfl⟩, same⟩
    exact ⟨row₀, mem, by split at same <;> exact same⟩
  · rintro ⟨row, mem, same⟩
    exact ⟨_, ⟨row, mem, rfl⟩, by split <;> exact same⟩

theorem row_delete {p : AdminSession → Bool} : Row env (db.deleteSessions p) c x expiry ↔
    ∃ row ∈ db.sessions.rows, p row = false ∧ row.tokenHash = env.tokenHash c ∧
      row.csrfHash = env.tokenHash x ∧ row.expiresAt = expiry := by
  simp only [Row, AuthDb.deleteSessions, Table.mem_delete, and_assoc]

/-- A login with the right password and a fresh token inserts its row and answers. -/
theorem login_fresh {admin : Admin} {username password token : String} (csrf : String)
    (inj : Function.Injective env.tokenHash) (known : Known env s) (fresh : token ∉ s.issued)
    (found : authenticate env username password s.db = some admin) :
    ∃ db', login env s.now username password token csrf s.db =
        (db', .ok ⟨admin.id, admin.username, s.now + seconds (env.sessionHours * 3600), token, csrf,
          env.sessionHours * 3600⟩) ∧
      db'.sessions.rows = s.db.sessions.rows ++ [newSessionRow env s.now admin token csrf] ∧
      db'.admins = s.db.admins := by
  have free : s.db.sessions.find? (env.tokenHash token) = none := by
    refine Table.find?_eq_none_iff.2 fun row mem same => ?_
    obtain ⟨c, drawn, -, -, hash, -⟩ := known.drawn row mem
    exact fresh (inj (hash.symm.trans same) ▸ drawn)
  have owner : (s.db.admins.find? (newSessionRow env s.now admin token csrf).adminId).isSome := by
    have mem := List.mem_of_find?_eq_some (Option.filter_eq_some_iff.1 found).1
    simp [newSessionRow, Table.find?_of_mem mem]
  have inserted : (s.db.sessions.insert? (newSessionRow env s.now admin token csrf)).isSome :=
    Table.insert?_isSome free
  obtain ⟨db', made, rows, admins⟩ := AuthDb.insertSession?_of_isSome inserted owner
  refine ⟨db'.addAudit (authEvent admin.username "auth.login" "admin" admin.id), ?_, rows, admins⟩
  simp only [login, found]
  rw [made]
  rfl

/-- **The step lemma**: a row that is not expired comes from the login that is this event, or was
there and is not the one that this event closes. -/
theorem row_step (inj : Function.Injective env.tokenHash) (known : Known env s)
    (step : (auth env).step s e = some s') (ahead : s.now < expiry) :
    Row env s'.db c x expiry ↔
      Opens env s c x expiry e ∨ (Row env s.db c x expiry ∧ ¬ Closes env s c e) := by
  obtain ⟨⟨-, drawn⟩, rfl⟩ := auth_step.1 step
  cases e with
  | tick => simp [AuthEvent.commit, Opens, Closes]
  | login username password token csrf =>
    have fresh : token ∉ s.issued := (drawn token (by simp [AuthEvent.draws])).2
    cases found : authenticate env username password s.db with
    | none => simp [AuthEvent.commit, login, Opens, Closes, found, Row, AuthDb.addAudit]
    | some admin =>
      obtain ⟨db', made, rows, -⟩ := login_fresh csrf inj known fresh found
      simp only [AuthEvent.commit, Opens, Closes, not_false_eq_true, and_true, Row, made, rows,
        List.mem_append, List.mem_singleton]
      constructor
      · rintro ⟨row, mem | rfl, hash, secret, expires⟩
        · exact .inr ⟨row, mem, hash, secret, expires⟩
        · exact .inl ⟨_, rfl, inj hash, inj secret, expires⟩
      · rintro (⟨reply, answer, cookie, header, expires⟩ | ⟨row, mem, rest⟩)
        · cases answer
          exact ⟨_, .inr rfl, congrArg env.tokenHash cookie, congrArg env.tokenHash header, expires⟩
        · exact ⟨row, .inl mem, rest⟩
  | logout cookie csrf =>
    simp only [AuthEvent.commit, logout, Opens, Closes, false_or]
    cases passed : requireCsrf env s.now ⟨.post, cookie, csrf⟩ s.db with
    | error => simp [Auth.passes, passed]
    | ok found =>
      obtain ⟨admin, row₀⟩ := found
      obtain ⟨c₀, provided, ne, -⟩ := currentAdmin_eq_ok.1 (requireCsrf_eq_ok.1 passed).1
      obtain rfl : cookie = some c₀ := provided
      have passes : s.passes env ⟨.post, some c₀, csrf⟩ := ⟨_, passed⟩
      have cookie_given : given (some c₀) = true := given_iff.2 ⟨c₀, rfl, ne⟩
      simp only [cookie_given, if_true, Option.getD_some, passes, and_true, Option.some.injEq]
      have deleted : Row env (s.db.deleteSessions (·.tokenHash = env.tokenHash c₀)) c x expiry ↔ _ :=
        row_delete
      rw [show Row env ((s.db.deleteSessions _).addAudit _) c x expiry ↔ _ from deleted]
      constructor
      · rintro ⟨row, mem, other, hash, secret, expires⟩
        refine ⟨⟨row, mem, hash, secret, expires⟩, ?_⟩
        rintro rfl
        simp [hash] at other
      · rintro ⟨⟨row, mem, hash, secret, expires⟩, other⟩
        refine ⟨row, mem, ?_, hash, secret, expires⟩
        rw [hash, decide_eq_false_iff_not]
        exact fun same => other (inj same).symm
  | deleteExpired cookie csrf =>
    simp only [AuthEvent.commit, deleteExpiredSessions, Opens, Closes, false_or, not_false_eq_true,
      and_true]
    cases requireCsrf env s.now ⟨.delete, cookie, csrf⟩ s.db with
    | error => rfl
    | ok found =>
      obtain ⟨admin, row₀⟩ := found
      refine row_delete.trans (Iff.trans ?_ (row_touch row₀.tokenHash s.now))
      constructor
      · rintro ⟨row, mem, -, rest⟩
        exact ⟨row, mem, rest⟩
      · rintro ⟨row, mem, hash, secret, rfl⟩
        exact ⟨row, mem, by simpa using ahead, hash, secret, rfl⟩
  | request r commits =>
    simp only [AuthEvent.commit, otherRequest, Opens, Closes, false_or, not_false_eq_true, and_true]
    cases requireCsrf env s.now r s.db with
    | error => rfl
    | ok found =>
      cases commits with
      | false => rfl
      | true => exact row_touch _ _

/-- A row has its hashes from a row before or from the login that is this event. -/
theorem commit_row {row : AdminSession} (mem : row ∈ (e.commit env now db).sessions.rows) :
    (∃ row₀ ∈ db.sessions.rows, row.tokenHash = row₀.tokenHash ∧ row.csrfHash = row₀.csrfHash) ∨
      ∃ c ∈ e.draws, ∃ x ∈ e.draws, row.tokenHash = env.tokenHash c ∧ row.csrfHash = env.tokenHash x := by
  have touched : ∀ {hash : String}, row ∈ (db.touch hash now).sessions.rows →
      ∃ row₀ ∈ db.sessions.rows, row.tokenHash = row₀.tokenHash ∧ row.csrfHash = row₀.csrfHash := by
    intro hash mem
    obtain ⟨row₀, mem₀, rfl⟩ := AuthDb.mem_touch.1 mem
    exact ⟨row₀, mem₀, by split <;> exact ⟨rfl, rfl⟩⟩
  cases e with
  | tick => exact .inl ⟨row, mem, rfl, rfl⟩
  | login username password token csrf =>
    simp only [AuthEvent.commit, login] at mem
    split at mem
    · exact .inl ⟨row, mem, rfl, rfl⟩
    · split at mem
      · exact .inl ⟨row, mem, rfl, rfl⟩
      · rename_i admin found db' inserted
        unfold AuthDb.insertSession? at inserted
        split at inserted
        · cases inserted
        · rename_i sessions rows
          split at inserted
          · cases inserted
            simp only [AuthDb.addAudit, Table.mem_insert rows] at mem
            rcases mem with mem | rfl
            · exact .inl ⟨row, mem, rfl, rfl⟩
            · exact .inr ⟨token, by simp [AuthEvent.draws], csrf, by simp [AuthEvent.draws], rfl, rfl⟩
          · cases inserted
  | logout cookie csrf =>
    simp only [AuthEvent.commit, logout] at mem
    split at mem
    · exact .inl ⟨row, mem, rfl, rfl⟩
    · split at mem
      · exact .inl ⟨row, (Table.mem_delete.1 mem).1, rfl, rfl⟩
      · exact .inl ⟨row, mem, rfl, rfl⟩
  | deleteExpired cookie csrf =>
    simp only [AuthEvent.commit, deleteExpiredSessions] at mem
    split at mem
    · exact .inl ⟨row, mem, rfl, rfl⟩
    · exact .inl (touched (Table.mem_delete.1 mem).1)
  | request r commits =>
    simp only [AuthEvent.commit, otherRequest] at mem
    split at mem
    · exact .inl ⟨row, mem, rfl, rfl⟩
    · cases commits with
      | false => exact .inl ⟨row, mem, rfl, rfl⟩
      | true => exact .inl (touched mem)

theorem known_step (known : Known env s) (step : (auth env).step s e = some s') : Known env s' := by
  obtain ⟨⟨-, fresh⟩, rfl⟩ := auth_step.1 step
  constructor
  · intro t mem
    rcases List.mem_append.1 mem with new | old
    · exact (fresh t new).1
    · exact known.nonempty t old
  · intro row mem
    rcases commit_row mem with ⟨row₀, mem₀, token, secret⟩ | ⟨c, drawn, x, drawn', hashes⟩
    · obtain ⟨c, hc, x, hx, hash, hash'⟩ := known.drawn row₀ mem₀
      exact ⟨c, List.mem_append_right _ hc, x, List.mem_append_right _ hx, token.trans hash,
        secret.trans hash'⟩
    · exact ⟨c, List.mem_append_left _ drawn, x, List.mem_append_left _ drawn', hashes⟩

/-- A request passes by a pair whose row is not expired. -/
theorem passes_iff_row (inj : Function.Injective env.tokenHash) (known : Known env s) :
    s.passes env r ↔ ∃ c x expiry, r.cookie = some c ∧ (r.method.writes → r.csrf = some x) ∧
      s.now < expiry ∧ Row env s.db c x expiry := by
  rw [passes_iff]
  constructor
  · rintro ⟨c, row, cookie, ne, mem, hash, ahead, fits⟩
    obtain ⟨-, -, x, -, -, secret⟩ := known.drawn row mem
    refine ⟨c, x, row.expiresAt, cookie, fun writes => ?_, ahead, row, mem, hash, secret, rfl⟩
    obtain ⟨x', header, -, hash'⟩ := fits writes
    rw [header, inj (hash'.symm.trans secret)]
  · rintro ⟨c, x, expiry, cookie, header, ahead, row, mem, hash, secret, rfl⟩
    obtain ⟨c', hc, x', hx, hash', secret'⟩ := known.drawn row mem
    obtain rfl : c = c' := inj (hash.symm.trans hash')
    obtain rfl : x = x' := inj (secret.symm.trans secret')
    exact ⟨c, row, cookie, known.nonempty c hc, mem, hash, ahead,
      fun writes => ⟨x, header writes, known.nonempty x hx, secret⟩⟩

/-! ## Runs -/

/-- An installation before its first login. -/
def Fresh (s : Auth) : Prop := s.db.sessions.rows = [] ∧ s.issued = []

/-- **The run lemma**: unexpired rows are standing logins. -/
theorem row_run (inj : Function.Injective env.tokenHash) (fresh : Fresh s₀)
    (run : (auth env).run s₀ es = some s) : Known env s ∧ ∀ c x expiry, s.now < expiry →
      (Row env s.db c x expiry ↔ Standing env s₀ es c x expiry) := by
  refine Machine.history_invariant (I := fun es s => Known env s ∧ ∀ c x expiry, s.now < expiry →
      (Row env s.db c x expiry ↔ Standing env s₀ es c x expiry)) ?_
    (fun {es e t t'} run before _ step => ?_) (Machine.along_of_forall (fun _ _ => trivial) s₀ es) run
  · refine ⟨⟨by simp [fresh.2], by simp [fresh.1]⟩, fun c x expiry _ => ?_⟩
    simp [Row, Standing, fresh.1]
  · obtain ⟨known, rows⟩ := before
    refine ⟨known_step known step, fun c x expiry ahead => ?_⟩
    have later : t.now ≤ t'.now := by
      obtain ⟨-, rfl⟩ := auth_step.1 step
      simp
    have before : t.now < expiry := later.trans_lt ahead
    rw [row_step inj known step before, rows c x expiry before, standing_snoc run]

/-! ## Sweeping expired rows -/

/-- Two states that differ in rows that have expired, if at all. -/
structure Same (env : AuthEnv) (s t : Auth) : Prop where
  now : s.now = t.now
  issued : s.issued = t.issued
  admins : s.db.admins = t.db.admins
  rows : ∀ c x expiry, s.now < expiry → (Row env s.db c x expiry ↔ Row env t.db c x expiry)

variable {t : Auth}

theorem Same.passes (inj : Function.Injective env.tokenHash) (known : Known env s)
    (known' : Known env t) (same : Same env s t) : s.passes env r ↔ t.passes env r := by
  rw [passes_iff_row inj known, passes_iff_row inj known', ← same.now]
  constructor
  · rintro ⟨c, x, expiry, cookie, header, ahead, row⟩
    exact ⟨c, x, expiry, cookie, header, ahead, (same.rows c x expiry ahead).1 row⟩
  · rintro ⟨c, x, expiry, cookie, header, ahead, row⟩
    exact ⟨c, x, expiry, cookie, header, ahead, (same.rows c x expiry ahead).2 row⟩

theorem commit_admins : (e.commit env now db).admins = db.admins := by
  cases e with
  | tick => rfl
  | login username password token csrf =>
    simp only [AuthEvent.commit, login]
    split
    · rfl
    · split
      · rfl
      · rename_i inserted
        unfold AuthDb.insertSession? at inserted
        split at inserted
        · cases inserted
        · split at inserted <;> cases inserted
          rfl
  | logout cookie csrf =>
    simp only [AuthEvent.commit, logout]
    split
    · rfl
    · split <;> rfl
  | deleteExpired cookie csrf =>
    simp only [AuthEvent.commit, deleteExpiredSessions]
    split <;> rfl
  | request r commits =>
    simp only [AuthEvent.commit, otherRequest]
    split
    · rfl
    · split <;> rfl

/-- A login's answer does not depend on the sessions there are. -/
theorem opens_same (inj : Function.Injective env.tokenHash) (known : Known env s)
    (known' : Known env t) (same : Same env s t) (drawn : ∀ token ∈ e.draws, token ∉ s.issued) :
    Opens env s c x expiry e ↔ Opens env t c x expiry e := by
  cases e with
  | login username password token csrf =>
    have fresh : token ∉ s.issued := drawn token (by simp [AuthEvent.draws])
    have fresh' : token ∉ t.issued := same.issued ▸ fresh
    have finds : authenticate env username password t.db = authenticate env username password s.db := by
      simp only [authenticate, same.admins]
    simp only [Opens]
    cases found : authenticate env username password s.db with
    | none => simp [login, found, finds]
    | some admin =>
      obtain ⟨db', made, -⟩ := login_fresh csrf inj known fresh found
      obtain ⟨db'', made', -⟩ := login_fresh csrf inj known' fresh' (finds.trans found)
      rw [made, made', same.now]
  | _ => exact Iff.rfl

theorem same_step (inj : Function.Injective env.tokenHash) (known : Known env s)
    (known' : Known env t) (same : Same env s t) (step : (auth env).step s e = some s') :
    ∃ t', (auth env).step t e = some t' ∧ Same env s' t' := by
  have enabled := step
  obtain ⟨⟨distinct, drawn⟩, rfl⟩ := auth_step.1 step
  have step' : (auth env).step t e = some ⟨e.commit env t.now t.db, t.now + e.elapsed,
      e.draws ++ t.issued⟩ := auth_step.2 ⟨⟨distinct, same.issued ▸ drawn⟩, rfl⟩
  refine ⟨_, step', ⟨?_, ?_, ?_, ?_⟩⟩
  · exact congrArg (· + (e.elapsed : Instant)) same.now
  · exact congrArg (e.draws ++ ·) same.issued
  · exact commit_admins.trans (same.admins.trans commit_admins.symm)
  · intro c x expiry ahead
    have before : s.now < expiry := lt_of_le_of_lt (by simp) ahead
    have closes : Closes env s c e ↔ Closes env t c e := by
      cases e with
      | logout cookie csrf => simp only [Closes, same.passes inj known known']
      | _ => exact Iff.rfl
    rw [row_step inj known enabled before, row_step inj known' step' (same.now ▸ before),
      opens_same inj known known' same (fun token mem => (drawn token mem).2), closes,
      same.rows c x expiry before]

/-- Sweeping expired rows leads to a state that differs in expired rows only. -/
theorem same_of_sweep (inj : Function.Injective env.tokenHash) (known : Known env s)
    (step : (auth env).step s (.deleteExpired cookie csrf) = some s') : Same env s' s := by
  have enabled := step
  obtain ⟨-, rfl⟩ := auth_step.1 step
  refine ⟨by simp [AuthEvent.elapsed], by simp [AuthEvent.draws], commit_admins, ?_⟩
  intro c x expiry ahead
  have before : s.now < expiry := by simpa [AuthEvent.elapsed] using ahead
  rw [row_step inj known enabled before]
  simp [Opens, Closes]

/-- The event sweeps expired rows. -/
def sweeps : AuthEvent → Bool
  | .deleteExpired .. => true
  | _ => false

/-- **Sweeps make no difference**: the run without them leads to a state that differs in expired
rows only. -/
theorem run_without_sweeps (inj : Function.Injective env.tokenHash) (fresh : Fresh s₀)
    (run : (auth env).run s₀ es = some s) :
    ∃ t, (auth env).run s₀ (es.filter (!sweeps ·)) = some t ∧ Same env s t := by
  refine Machine.history_invariant
    (I := fun es s => ∃ t, (auth env).run s₀ (es.filter (!sweeps ·)) = some t ∧ Same env s t)
    ⟨s₀, rfl, rfl, rfl, rfl, fun _ _ _ _ => Iff.rfl⟩ (fun {es e u u'} run before _ step => ?_)
    (Machine.along_of_forall (fun _ _ => trivial) s₀ es) run
  obtain ⟨t, run', same⟩ := before
  have known := (row_run inj fresh run).1
  have known' := (row_run inj fresh run').1
  cases swept : sweeps e with
  | true =>
    cases e with
    | deleteExpired cookie csrf =>
      have swept := same_of_sweep inj known step
      refine ⟨t, by simpa [sweeps] using run', ?_⟩
      exact ⟨swept.now.trans same.now, swept.issued.trans same.issued,
        swept.admins.trans same.admins, fun c x expiry ahead =>
          (swept.rows c x expiry ahead).trans (same.rows c x expiry (swept.now ▸ ahead))⟩
    | _ => cases swept
  | false =>
    obtain ⟨t', step', same'⟩ := same_step inj known known' same step
    refine ⟨t', ?_, same'⟩
    rw [List.filter_append, List.filter_cons_of_pos (by simp [swept]), List.filter_nil]
    exact Machine.run_snoc.2 ⟨t, run', step'⟩

/-- A cookie has one secret. -/
theorem row_secret (inj : Function.Injective env.tokenHash) {x' : String} {expiry' : Instant}
    (row : Row env db c x expiry) (row' : Row env db c x' expiry') : x = x' := by
  obtain ⟨a, mem, hash, secret, -⟩ := row
  obtain ⟨b, mem', hash', secret', -⟩ := row'
  obtain rfl : a = b := Table.eq_of_key_eq mem mem' (hash.trans hash'.symm)
  exact inj (secret.symm.trans secret')

/-- **Which requests pass.** With fresh tokens and an injective hash, in every run, a request
passes `require_csrf` exactly when one login of the run issued its cookie, together with its
header if the method writes, with an expiry ahead, and no logout with the cookie came after it.
So a secret of another session is refused, and the run without its sweeps of expired rows ends
with the same requests passing. -/
theorem admin_session_machine (env : AuthEnv) (inj : Function.Injective env.tokenHash)
    (admins : Table Admin.id) (usernames : (admins.rows.map Admin.username).Nodup) (start : Instant)
    (es : List AuthEvent) (s : Auth)
    (run : (auth env).run (.initial admins usernames start) es = some s) :
    (∀ r, s.passes env r ↔ ∃ c x expiry, r.cookie = some c ∧ (r.method.writes → r.csrf = some x) ∧
      s.now < expiry ∧ Standing env (.initial admins usernames start) es c x expiry) ∧
    (∀ c x expiry x' method, s.now < expiry →
      Standing env (.initial admins usernames start) es c x expiry → method.writes → x' ≠ x →
        ¬ s.passes env ⟨method, some c, some x'⟩) ∧
    ∃ t, (auth env).run (.initial admins usernames start) (es.filter (!sweeps ·)) = some t ∧
      ∀ r, s.passes env r ↔ t.passes env r := by
  have fresh : Fresh (.initial admins usernames start) := ⟨rfl, rfl⟩
  obtain ⟨known, rows⟩ := row_run inj fresh run
  refine ⟨fun r => ?_, ?_, ?_⟩
  · rw [passes_iff_row inj known]
    constructor
    · rintro ⟨c, x, expiry, cookie, header, ahead, row⟩
      exact ⟨c, x, expiry, cookie, header, ahead, (rows c x expiry ahead).1 row⟩
    · rintro ⟨c, x, expiry, cookie, header, ahead, standing⟩
      exact ⟨c, x, expiry, cookie, header, ahead, (rows c x expiry ahead).2 standing⟩
  · intro c x expiry x' method ahead standing writes other passes
    obtain ⟨c', x'', expiry', cookie, header, ahead', row⟩ := (passes_iff_row inj known).1 passes
    obtain rfl : c = c' := Option.some.inj cookie
    obtain rfl : x' = x'' := Option.some.inj (header writes)
    exact other (row_secret inj row ((rows c x expiry ahead).2 standing))
  · obtain ⟨t, run', same⟩ := run_without_sweeps inj fresh run
    exact ⟨t, run', fun r => same.passes inj known (row_run inj fresh run').1⟩

/-- The hash is the identity, and a password is its own hash. -/
def plainEnv : AuthEnv := { tokenHash := id, verifyPassword := fun hash password => hash = password }

/-- One administrator. -/
def root : Table Admin.id := ⟨[⟨"1", "root", "pw"⟩], by simp⟩

/-- Before the first login. -/
def installed : Auth := .initial root (by simp [root]) 0

/-- Two sessions of the administrator, the first of which logs out. -/
def twoSessions : List AuthEvent :=
  [.login "root" "pw" "c1" "x1", .tick 5, .login "root" "pw" "c2" "x2",
    .deleteExpired (some "c2") (some "x2"), .logout (some "c1") (some "x1")]

/-- The second session stands: its login succeeds, and the logout is not its own. -/
theorem second_stands : Standing plainEnv installed twoSessions "c2" "x2" (43200000000 + 5) := by
  obtain ⟨t, run, facts⟩ := (Option.any_eq_true _ _).1
    (by decide +kernel : ((auth plainEnv).run installed (twoSessions.take 2)).any fun t =>
      (login plainEnv t.now "root" "pw" "c2" "x2" t.db).2.toOption.any fun reply =>
        reply.sessionCookie = "c2" ∧ reply.csrfCookie = "x2" ∧ reply.expiresAt = 43200000000 + 5)
  simp only [Option.any_eq_true, decide_eq_true_eq] at facts
  obtain ⟨reply, answered, issued⟩ := facts
  have answer : (login plainEnv t.now "root" "pw" "c2" "x2" t.db).2 = .ok reply := by
    cases h : (login plainEnv t.now "root" "pw" "c2" "x2" t.db).2 <;> simp_all [Except.toOption]
  have others : ∀ e ∈ twoSessions.drop 2, ∀ t, ¬ Closes plainEnv t "c2" e := by
    simp [twoSessions, Closes]
  have opens : Opens plainEnv t "c2" "x2" (43200000000 + 5) (.login "root" "pw" "c2" "x2") :=
    ⟨reply, answer, issued⟩
  exact ⟨_, _, _, t, rfl, run, opens,
    (Machine.along_of_mem others t).mono fun t e kept => kept t⟩

/-- The secret of the first session is refused with the second's cookie. -/
theorem admin_session_machine_two :
    ∃ s, (auth plainEnv).run installed twoSessions = some s ∧
      s.passes plainEnv ⟨.post, some "c2", some "x2"⟩ ∧
      ¬ s.passes plainEnv ⟨.post, some "c2", some "x1"⟩ := by
  obtain ⟨s, run⟩ := Option.isSome_iff_exists.1
    (by decide +kernel : ((auth plainEnv).run installed twoSessions).isSome)
  have ahead : ((auth plainEnv).run installed twoSessions).all (·.now < 43200000000 + 5) := by
    decide +kernel
  simp only [run, Option.all_some, decide_eq_true_eq] at ahead
  obtain ⟨passes, refuses, -⟩ := admin_session_machine plainEnv Function.injective_id root
    (by simp [root]) 0 twoSessions s run
  exact ⟨s, run, (passes _).2 ⟨"c2", "x2", _, rfl, fun _ => rfl, ahead, second_stands⟩,
    refuses "c2" "x2" _ "x1" .post ahead second_stands rfl (by decide)⟩

end Arena.AdminSessions
