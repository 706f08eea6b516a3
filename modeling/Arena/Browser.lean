import Arena.AdminSessions
import Arena.Model.Tabs

/-!
# The panel and `require_csrf`

The two cookies of the browser always come from one login, and the row of a session has the hash of the
secret that was issued with it. So `require_csrf` asks nothing more of the panel than `current_admin`,
unless another login replaces the cookies while a request is under way.
-/

namespace Arena.Browser

open Arena.Lib Arena.Model AdminSessions

variable {env : AuthEnv} {s s' : Tabs} {m : TabMove} {a a' : Auth} {e : AuthEvent} {c x : String}
  {reply : LoginReply} {q : TabRequest} {now now' : Instant}

/-! ## Pairs -/

/-- The server issued the two secrets together: an unexpired row of the first has the second. -/
structure Issued (env : AuthEnv) (a : Auth) (c x : String) : Prop where
  drawn : c ∈ a.issued
  nonempty : x ≠ ""
  safe : urlSafe x = true
  own : ∀ x' expiry, a.now < expiry → Row env a.db c x' expiry → x' = x

theorem now_le (step : (auth env).step a e = some a') : a.now ≤ a'.now := by
  obtain ⟨-, rfl⟩ := auth_step.1 step
  simp

theorem login_reply {username password token csrf : String}
    (answered : (login env a.now username password token csrf a.db).2 = .ok reply) :
    reply.sessionCookie = token ∧ reply.csrfCookie = csrf := by
  simp only [login] at answered
  split at answered
  · cases answered
  · split at answered
    · cases answered
    · cases answered
      exact ⟨rfl, rfl⟩

theorem Issued.step (inj : Function.Injective env.tokenHash) (known : Known env a) (issued : Issued env a c x)
    (step : (auth env).step a e = some a') : Issued env a' c x := by
  have later := now_le step
  obtain ⟨⟨-, fresh⟩, rfl⟩ := auth_step.1 step
  refine ⟨List.mem_append_right _ issued.drawn, issued.nonempty, issued.safe, fun x' expiry ahead row => ?_⟩
  have before : a.now < expiry := later.trans_lt ahead
  rcases (row_step inj known step before).1 row with opens | ⟨there, -⟩
  · -- a login draws a new token
    cases e with
    | login username password token csrf =>
      obtain ⟨reply, answered, cookie, -⟩ := opens
      have same := (login_reply answered).1
      have drawn : token ∈ (AuthEvent.login username password token csrf).draws := List.mem_cons_self
      exact absurd issued.drawn (cookie ▸ same ▸ (fresh token drawn).2)
    | _ => exact absurd opens id
  · exact issued.own x' expiry before there

/-- A login issues its pair. -/
theorem issued_login {username password token csrf : String} (inj : Function.Injective env.tokenHash)
    (known : Known env a) (safe : urlSafe csrf = true)
    (step : (auth env).step a (.login username password token csrf) = some a')
    (answered : (login env a.now username password token csrf a.db).2 = .ok reply) :
    Issued env a' reply.sessionCookie reply.csrfCookie := by
  have later := now_le step
  obtain ⟨cookie, secret⟩ := login_reply answered
  obtain ⟨⟨-, fresh⟩, rfl⟩ := auth_step.1 step
  have drawn : token ∈ (AuthEvent.login username password token csrf).draws := List.mem_cons_self
  have drawn' : csrf ∈ (AuthEvent.login username password token csrf).draws := by simp [AuthEvent.draws]
  rw [cookie, secret]
  refine ⟨List.mem_append_left _ drawn, (fresh csrf drawn').1, safe, fun x' expiry ahead row => ?_⟩
  rcases (row_step inj known step (later.trans_lt ahead)).1 row with opens | ⟨⟨row, mem, hash, -⟩, -⟩
  · obtain ⟨reply', answered', -, secret', -⟩ := opens
    cases answered.symm.trans answered'
    exact secret'.symm.trans secret
  · obtain ⟨c, known, -, -, hash', -⟩ := known.drawn row mem
    exact absurd (inj (hash.symm.trans hash') ▸ known) (fresh token drawn).2

/-! ## The browser -/

/-- No cookie, or the two of one login. -/
def Paired (env : AuthEnv) (a : Auth) (jar : Jar) : Prop :=
  (jar.session = none ∧ jar.csrf = none) ∨
    ∃ c x expires, jar.session = some ⟨c, expires⟩ ∧ jar.csrf = some ⟨x, expires⟩ ∧ Issued env a c x

/-- **What the browser and the network have** is of one login. -/
structure Kept (env : AuthEnv) (s : Tabs) : Prop where
  known : Known env s.server
  jar : Paired env s.server s.jar
  logins : ∀ reply ∈ s.logins, Issued env s.server reply.sessionCookie reply.csrfCookie
  calls : ∀ call ∈ s.calls, call.epoch = s.epoch →
    liveCookie s.server.now s.jar.session = none ∨ call.csrf = liveCookie s.server.now s.jar.csrf
  past : ∀ call ∈ s.calls, call.epoch ≤ s.epoch
  sent : ∀ q ∈ s.sent, q.steady = true → q.cookie = none ∨
    ∃ c x, q.cookie = some c ∧ q.csrf = some x ∧ Issued env s.server c x

theorem Paired.step (inj : Function.Injective env.tokenHash) (known : Known env a) {jar : Jar}
    (paired : Paired env a jar) (step : (auth env).step a e = some a') : Paired env a' jar := by
  rcases paired with none | ⟨c, x, expires, session, csrf, issued⟩
  · exact .inl none
  · exact .inr ⟨c, x, expires, session, csrf, issued.step inj known step⟩

@[simp] theorem live_none : liveCookie now none = none := rfl

theorem live_some {expires : Instant} {value : String} :
    liveCookie now (some ⟨c, expires⟩) = some value ↔ c = value ∧ now < expires := by
  simp [liveCookie, Option.map_eq_some_iff, Option.filter_eq_some_iff]
  tauto

theorem live_expired {expires : Instant} (expired : ¬ now < expires) :
    liveCookie now (some ⟨c, expires⟩) = none :=
  Option.eq_none_iff_forall_ne_some.2 fun _ live => expired (live_some.1 live).2

/-- The server takes a step. -/
theorem Kept.serve (inj : Function.Injective env.tokenHash) (kept : Kept env s)
    (step : (auth env).step s.server e = some a') : Kept env { s with server := a' } where
  known := known_step kept.known step
  jar := kept.jar.step inj kept.known step
  logins reply mem := (kept.logins reply mem).step inj kept.known step
  calls call mem same := by
    rcases kept.jar with ⟨none, -⟩ | ⟨c, x, expires, session, csrf, -⟩
    · exact .inl (by rw [none, live_none])
    · by_cases ahead : a'.now < expires
      · have before : s.server.now < expires := (now_le step).trans_lt ahead
        have read := kept.calls call mem same
        rw [session, csrf, live_some.2 ⟨rfl, before⟩, live_some.2 ⟨rfl, before⟩] at read
        rw [csrf, live_some.2 ⟨rfl, ahead⟩]
        exact .inr (read.resolve_left nofun)
      · exact .inl (by rw [session, live_expired ahead])
  past := kept.past
  sent q mem steady := by
    rcases kept.sent q mem steady with none | ⟨c, x, cookie, csrf, issued⟩
    · exact .inl none
    · exact .inr ⟨c, x, cookie, csrf, issued.step inj kept.known step⟩

theorem safe_plain (safe : urlSafe x = true) : ';' ∉ x.toList ∧ '%' ∉ x.toList := by
  have all := List.all_eq_true.1 safe
  constructor
  · exact fun mem => absurd (all _ mem) (by decide)
  · exact fun mem => absurd (all _ mem) (by decide)

/-- The script reads the secret that goes with the session. -/
theorem Kept.reads (kept : Kept env s) : readCookie "arena_csrf".toList (s.jar.documentCookie s.server.now) =
    some ((liveCookie s.server.now s.jar.csrf).getD "") := by
  refine readCookie_documentCookie fun value live => ?_
  rcases kept.jar with ⟨-, none⟩ | ⟨c, x, expires, -, csrf, issued⟩
  · rw [none] at live
    cases live
  · rw [csrf] at live
    exact (live_some.1 live).1 ▸ safe_plain issued.safe

/-- **The step lemma** of `Kept`. -/
theorem kept_step (inj : Function.Injective env.tokenHash) (kept : Kept env s)
    (h : (tabs env).step s m = some s') : Kept env s' := by
  cases m with
  | elsewhere e =>
    obtain ⟨server, step, rfl⟩ := Option.map_eq_some_iff.1 h
    exact kept.serve inj step
  | cookies before after =>
    obtain rfl := Option.some.inj h
    exact ⟨kept.known, kept.jar, kept.logins, kept.calls, kept.past, kept.sent⟩
  | login username password token csrf =>
    obtain ⟨⟨-, safe⟩, h⟩ := Option.ite_none_right_eq_some.1 h
    obtain ⟨server, step, rfl⟩ := Option.map_eq_some_iff.1 h
    have served := kept.serve inj step
    split
    · rename_i reply answered
      refine ⟨served.known, served.jar, fun r mem => ?_, served.calls, served.past, served.sent⟩
      rcases List.mem_append.1 mem with old | new
      · exact served.logins r old
      · obtain rfl := List.mem_singleton.1 new
        exact issued_login inj kept.known safe step answered
    · exact served
  | loggedIn i =>
    obtain ⟨reply, arrived, rfl⟩ := Option.map_eq_some_iff.1 h
    have issued := kept.logins reply (List.mem_of_getElem? arrived)
    refine ⟨kept.known, .inr ⟨_, _, _, rfl, rfl, issued⟩, fun r mem => ?_, fun call mem same => ?_,
      fun call mem => ?_, kept.sent⟩
    · exact kept.logins r (List.mem_of_mem_eraseIdx mem)
    · have old := kept.past call mem
      simp only [Tabs.store] at same
      omega
    · exact (kept.past call mem).trans (Nat.le_succ _)
  | call task =>
    obtain ⟨csrf, read, rfl⟩ := Option.map_eq_some_iff.1 h
    refine ⟨kept.known, kept.jar, kept.logins, fun call mem same => ?_, fun call mem => ?_, kept.sent⟩
    · rcases List.mem_append.1 mem with old | new
      · exact kept.calls call old same
      · obtain rfl := List.mem_singleton.1 new
        obtain rfl := Option.some.inj (kept.reads.symm.trans read)
        rcases kept.jar with ⟨none, -⟩ | ⟨c, x, expires, session, csrf, issued⟩
        · exact .inl (by rw [none, live_none])
        · by_cases ahead : s.server.now < expires
          · right
            rw [csrf, live_some.2 ⟨rfl, ahead⟩, Option.getD_some, if_neg issued.nonempty]
          · exact .inl (by rw [session, live_expired ahead])
    · rcases List.mem_append.1 mem with old | new
      · exact kept.past call old
      · obtain rfl := List.mem_singleton.1 new
        exact le_rfl
  | send i =>
    obtain ⟨call, built, rfl⟩ := Option.map_eq_some_iff.1 h
    have inList : call ∈ s.calls := List.mem_of_getElem? built
    refine ⟨kept.known, kept.jar, kept.logins, fun other mem => kept.calls other (List.mem_of_mem_eraseIdx mem),
      fun other mem => kept.past other (List.mem_of_mem_eraseIdx mem), fun q mem steady => ?_⟩
    rcases List.mem_append.1 mem with old | new
    · exact kept.sent q old steady
    · obtain rfl := List.mem_singleton.1 new
      rcases kept.calls call inList (of_decide_eq_true steady) with none | read
      · exact .inl none
      · rcases kept.jar with ⟨none, -⟩ | ⟨c, x, expires, session, csrf, issued⟩
        · exact .inl (by rw [none, live_none])
        · by_cases ahead : s.server.now < expires
          · refine .inr ⟨c, x, by rw [session]; exact live_some.2 ⟨rfl, ahead⟩, ?_, issued⟩
            rw [csrf] at read
            exact read.trans (live_some.2 ⟨rfl, ahead⟩)
          · exact .inl (by rw [session, live_expired ahead])
  | handled i =>
    obtain ⟨q, there, h⟩ := Option.bind_eq_some_iff.1 h
    obtain ⟨server, step, rfl⟩ := Option.map_eq_some_iff.1 h
    have served := kept.serve inj step
    exact ⟨served.known, served.jar, served.logins, served.calls, served.past,
      fun q mem => served.sent q (List.mem_of_mem_eraseIdx mem)⟩
  | loggedOut =>
    obtain ⟨-, h⟩ := Option.ite_none_right_eq_some.1 h
    obtain rfl := Option.some.inj h
    exact ⟨kept.known, .inl ⟨rfl, rfl⟩, kept.logins, fun _ _ _ => .inl rfl, kept.past, kept.sent⟩

/-- A request with the secret of its session passes as far as its session does. -/
theorem requireCsrf_issued (known : Known env a) (issued : Issued env a c x) {r : AuthRequest}
    (cookie : r.cookie = some c) (csrf : r.csrf = some x) :
    requireCsrf env a.now r a.db = currentAdmin env a.now r a.db := by
  cases current : currentAdmin env a.now r a.db with
  | error e =>
    rw [requireCsrf, current]
    rfl
  | ok found =>
    obtain ⟨admin, row⟩ := found
    obtain ⟨c', cookie', -, key, ahead, -⟩ := currentAdmin_eq_ok.1 current
    obtain rfl := Option.some.inj (cookie.symm.trans cookie')
    obtain ⟨mem, hash⟩ := Table.find?_eq_some_iff.1 key
    obtain ⟨-, -, x', -, -, secret⟩ := known.drawn row mem
    obtain rfl := issued.own x' row.expiresAt ahead ⟨row, mem, hash, secret, rfl⟩
    exact requireCsrf_eq_ok.2 ⟨current, fun _ => ⟨x', csrf, issued.nonempty, secret⟩⟩

theorem requireCsrf_anonymous {r : AuthRequest} {db : AuthDb} (cookie : r.cookie = none) :
    requireCsrf env now r db = currentAdmin env now r db := by
  have refused : currentAdmin env now r db = .error ⟨401, "نشست معتبر نیست"⟩ := by
    simp [currentAdmin, given, cookie]
  rw [requireCsrf, refused]
  rfl

/-- **The panel passes `require_csrf`.** In every run of the panel's tabs, the network and everybody else,
whatever cookies of other names the script sees: it reads the secret of its own session, which is there as
long as the session's cookie is, and `require_csrf` answers each of its requests as `current_admin` does, but
for one whose cookies another login replaced while it was under way. -/
theorem panel_passes (env : AuthEnv) (inj : Function.Injective env.tokenHash) (admins : Table Admin.id)
    (usernames : (admins.rows.map Admin.username).Nodup) (start : Instant) (ms : List TabMove) (s : Tabs)
    (run : (tabs env).run (.initial admins usernames start) ms = some s) :
    readCookie "arena_csrf".toList (s.jar.documentCookie s.server.now) =
        some ((liveCookie s.server.now s.jar.csrf).getD "") ∧
      ((liveCookie s.server.now s.jar.session).isSome ↔ (liveCookie s.server.now s.jar.csrf).isSome) ∧
      ∀ q ∈ s.sent, q.steady = true →
        requireCsrf env s.server.now q.auth s.server.db = currentAdmin env s.server.now q.auth s.server.db := by
  have init : Kept env (.initial admins usernames start) := by
    refine ⟨⟨?_, ?_⟩, .inl ⟨rfl, rfl⟩, ?_, ?_, ?_, ?_⟩ <;> simp [Tabs.initial, Auth.initial]
  have kept : Kept env s := Machine.run_invariant (fun kept step => kept_step inj kept step) init ⟨ms, run⟩
  refine ⟨kept.reads, ?_, fun q mem steady => ?_⟩
  · rcases kept.jar with ⟨none, none'⟩ | ⟨c, x, expires, session, csrf, -⟩
    · simp [none, none']
    · by_cases ahead : s.server.now < expires
      · rw [session, csrf, live_some.2 ⟨rfl, ahead⟩, live_some.2 ⟨rfl, ahead⟩]
        rfl
      · rw [session, csrf, live_expired ahead, live_expired ahead]
  · rcases kept.sent q mem steady with none | ⟨c, x, cookie, csrf, issued⟩
    · exact requireCsrf_anonymous none
    · exact requireCsrf_issued kept.known issued cookie csrf

/-- A cookie whose name begins like the panel's. -/
def longerName : OtherCookie where
  name := "arena_csrf2".toList
  value := "x=9".toList
  plain := by decide +kernel
  other := by decide +kernel

theorem root_usernames : (root.rows.map Admin.username).Nodup := by simp [root]

/-- A login, a later one of the same browser, and two requests: one between them, one after. -/
def twoLogins : List TabMove :=
  [.cookies [longerName] [], .login "root" "pw" "c1" "x1", .loggedIn 0, .call (.request .post true),
    .login "root" "pw" "c2" "x2", .loggedIn 0, .call (.request .delete true), .send 1, .send 0]

/-- The one after passes with the second pair; the one between has the first secret with the second cookie. -/
theorem panel_passes_two : ∃ s, (tabs plainEnv).run (.initial root root_usernames 0) twoLogins = some s ∧
    (∃ q ∈ s.sent, q.steady = true ∧ q.cookie = some "c2" ∧ q.csrf = some "x2" ∧
      requireCsrf plainEnv s.server.now q.auth s.server.db =
        currentAdmin plainEnv s.server.now q.auth s.server.db) ∧
    ∃ q ∈ s.sent, q.steady = false ∧ q.cookie = some "c2" ∧ q.csrf = some "x1" := by
  obtain ⟨s, run, facts⟩ := (Option.any_eq_true _ _).1
    (by decide +kernel : ((tabs plainEnv).run (.initial root root_usernames 0) twoLogins).any fun s =>
      (s.sent.any fun q => q.steady && (q.cookie = some "c2" && q.csrf = some "x2")) &&
        s.sent.any fun q => !q.steady && (q.cookie = some "c2" && q.csrf = some "x1"))
  obtain ⟨second, first⟩ := Bool.and_eq_true_iff.1 facts
  obtain ⟨q, mem, steady⟩ := List.any_eq_true.1 second
  obtain ⟨q', mem', replaced⟩ := List.any_eq_true.1 first
  simp only [Bool.and_eq_true, decide_eq_true_eq, Bool.not_eq_true'] at steady replaced
  have passes := (panel_passes plainEnv Function.injective_id root root_usernames 0 twoLogins s run).2.2
  exact ⟨s, run, ⟨q, mem, steady.1, steady.2.1, steady.2.2, passes q mem steady.1⟩,
    ⟨q', mem', replaced.1, replaced.2.1, replaced.2.2⟩⟩

end Arena.Browser
