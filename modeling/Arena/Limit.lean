import Arena.Model.Serial

/-!
# The address limit under concurrent connections

`authorize` counts the open addresses of a user and then inserts a session. The user's row,
locked before the count, keeps every other `authorize` of the user and every change of its
limit out until the commit; sessions may only end in between. `ip_limit` is what follows from
that, for any interleaving of the statements of any number of requests.
-/

namespace Arena.Limit

open Arena.Lib Arena.Model

variable {cfg : Settings} {db db' : Database} {uid : Id} {e : Event} {s s' : Store}
  {t t' : Transaction} {x : Store.Label}

/-! ## What a transaction in flight relies on -/

/-- What holds of a transaction in flight: the row it holds is the committed one; when it is
about to admit, it holds its user, the limit was met by what it saw, and it saw every address
that is still open. -/
structure Sound (db : Database) (t : Transaction) : Prop where
  row : ∀ user, t.user = some user → db.users.find? t.request.userId = some user
  passed : ∀ user node, t.next = .readSessions user node → t.user = some user
  counted : ∀ user node seen, t.next = .write (.admitted user node) seen → t.user = some user ∧
    (t.request.sourceIp ∈ seen ∨ seen.card < user.maxIps) ∧
    (t.view db).openIps t.request.userId ⊆ seen

/-- Every transaction in flight is sound, and no two hold one user. -/
structure Inv (s : Store) : Prop where
  sound : ∀ t ∈ s.transactions, Sound s.plane.db t
  alone : ∀ t ∈ s.transactions, ∀ t' ∈ s.transactions, t.user.isSome → t'.user.isSome →
    t.request.userId = t'.request.userId → t = t'

/-- A transaction stays sound under commits that leave its user's row alone and open no
session of its user. -/
theorem Sound.frame (sound : Sound db t)
    (row : ∀ user, t.user = some user → db'.users.find? t.request.userId = some user)
    (shrinks : t.user.isSome → Shrinks t.request.userId db db') : Sound db' t := by
  refine ⟨row, sound.passed, fun user node seen next => ?_⟩
  obtain ⟨holds, room, saw⟩ := sound.counted user node seen next
  have ends : Shrinks t.request.userId db db' := shrinks (by simp [holds])
  exact ⟨holds, room, ends.view.trans saw⟩

/-- A transaction after a statement that read or swept. -/
theorem Sound.read {others : List Transaction} (sound : Sound db t)
    (read : t.Read cfg others db t') : Sound db t' := by
  cases read with
  | sweeps swept next early undecided =>
    exact ⟨sound.row, fun user node here => absurd here (early user node),
      fun user node seen here => absurd here (undecided _ seen)⟩
  | locks => exact ⟨fun user here => here, by simp, by simp⟩
  | passes user node mine =>
    refine ⟨sound.row, fun user' node' here => ?_, by simp⟩
    cases here
    exact mine
  | refuses verdict denied =>
    refine ⟨sound.row, by simp, fun user node seen here => ?_⟩
    cases here
    exact absurd rfl (denied user node)
  | counts user node here =>
    have mine : t.user = some user := sound.passed user node here
    have uid : user.id = t.request.userId := Table.find?_key (sound.row user mine)
    refine ⟨sound.row, by simp, fun user' node' seen decided => ?_⟩
    simp only [Statement.write.injEq, Transaction.limit] at decided
    obtain ⟨verdict, rfl⟩ := decided
    split at verdict
    · cases verdict
    · rename_i room
      cases verdict
      refine ⟨mine, ?_, ?_⟩
      · by_contra full
        push Not at full
        exact room full
      · rw [uid]
        exact Finset.Subset.refl _

/-- A statement that takes a user's row takes one that nobody else holds. -/
theorem alone_of_read (inv : Inv s) (mem : t ∈ s.transactions)
    (read : t.Read cfg (s.others t.newId) s.plane.db t') :
    ∀ o ∈ s.others t.newId, t'.user.isSome → o.user.isSome →
      t'.request.userId ≠ o.request.userId := by
  intro o ho holds holds' same
  obtain ⟨ho', other⟩ := mem_others.1 ho
  cases read with
  | locks free =>
    have taken : o.holds t.request.userId := by simp [Transaction.holds, holds', ← same]
    exact free o ho taken
  | sweeps | passes | refuses | counts =>
    have one : t = o := inv.alone t mem o ho' holds holds' same
    exact other (congrArg _ one.symm)

/-- A user held by a transaction in flight is not needed by a request that is not blocked. -/
theorem not_mem_userRows (free : ¬ s.blocks e) (mem : t ∈ s.transactions) (holds : t.user.isSome) :
    t.request.userId ∉ e.userRows s.plane.db := by
  intro needed
  apply free
  simp only [Store.blocks, List.any_eq_true, Bool.or_eq_true]
  exact ⟨t, mem, .inr ⟨t.request.userId, needed, by simp [Transaction.holds, holds]⟩⟩

/-- **The step lemma.** -/
theorem inv_step (inv : Inv s) (h : (store cfg).step s x = some s') : Inv s' := by
  cases Store.step_inv h with
  | other e p' foreign free step =>
    obtain ⟨-, rfl⟩ := plane_step.1 step
    refine ⟨fun t mem => ?_, inv.alone⟩
    apply (inv.sound t mem).frame
    · intro user holds
      exact other_keeps_user foreign (not_mem_userRows free mem (by simp [holds]))
        ((inv.sound t mem).row user holds)
    · exact fun _ => other_shrinks foreign
  | begins newId q fresh =>
    constructor
    · intro t mem
      rcases List.mem_cons.1 mem with rfl | mem
      · exact ⟨by simp, by simp, by simp⟩
      · exact inv.sound t mem
    · intro t mem t' mem' holds holds'
      rcases List.mem_cons.1 mem with rfl | mem
      · simp at holds
      · rcases List.mem_cons.1 mem' with rfl | mem'
        · simp at holds'
        · exact inv.alone t mem t' mem' holds holds'
  | reads t t' found read =>
    have mem : t ∈ s.transactions := List.mem_of_find?_eq_some found
    have apart := alone_of_read inv mem read
    constructor
    · intro o ho
      rcases List.mem_cons.1 ho with rfl | ho
      · exact (inv.sound t mem).read read
      · exact inv.sound o (mem_others.1 ho).1
    · intro o ho o' ho' holds holds' same
      rcases List.mem_cons.1 ho with rfl | kept <;> rcases List.mem_cons.1 ho' with rfl | kept'
      · rfl
      · exact absurd same (apart o' kept' holds holds')
      · exact absurd same.symm (apart o kept holds' holds)
      · exact inv.alone o (mem_others.1 kept).1 o' (mem_others.1 kept').1 holds holds' same
  | commits t verdict seen found next =>
    have mem : t ∈ s.transactions := List.mem_of_find?_eq_some found
    refine ⟨fun o ho => ?_, fun o ho o' ho' =>
      inv.alone o (mem_others.1 ho).1 o' (mem_others.1 ho').1⟩
    obtain ⟨ho', other⟩ := mem_others.1 ho
    have sound := inv.sound o ho'
    rcases t.commit_cases s.plane.db verdict with ⟨users, shrinks⟩ | ⟨user, node, rfl, committed⟩
    · apply sound.frame
      · intro user holds
        rw [Store.ended_plane, users]
        exact sound.row user holds
      · exact fun _ => shrinks _
    · -- the admitted user is held by `t`, so by nobody else
      have mine := (inv.sound t mem).counted user node seen next
      have apart : o.user.isSome → o.request.userId ≠ t.request.userId := by
        intro holds same
        have one : o = t := inv.alone o ho' t mem holds (by simp [mine.1]) same
        exact other (congrArg _ one)
      apply sound.frame
      · exact fun user' holds =>
          ((admission_users committed).2 _ (apart (by simp [holds]))).trans (sound.row user' holds)
      · exact fun holds => (admission_openIps committed).2 _ (apart holds)
  | abort newId =>
    exact ⟨fun o ho => inv.sound o (mem_others.1 ho).1, fun o ho o' ho' =>
      inv.alone o (mem_others.1 ho).1 o' (mem_others.1 ho').1⟩

/-- **The run lemma.** -/
theorem inv_run {start : Instant} {es : List Store.Label}
    (run : (store cfg).run (.initial start) es = some s) : Inv s := by
  have init : Inv (.initial start) := ⟨by simp [Store.initial], by simp [Store.initial]⟩
  exact Machine.run_invariant inv_step init ⟨es, run⟩

/-! ## One step -/

/-- The step commits an admission: the transaction's user and node, and the open addresses
that it read under the lock on the user's row, after its own sweep. -/
structure Admits (s : Store) (x : Store.Label) (s' : Store) (t : Transaction) (user : User)
    (node : Node) (seen : Finset String) : Prop where
  label : x = .advance t.newId
  found : s.transactions.find? (·.newId = t.newId) = some t
  next : t.next = .write (.admitted user node) seen
  committed : admission t.newId t.now t.request (t.view s.plane.db) = some s'.plane.db

/-- After an admission, the user's open addresses are among those it saw, and its own. -/
theorem admits_openIps {user : User} {node : Node} {seen : Finset String} (inv : Inv s)
    (admits : Admits s x s' t user node seen) :
    s'.plane.db.openIps t.request.userId ⊆ insert t.request.sourceIp seen := by
  have mem : t ∈ s.transactions := List.mem_of_find?_eq_some admits.found
  obtain ⟨-, -, saw⟩ := (inv.sound t mem).counted user node seen admits.next
  exact (admission_openIps admits.committed).1.trans (Finset.insert_subset_insert _ saw)

/-- The limit of the user after an admission is the one the transaction checked. -/
theorem admits_user {user : User} {node : Node} {seen : Finset String} (inv : Inv s)
    (admits : Admits s x s' t user node seen) :
    s'.plane.db.users.find? t.request.userId = some (user.start t.now) := by
  have mem : t ∈ s.transactions := List.mem_of_find?_eq_some admits.found
  have sound := inv.sound t mem
  have row := sound.row user (sound.counted user node seen admits.next).1
  exact (admission_users admits.committed).1 user row

/-- An admission from an address that it did not see open leaves the user within its limit. -/
theorem new_address_within_limit {user : User} {node : Node} {seen : Finset String} (inv : Inv s)
    (admits : Admits s x s' t user node seen) (new : t.request.sourceIp ∉ seen) :
    (s'.plane.db.openIps t.request.userId).card ≤ user.maxIps := by
  have mem : t ∈ s.transactions := List.mem_of_find?_eq_some admits.found
  obtain ⟨-, room, -⟩ := (inv.sound t mem).counted user node seen admits.next
  have below : seen.card < user.maxIps := room.resolve_left new
  calc (s'.plane.db.openIps t.request.userId).card
      ≤ (insert t.request.sourceIp seen).card := Finset.card_le_card (admits_openIps inv admits)
    _ ≤ seen.card + 1 := Finset.card_insert_le _ _
    _ ≤ user.maxIps := below

/-- An admission from an address that it saw open leaves at most the addresses it saw. -/
theorem known_address_within_seen {user : User} {node : Node} {seen : Finset String} (inv : Inv s)
    (admits : Admits s x s' t user node seen) (known : t.request.sourceIp ∈ seen) :
    (s'.plane.db.openIps t.request.userId).card ≤ seen.card := by
  have among := admits_openIps inv admits
  rw [Finset.insert_eq_self.2 known] at among
  exact Finset.card_le_card among

/-- A step that admits no connection of the user opens no address of it. -/
theorem openIps_step (h : (store cfg).step s x = some s')
    (quiet : ∀ t user node seen, Admits s x s' t user node seen → t.request.userId ≠ uid) :
    s'.plane.db.openIps uid ⊆ s.plane.db.openIps uid := by
  cases Store.step_inv h with
  | other e p' foreign free step =>
    obtain ⟨-, rfl⟩ := plane_step.1 step
    exact (other_shrinks foreign).openIps
  | begins | reads | abort => exact Finset.Subset.refl _
  | commits t verdict seen found next =>
    rcases t.commit_cases s.plane.db verdict with ⟨-, shrinks⟩ | ⟨user, node, rfl, committed⟩
    · exact (shrinks uid).openIps
    · have other : uid ≠ t.request.userId :=
        (quiet t user node seen ⟨rfl, found, next, committed⟩).symm
      exact ((admission_openIps committed).2 uid other).openIps

/-! ## Runs that never lower a limit -/

/-- The step commits a lower limit for this user. -/
def Lowers (cfg : Settings) (uid : Id) (s : Store) (x : Store.Label) : Prop :=
  ((store cfg).step s x).any fun s' => (s.plane.db.users.find? uid).any fun row =>
    (s'.plane.db.users.find? uid).any fun row' => row'.maxIps < row.maxIps

instance : Decidable (Lowers cfg uid s x) := inferInstanceAs (Decidable (_ = true))

/-- The user is within its limit, and so is what a transaction about to admit it has seen. -/
structure Within (uid : Id) (s : Store) : Prop where
  user : ∀ user, s.plane.db.users.find? uid = some user → (s.plane.db.openIps uid).card ≤ user.maxIps
  seen : ∀ t ∈ s.transactions, t.request.userId = uid →
    ∀ user node seen, t.next = .write (.admitted user node) seen → seen.card ≤ user.maxIps

/-- A user that does not exist has no open address. -/
theorem openIps_of_absent (absent : db.users.find? uid = none) : db.openIps uid = ∅ := by
  rw [Finset.eq_empty_iff_forall_notMem]
  intro ip hip
  obtain ⟨s, hs, rfl, -, -⟩ := mem_openIps.1 hip
  have owner := db.sessionUser s hs
  simp [absent] at owner

/-- A step that opens no address of the user and does not lower its limit. -/
theorem user_within {row' : User} (within : Within uid s) (keeps : ¬ Lowers cfg uid s x)
    (h : (store cfg).step s x = some s') (found : s'.plane.db.users.find? uid = some row')
    (fewer : s'.plane.db.openIps uid ⊆ s.plane.db.openIps uid) :
    (s'.plane.db.openIps uid).card ≤ row'.maxIps := by
  have card := Finset.card_le_card fewer
  cases before : s.plane.db.users.find? uid with
  | none =>
    rw [openIps_of_absent before, Finset.card_empty] at card
    omega
  | some row =>
    have limit : row.maxIps ≤ row'.maxIps := by simpa [Lowers, h, before, found] using keeps
    exact card.trans ((within.user row before).trans limit)

/-- What a statement sees is within the limit. -/
theorem seen_of_read {others : List Transaction} (within : Within uid s) (sound : Sound s.plane.db t)
    (mine : t.request.userId = uid) (read : t.Read cfg others s.plane.db t') :
    ∀ user node seen, t'.next = .write (.admitted user node) seen → seen.card ≤ user.maxIps := by
  intro user node seen next
  cases read with
  | sweeps swept here early undecided => exact absurd next (undecided _ seen)
  | locks => cases next
  | passes => cases next
  | refuses verdict denied =>
    cases next
    exact absurd rfl (denied user node)
  | counts user' node' here =>
    have row := mine ▸ sound.row user' (sound.passed user' node' here)
    simp only [Statement.write.injEq, Transaction.limit] at next
    obtain ⟨verdict, rfl⟩ := next
    split at verdict
    · cases verdict
    · cases verdict
      rw [Table.find?_key row]
      exact (Finset.card_le_card shrinks_view.openIps).trans (within.user _ row)

theorem request_of_read {others : List Transaction} (read : t.Read cfg others db t') :
    t'.request = t.request := by
  cases read <;> rfl

/-- **The step lemma** for the limit. -/
theorem within_step (inv : Inv s) (within : Within uid s) (keeps : ¬ Lowers cfg uid s x)
    (h : (store cfg).step s x = some s') : Within uid s' := by
  have quiet : (∀ t user node seen, Admits s x s' t user node seen → t.request.userId ≠ uid) →
      s'.plane.db.openIps uid ⊆ s.plane.db.openIps uid := openIps_step h
  have stays : ∀ row', s'.plane.db.users.find? uid = some row' →
      s'.plane.db.openIps uid ⊆ s.plane.db.openIps uid → (s'.plane.db.openIps uid).card ≤ row'.maxIps :=
    fun _ found => user_within within keeps h found
  cases Store.step_inv h with
  | other e p' foreign free step =>
    refine ⟨fun row' found => stays row' found (quiet ?_), within.seen⟩
    rintro t user node seen ⟨label, -⟩
    cases label
  | begins newId q fresh =>
    refine ⟨within.user, fun t mem => ?_⟩
    rcases List.mem_cons.1 mem with rfl | mem
    · simp
    · exact within.seen t mem
  | reads t t' found read =>
    have mem : t ∈ s.transactions := List.mem_of_find?_eq_some found
    refine ⟨within.user, fun o ho mine => ?_⟩
    rcases List.mem_cons.1 ho with rfl | ho
    · exact seen_of_read within (inv.sound t mem) (request_of_read read ▸ mine) read
    · exact within.seen o (mem_others.1 ho).1 mine
  | commits t verdict seen found next =>
    have mem : t ∈ s.transactions := List.mem_of_find?_eq_some found
    refine ⟨fun row' here => ?_, fun o ho => within.seen o (mem_others.1 ho).1⟩
    by_cases admitted : ∃ user node seen, Admits s (.advance t.newId) (s.ended t verdict) t user node seen ∧
        t.request.userId = uid
    · obtain ⟨user, node, seen, admits, rfl⟩ := admitted
      have row : row' = user.start t.now := Option.some.inj (here.symm.trans (admits_user inv admits))
      rw [row, User.start_maxIps]
      by_cases known : t.request.sourceIp ∈ seen
      · exact (known_address_within_seen inv admits known).trans
          (within.seen t mem rfl user node seen admits.next)
      · exact new_address_within_limit inv admits known
    · refine stays row' here (quiet fun t' user node seen' admits mine => ?_)
      have same : t' = t := by
        have label : t.newId = t'.newId := by injection admits.label
        exact Option.some.inj ((label ▸ admits.found).symm.trans found)
      subst same
      exact admitted ⟨user, node, seen', admits, mine⟩
  | abort newId => exact ⟨within.user, fun o ho => within.seen o (mem_others.1 ho).1⟩

/-- **The run lemma** for the limit. -/
theorem within_run {start : Instant} {es : List Store.Label}
    (run : (store cfg).run (.initial start) es = some s)
    (keeps : (store cfg).Along (fun s x => ¬ Lowers cfg uid s x) (.initial start) es) : Within uid s := by
  have init : Inv (.initial start) ∧ Within uid (.initial start) := by
    refine ⟨⟨by simp [Store.initial], by simp [Store.initial]⟩, ⟨fun user found => ?_, ?_⟩⟩
    · simp [Store.initial, Plane.initial, Database.empty, Table.find?] at found
    · simp [Store.initial]
  have step : ∀ {s : Store} {x : Store.Label} {s' : Store}, Inv s ∧ Within uid s → ¬ Lowers cfg uid s x →
      (store cfg).step s x = some s' → Inv s' ∧ Within uid s' :=
    fun both keep h => ⟨inv_step both.1 h, within_step both.1 both.2 keep h⟩
  exact (Machine.along_invariant (I := fun s => Inv s ∧ Within uid s) step init keeps run).2

/-! ## The limit -/

/-- **The address limit.** In every state that a fresh installation reaches, whatever the
interleaving of statements: an `authorize` from an address that is not among the open sessions
it reads, under the lock on its user's row and after its sweep, commits only if the user then
has at most `max_ips` distinct open addresses; one from an address that it reads as open
leaves at most the addresses it has read; no other step opens an address. So in a run in
which no step commits a lower limit for a user, that user is within its limit in every
committed state. -/
theorem ip_limit (cfg : Settings) (start : Instant) (es : List Store.Label) (s : Store)
    (run : (store cfg).run (.initial start) es = some s) :
    (∀ x s', (store cfg).step s x = some s' →
      (∀ t user node seen, Admits s x s' t user node seen → t.request.sourceIp ∉ seen →
        ∃ row, s'.plane.db.users.find? t.request.userId = some row ∧
          (s'.plane.db.openIps t.request.userId).card ≤ row.maxIps) ∧
      (∀ t user node seen, Admits s x s' t user node seen → t.request.sourceIp ∈ seen →
        (s'.plane.db.openIps t.request.userId).card ≤ seen.card) ∧
      ∀ uid, (∀ t user node seen, Admits s x s' t user node seen → t.request.userId ≠ uid) →
        s'.plane.db.openIps uid ⊆ s.plane.db.openIps uid) ∧
    ∀ uid, (store cfg).Along (fun s x => ¬ Lowers cfg uid s x) (.initial start) es →
      ∀ user, s.plane.db.users.find? uid = some user →
        (s.plane.db.openIps uid).card ≤ user.maxIps := by
  have inv : Inv s := inv_run run
  refine ⟨fun x s' step => ⟨fun t user node seen admits new => ?_, fun t user node seen admits =>
    known_address_within_seen inv admits, fun uid => openIps_step step⟩, fun uid keeps =>
    (within_run run keeps).user⟩
  refine ⟨user.start t.now, admits_user inv admits, ?_⟩
  rw [User.start_maxIps]
  exact new_address_within_limit inv admits new

/-! ## Requests one after the other -/

/-- The request lowers this user's limit, where each request is one step. -/
def LowersLimit (cfg : Settings) (uid : Id) (p : Plane) (e : Event) : Prop :=
  ((plane cfg).step p e).any fun p' => (p.db.users.find? uid).any fun row =>
    (p'.db.users.find? uid).any fun row' => row'.maxIps < row.maxIps

/-- No statement of an `authorize` lowers a limit. -/
theorem not_lowers_advance {newId : Id} : ¬ Lowers cfg uid s (.advance newId) := by
  simp only [Lowers, Option.any_eq_true, decide_eq_true_eq, not_exists, not_and, not_lt]
  intro s' step row before row' after
  refine le_of_eq ?_
  generalize label : Store.Label.advance newId = x at step
  cases Store.step_inv step with
  | other | begins | abort => cases label
  | reads => exact congrArg User.maxIps (Option.some.inj (before.symm.trans after))
  | commits t verdict seen found next =>
    rcases t.commit_cases s.plane.db verdict with ⟨users, -⟩ | ⟨user, node, rfl, committed⟩
    · have same : s.plane.db.users.find? uid = some row' := by rw [← users]; exact after
      exact congrArg User.maxIps (Option.some.inj (before.symm.trans same))
    · by_cases mine : uid = t.request.userId
      · subst mine
        have started := (admission_users committed).1 row before
        obtain rfl : row' = row.start t.now := Option.some.inj (after.symm.trans started)
        exact (User.start_maxIps).symm
      · have same := (admission_users committed).2 uid mine
        exact congrArg User.maxIps (Option.some.inj (before.symm.trans (same.symm.trans after)))

theorem not_lowers_begins {newId : Id} {q : GatewayAuthorize} : ¬ Lowers cfg uid s (.begins newId q) := by
  simp only [Lowers, Option.any_eq_true, decide_eq_true_eq, not_exists, not_and, not_lt]
  intro s' step row before row' after
  generalize label : Store.Label.begins newId q = x at step
  cases Store.step_inv step with
  | begins =>
    have same : row = row' := Option.some.inj (before.symm.trans after)
    rw [same]
  | other | reads | commits | abort => cases label

/-- One request as statements of its own, and none of them lowers a limit that it does not lower. -/
theorem serial_step {p p' : Plane} (step : (plane cfg).step p e = some p')
    (keeps : ¬ LowersLimit cfg uid p e) :
    ∃ ls, (store cfg).run ⟨p, []⟩ ls = some ⟨p', []⟩ ∧
      (store cfg).Along (fun s x => ¬ Lowers cfg uid s x) ⟨p, []⟩ ls := by
  by_cases admits : ∃ newId q, e = .authorize newId q
  · obtain ⟨newId, q, rfl⟩ := admits
    obtain ⟨n, run⟩ := serial_authorize step
    refine ⟨_, run, ?_⟩
    have quiet : ∀ x ∈ Store.Label.begins newId q :: List.replicate n (.advance newId),
        ∀ s, ¬ Lowers cfg uid s x := by
      intro x mem s
      rcases List.mem_cons.1 mem with rfl | mem
      · exact not_lowers_begins
      · rw [List.eq_of_mem_replicate mem]
        exact not_lowers_advance
    exact (Machine.along_of_mem (m := store cfg) quiet _).mono fun s x h => h s
  · have whole := whole_step (fun newId q same => admits ⟨newId, q, same⟩) step
    refine ⟨[.other e], Machine.run_cons.2 ⟨_, whole, rfl⟩, ?_, fun _ _ => trivial⟩
    simpa [Lowers, whole, LowersLimit, step] using keeps

/-- **The limit, request by request**: where no request lowers the limit of a user, it is within it. -/
theorem serial_limit {start : Instant} {es : List Event} {p : Plane}
    (run : (plane cfg).run (.initial start) es = some p)
    (keeps : (plane cfg).Along (fun p e => ¬ LowersLimit cfg uid p e) (.initial start) es) :
    ∀ user, p.db.users.find? uid = some user → (p.db.openIps uid).card ≤ user.maxIps := by
  have serial : ∀ (es : List Event) (p₀ : Plane), (plane cfg).run p₀ es = some p →
      (plane cfg).Along (fun p e => ¬ LowersLimit cfg uid p e) p₀ es →
      ∃ ls, (store cfg).run ⟨p₀, []⟩ ls = some ⟨p, []⟩ ∧
        (store cfg).Along (fun s x => ¬ Lowers cfg uid s x) ⟨p₀, []⟩ ls := by
    intro es
    induction es with
    | nil =>
      rintro p₀ run -
      cases run
      exact ⟨[], rfl, trivial⟩
    | cons e es ih =>
      intro p₀ run along
      obtain ⟨p₁, step, rest⟩ := Machine.run_cons.1 run
      obtain ⟨ls, first, quiet⟩ := serial_step step along.1
      obtain ⟨ls', second, quiet'⟩ := ih p₁ rest (along.2 p₁ step)
      exact ⟨ls ++ ls', (Machine.run_append first).trans second, quiet.append first quiet'⟩
  obtain ⟨ls, run', quiet⟩ := serial es _ run keeps
  exact (within_run run' quiet).user

/-! ## Two connections at once -/

/-- A node and a user. -/
def installation (user : UserCreate) : List Store.Label :=
  [.other (.admin "admin" (.createNode "node" testNode)),
    .other (.admin "admin" (.createUser "user" testKeys user))]

/-- A request of a user from an address, run for so many statements. -/
def connect (newId uid ip : String) (statements : ℕ) : List Store.Label :=
  .begins newId { userId := uid, nodeId := "node", sourceIp := ip } ::
    List.replicate statements (.advance newId)

/-- Two connections at once of a user that may have one. -/
def race : List Store.Label :=
  installation testUser ++ connect "first" "user" "203.0.113.10" 2 ++
    connect "second" "user" "203.0.113.11" 2 ++ List.replicate 5 (.advance "first") ++
    List.replicate 5 (.advance "second")

/-- The second one is refused. -/
theorem ip_limit_race : ∃ s user, (store {}).run (.initial 0) race = some s ∧
    s.plane.db.users.find? "user" = some user ∧ (s.plane.db.openIps "user").card ≤ user.maxIps := by
  obtain ⟨s, run⟩ := Option.isSome_iff_exists.1
    (by decide +kernel : ((store {}).run (.initial 0) race).isSome)
  have present : (((store {}).run (.initial 0) race).bind
      fun s => s.plane.db.users.find? "user").isSome := by decide +kernel
  rw [run] at present
  obtain ⟨user, found⟩ := Option.isSome_iff_exists.1 present
  have keeps : (store {}).Along (fun s x => ¬ Lowers {} "user" s x) (.initial 0) race := by decide +kernel
  exact ⟨s, user, run, found, (ip_limit {} 0 race s run).2 "user" keeps user found⟩

/-- Two connections, the limit lowered to one, and a connection from the first address that
reads both as open; before it commits, the sweep of another request ends the first session,
which has become stale. -/
def lateSweep : List Store.Label :=
  installation { testUser with maxIps := 2, maxIpsRange := by decide } ++ connect "first" "user" "203.0.113.10" 7 ++
    [.other (.tick 10000000)] ++ connect "second" "user" "203.0.113.11" 7 ++
    [.other (.admin "admin" (.updateUser "user" { maxIps := .set 1 })), .other (.tick 35000000)] ++
    connect "third" "user" "203.0.113.10" 6 ++
    [.other (.tick 1000000)] ++ connect "fourth" "stranger" "203.0.113.12" 7

/-- The commit then opens an address that was no longer open, beyond the limit. -/
theorem late_sweep_exceeds_limit : ∃ s s' row,
    (store {}).run (.initial 0) lateSweep = some s ∧
    (store {}).step s (.advance "third") = some s' ∧
    "203.0.113.10" ∉ s.plane.db.openIps "user" ∧ "203.0.113.10" ∈ s'.plane.db.openIps "user" ∧
    (s.plane.db.openIps "user").card < (s'.plane.db.openIps "user").card ∧
    s'.plane.db.users.find? "user" = some row ∧
    row.maxIps < (s'.plane.db.openIps "user").card := by
  obtain ⟨s, run⟩ := Option.isSome_iff_exists.1
    (by decide +kernel : ((store {}).run (.initial 0) lateSweep).isSome)
  have known : (((store {}).run (.initial 0) lateSweep).bind fun s =>
      ((store {}).step s (.advance "third")).bind fun s' =>
      (s'.plane.db.users.find? "user").map fun row =>
        decide ("203.0.113.10" ∉ s.plane.db.openIps "user" ∧
          "203.0.113.10" ∈ s'.plane.db.openIps "user" ∧
          (s.plane.db.openIps "user").card < (s'.plane.db.openIps "user").card ∧
          row.maxIps < (s'.plane.db.openIps "user").card)) = some true := by decide +kernel
  rw [run, Option.bind_some] at known
  obtain ⟨s', step, known⟩ := Option.bind_eq_some_iff.1 known
  obtain ⟨row, found, known⟩ := Option.map_eq_some_iff.1 known
  obtain ⟨closed, opened, more, beyond⟩ := of_decide_eq_true known
  exact ⟨s, s', row, run, step, closed, opened, more, found, beyond⟩

end Arena.Limit
