import Arena.Model.TransactionSteps

/-!
# An `authorize` that runs alone

The machine of statements refines the control plane of `Arena.Model.Plane`: with no other
transaction in flight, the statements of an `authorize` lead where `authorize` as one step
leads.
-/

namespace Arena.Model

open Arena.Lib

variable {cfg : Settings} {db : Database} {p p' : Plane} {t : Transaction} {newId : Id}
  {q : GatewayAuthorize}

/-- A transaction with nobody beside it. -/
def lone (p : Plane) (t : Transaction) : Store := ⟨p, [t]⟩

/-- Alone, the transaction leads to this store. -/
def Finishes (cfg : Settings) (p : Plane) (t : Transaction) (s : Store) : Prop :=
  ∃ n, (store cfg).run (lone p t) (List.replicate n (.advance t.newId)) = some s

theorem finishes_of_read {t' : Transaction} {s : Store} (same : t'.newId = t.newId)
    (h : t.advance cfg [] p.db = some (p.db, some t')) (rest : Finishes cfg p t' s) :
    Finishes cfg p t s := by
  obtain ⟨n, run⟩ := rest
  refine ⟨n + 1, ?_⟩
  rw [List.replicate_succ, Machine.run_cons]
  refine ⟨lone p t', ?_, same ▸ run⟩
  simp [store, Store.step, lone, Store.others, h]

theorem finishes_of_write {verdict : Verdict} {seen : Finset String}
    (h : t.next = .write verdict seen) :
    Finishes cfg p t ⟨{ p with db := t.commit p.db verdict }, []⟩ := by
  have advanced : t.advance cfg [] p.db = some (t.commit p.db verdict, none) := by
    simp only [Transaction.advance, h]
  refine ⟨1, ?_⟩
  rw [List.replicate_one, Machine.run_cons]
  exact ⟨_, by simp [store, Store.step, lone, Store.others, advanced], rfl⟩

/-- A sweep of the rows for which a predicate holds, and of those of another that agrees. -/
theorem updateSessions_congr {a b : ConnectionSession → Bool}
    {f : ConnectionSession → ConnectionSession} {keeps keepsUser keepsNode}
    (h : ∀ s ∈ db.sessions.rows, a s = b s) :
    db.updateSessions a f keeps keepsUser keepsNode =
      db.updateSessions b f keeps keepsUser keepsNode := by
  have tables : db.sessions.update a f keeps = db.sessions.update b f keeps := by
    apply Table.ext_rows
    exact List.map_congr_left fun s hs => by rw [h s hs]
  simp only [Database.updateSessions, tables]

/-- The rows that the sweep ends. -/
theorem finishes_of_sweepRows {s : Store} {todo : List Id} (here : t.next = .sweepRows todo)
    (rest : ∀ swept, (∀ i, i ∈ swept ↔ i ∈ t.swept ∨
        i ∈ todo ∧ (p.db.sessions.find? i).any (·.isStale cfg t.now)) →
      Finishes cfg p { t with swept := swept, next := .lockUser } s) :
    Finishes cfg p t s := by
  induction todo generalizing t with
  | nil =>
    have advanced : t.advance cfg [] p.db = some (p.db, some { t with next := .lockUser }) := by
      simp only [Transaction.advance, here]
    exact finishes_of_read (by rfl) advanced (rest t.swept (by simp))
  | cons i todo ih =>
    by_cases stale : (p.db.sessions.find? i).any (·.isStale cfg t.now)
    · have advanced : t.advance cfg [] p.db =
          some (p.db, some { t with swept := i :: t.swept, next := .sweepRows todo }) := by
        simp [Transaction.advance, here, stale]
      refine finishes_of_read (by rfl) advanced (ih (by rfl) fun swept hswept => rest swept ?_)
      intro j
      rw [hswept, List.mem_cons, List.mem_cons]
      grind
    · have advanced : t.advance cfg [] p.db =
          some (p.db, some { t with next := .sweepRows todo }) := by
        simp [Transaction.advance, here, stale]
      refine finishes_of_read (by rfl) advanced (ih (by rfl) fun swept hswept => rest swept ?_)
      intro j
      rw [hswept, List.mem_cons]
      grind

/-- From the checks on, the transaction commits what `decideRoute` decides on its view: the
sweep leaves users, nodes and keys alone. -/
theorem finishes_of_route (user : t.user = p.db.users.find? t.request.userId)
    (here : t.next = t.route (p.db.nodes.find? t.request.nodeId)
      (p.db.enabledKey t.request.userId t.request.nodeId)) :
    Finishes cfg p t
      ⟨{ p with db := t.commit p.db (decideRoute t.now t.request (t.view p.db)) }, []⟩ := by
  have users : (t.view p.db).users = p.db.users := rfl
  have nodes : (t.view p.db).nodes = p.db.nodes := rfl
  have keys : ∀ uid nid, (t.view p.db).enabledKey uid nid = p.db.enabledKey uid nid :=
    fun _ _ => rfl
  have refused : ∀ verdict, t.next = .write verdict ∅ →
      decideRoute t.now t.request (t.view p.db) = verdict → Finishes cfg p t
        ⟨{ p with db := t.commit p.db (decideRoute t.now t.request (t.view p.db)) }, []⟩ := by
    rintro _ next rfl
    exact finishes_of_write next
  cases hu : p.db.users.find? t.request.userId with
  | none =>
    exact refused .routeNotFound (here.trans (by simp [Transaction.route, user, hu]))
      (by simp [decideRoute, users, hu])
  | some u =>
    cases hn : p.db.nodes.find? t.request.nodeId with
    | none =>
      exact refused .routeNotFound (here.trans (by simp [Transaction.route, hn]))
        (by simp [decideRoute, nodes, hn])
    | some n =>
      cases hk : p.db.enabledKey t.request.userId t.request.nodeId with
      | none =>
        exact refused .routeNotFound (here.trans (by simp [Transaction.route, hk]))
          (by simp [decideRoute, keys, hk])
      | some k =>
        simp only [Transaction.route, user, hu, hn, hk] at here
        by_cases on : n.enabled
        · by_cases allowed : (userAllowed u t.now).1
          · set seen := (t.view p.db).openIps u.id with hseen
            have verdict : decideRoute t.now t.request (t.view p.db) = t.limit u n seen := by
              simp [decideRoute, users, nodes, keys, hu, hn, hk, on, allowed, Transaction.limit, hseen]
            have next : t.next = .readSessions u n := by simpa [on, allowed] using here
            have advanced : t.advance cfg [] p.db =
                some (p.db, some { t with next := .write (t.limit u n seen) seen }) := by
              simp only [Transaction.advance, next, hseen]
            rw [verdict]
            exact finishes_of_read (by rfl) advanced (finishes_of_write (by rfl))
          · refine refused (.notAllowed (userAllowed u t.now).2) (here.trans (by simp [on, allowed])) ?_
            simp [decideRoute, users, nodes, keys, hu, hn, hk, on, allowed]
        · refine refused .routeNotFound (here.trans (by simp [on])) ?_
          simp [decideRoute, users, nodes, keys, hu, hn, hk, on]

/-- What `authorize` commits, by the verdict. -/
theorem commit_eq_authorize (view : t.view db = finishStaleSessions cfg t.now db) :
    t.commit db (decideRoute t.now t.request (t.view db)) =
      (authorize cfg t.now t.newId t.request db).1 := by
  simp only [authorize, view]
  cases decideRoute t.now t.request (finishStaleSessions cfg t.now db) with
  | routeNotFound => rw [Transaction.commit, view]
  | notAllowed => rw [Transaction.commit, view]
  | ipLimit => rw [Transaction.commit, view]
  | admitted user node =>
    rw [Transaction.commit, view]
    cases admission t.newId t.now t.request (finishStaleSessions cfg t.now db) <;> rfl

/-- The rows that a sweep found, and still stale when it came to lock them. -/
theorem view_eq_sweep (swept : ∀ i, i ∈ t.swept ↔
      i ∈ (db.sessions.rows.filter (·.isStale cfg t.now)).map ConnectionSession.id ∧
        (db.sessions.find? i).any (·.isStale cfg t.now)) :
    t.view db = finishStaleSessions cfg t.now db := by
  refine updateSessions_congr fun s hs => ?_
  have found := Table.find?_of_mem hs
  rw [Bool.eq_iff_iff, decide_eq_true_eq, swept, found]
  simp only [Option.any_some, and_iff_right_iff_imp, List.mem_map, List.mem_filter]
  exact fun stale => ⟨s, ⟨hs, stale⟩, rfl⟩

/-- From its first statement on, the transaction commits what `authorize` does. -/
theorem finishes_of_begin (first : t.next = .sweep) (nobody : t.swept = []) :
    Finishes cfg p t ⟨{ p with db := (authorize cfg t.now t.newId t.request p.db).1 }, []⟩ := by
  set stale := (p.db.sessions.rows.filter (·.isStale cfg t.now)).map ConnectionSession.id
    with hstale
  have found : t.advance cfg [] p.db = some (p.db, some { t with next := .sweepRows stale }) := by
    simp only [Transaction.advance, first, hstale]
  refine finishes_of_read (by rfl) found (finishes_of_sweepRows (by rfl) fun swept hswept => ?_)
  set user := p.db.users.find? t.request.userId with huser
  set node := p.db.nodes.find? t.request.nodeId with hnode
  set key := p.db.enabledKey t.request.userId t.request.nodeId with hkey
  set held : Transaction := { t with swept := swept, user := user, next := .readKey node } with hheld
  have view : held.view p.db = finishStaleSessions cfg held.now p.db := by
    apply view_eq_sweep
    exact fun i => (hswept i).trans (by simp [nobody, hstale, hheld])
  have locked : Transaction.advance cfg [] p.db { t with swept := swept, next := .lockUser } =
      some (p.db, some { t with swept := swept, user := user, next := .readNode }) := by
    simp [Transaction.advance, huser]
  have read : Transaction.advance cfg [] p.db
      { t with swept := swept, user := user, next := .readNode } = some (p.db, some held) := by
    simp [Transaction.advance, hnode, hheld]
  have checked : held.advance cfg [] p.db =
      some (p.db, some { held with next := held.route node key }) := by
    simp [Transaction.advance, hheld, hkey]
  refine finishes_of_read (by rfl) locked (finishes_of_read (by rfl) read ?_)
  refine finishes_of_read (by rfl) checked ?_
  have decided : Finishes cfg p { held with next := held.route node key } _ :=
    finishes_of_route huser rfl
  rw [← commit_eq_authorize view]
  exact decided

/-- **Refinement**: an `authorize` of the control plane is a run of its statements. -/
theorem serial_authorize (step : (plane cfg).step p (.authorize newId q) = some p') :
    ∃ n, (store cfg).run ⟨p, []⟩ (.begins newId q :: List.replicate n (.advance newId)) =
      some ⟨p', []⟩ := by
  obtain ⟨fresh, rfl⟩ := plane_step.1 step
  have unused : newId ∉ p.issued := fresh newId (by simp [Event.draws])
  set p₁ : Plane := { p with issued := newId :: p.issued }
  obtain ⟨n, run⟩ : Finishes cfg p₁ { newId := newId, request := q, now := p.now }
      ⟨{ p₁ with db := (authorize cfg p.now newId q p.db).1 }, []⟩ := finishes_of_begin rfl rfl
  have begun : (store cfg).step ⟨p, []⟩ (.begins newId q) =
      some (lone p₁ { newId := newId, request := q, now := p.now }) := by
    simp [store, Store.step, unused, lone, p₁]
  refine ⟨n, Machine.run_cons.2 ⟨_, begun, ?_⟩⟩
  simpa [p₁, Event.commit, Event.elapsed, Event.draws] using run

/-- Any other request is one step of the store, as nothing in flight holds a row. -/
theorem whole_step {e : Event} (foreign : ∀ newId q, e ≠ .authorize newId q)
    (step : (plane cfg).step p e = some p') : (store cfg).step ⟨p, []⟩ (.other e) = some ⟨p', []⟩ := by
  cases e with
  | authorize newId q => exact absurd rfl (foreign newId q)
  | tick | start | heartbeat | close | admin =>
    simp [store, Store.step, Store.blocks, step]

end Arena.Model
