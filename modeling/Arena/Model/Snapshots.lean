import Arena.Model.Panel
import Arena.Model.Standing
import Arena.Model.Sync

/-!
# The newest snapshot is current

Every commit that can change the access keys, the nodes or end a denial is followed by its
own load, and the lock is first come first served. So when no request is between the two,
the newest call read the keys and nodes of today, and allowed every user allowed today.
-/

namespace Arena.Model

open Arena.Lib

variable {cfg : Settings} {p p' : Plane} {e : Event} {s s' : Panel} {snap : Snapshot}

/-- What the snapshot shows is still so, or errs on the side of allowing. -/
structure Snapshot.Current (snap : Snapshot) (p : Plane) : Prop where
  keys : p.db.accessKeys = snap.db.accessKeys
  nodes : p.db.nodes = snap.db.nodes
  allows : ∀ uid, p.db.allows uid p.now → snap.db.allows uid snap.now

theorem current_now : Snapshot.Current ⟨p.db, p.now⟩ p := ⟨rfl, rfl, fun _ h => h⟩

/-- The events after which nothing is loaded. -/
def Event.Background (cfg : Settings) (db : Database) : Event → Prop
  | .start vlessId vmessId => ∃ err, seedDatabase cfg vlessId vmessId db = .error err
  | .admin name op => (∃ err, op.commit name db = .error err) ∨ op.reconciles = false
  | _ => True

/-- Gateway requests touch neither keys nor nodes. -/
theorem gateway_frame (cfg : Settings) (now : Instant) (db : Database) :
    (∀ newId q, (authorize cfg now newId q db).1.accessKeys = db.accessKeys ∧
      (authorize cfg now newId q db).1.nodes = db.nodes) ∧
    (∀ q, (heartbeat now q db).1.accessKeys = db.accessKeys ∧
      (heartbeat now q db).1.nodes = db.nodes) ∧
    ∀ q, (close now q db).accessKeys = db.accessKeys ∧ (close now q db).nodes = db.nodes := by
  refine ⟨fun newId q => ?_, fun q => ?_, fun q => ?_⟩
  · rcases authorize_cases (Prod.mk.eta (p := authorize cfg now newId q db)).symm with
      ⟨event, -, h, -⟩ | ⟨h, -⟩ | ⟨user, node, -, h, -⟩
    · rw [h]; exact ⟨rfl, rfl⟩
    · rw [h]; exact ⟨rfl, rfl⟩
    · obtain ⟨-, -, nodes, keys⟩ := admission_eq_some h
      exact ⟨keys, nodes⟩
  · rcases heartbeat_cases (Prod.mk.eta (p := heartbeat now q db)).symm with
      ⟨-, same, -⟩ | ⟨session, user, verdict, -, -, charges, -⟩
    · rw [same]; exact ⟨rfl, rfl⟩
    · exact ⟨charges.accessKeys, charges.nodes⟩
  · rcases close_cases now q db with ⟨-, same⟩ | ⟨session, user, -, charges⟩
    · rw [same]; exact ⟨rfl, rfl⟩
    · exact ⟨charges.accessKeys, charges.nodes⟩

/-- A background event keeps keys and nodes, and ends no denial. -/
theorem background_step (step : (plane cfg).step p e = some p') (quiet : e.Background cfg p.db) :
    p'.db.accessKeys = p.db.accessKeys ∧ p'.db.nodes = p.db.nodes ∧
      ∀ uid, p'.db.allows uid p'.now → p.db.allows uid p.now := by
  obtain ⟨-, rfl⟩ := plane_step.1 step
  obtain ⟨authorizes, beats, closes⟩ := gateway_frame cfg p.now p.db
  cases e with
  | tick n => exact ⟨rfl, rfl, fun uid => denial_step step id⟩
  | start vlessId vmessId =>
    obtain ⟨err, h⟩ := quiet
    have same : (Event.start vlessId vmessId).commit cfg p.now p.db = p.db := by
      simp [Event.commit, h, Except.toOption]
    rw [same]
    exact ⟨rfl, rfl, fun uid => allows_earlier (by simp [Event.elapsed])⟩
  | authorize newId q =>
    exact ⟨(authorizes newId q).1, (authorizes newId q).2, fun uid => denial_step step id⟩
  | heartbeat q => exact ⟨(beats q).1, (beats q).2, fun uid => denial_step step id⟩
  | close q => exact ⟨(closes q).1, (closes q).2, fun uid => denial_step step id⟩
  | admin name op =>
    cases h : op.commit name p.db with
    | error err =>
      have same : (Event.admin name op).commit cfg p.now p.db = p.db := by
        simp [Event.commit, h, Except.toOption]
      rw [same]
      exact ⟨rfl, rfl, fun uid => allows_earlier (by simp [Event.elapsed])⟩
    | ok db' =>
      have silent : op.reconciles = false := by simpa [Event.Background, h] using quiet
      have made : (Event.admin name op).commit cfg p.now p.db = db' := by
        simp [Event.commit, h, Except.toOption]
      cases commit_inv h with
      | rotateSubscription userId users nodes sessions keys =>
        exact ⟨(congrArg _ made).trans keys, (congrArg _ made).trans nodes,
          fun uid => denial_step step id⟩
      | _ => simp [AdminOp.reconciles] at silent

theorem Snapshot.Current.step (current : snap.Current p) (step : (plane cfg).step p e = some p')
    (quiet : e.Background cfg p.db) : snap.Current p' := by
  obtain ⟨keys, nodes, allows⟩ := background_step step quiet
  exact ⟨keys.trans current.keys, nodes.trans current.nodes,
    fun uid h => current.allows uid (allows uid h)⟩

/-! ## The inversion of a step -/

/-- **Everything a step of the panel does.** -/
inductive Panel.Stepped (cfg : Settings) (s : Panel) : Panel.Label → Panel → Prop
  | background (e : Event) (p : Plane) (moved : (Model.plane cfg).step s.plane e = some p)
      (quiet : e.Background cfg s.plane.db) : Stepped cfg s (.plane e) { s with plane := p }
  | booted (vlessId vmessId : Id) (p : Plane) : Stepped cfg s (.plane (.start vlessId vmessId))
      { s with plane := p, stage := .booting, runtime := .boot ⟨p.db, p.now⟩ }
  | committed (name : String) (op : AdminOp) (p : Plane) (loads : op.reconciles = true) :
      Stepped cfg s (.plane (.admin name op)) { s with plane := p, loading := s.loading + 1 }
  | loaded : Stepped cfg s .load { s with loading := s.loading - 1, runtime := s.runtime.call s.snapshot }
  | moved (x : XrayRuntime.Label) (r : XrayRuntime) (moved : s.runtime.step cfg x = some r) :
      Stepped cfg s (.runtime x) { s with runtime := r, stage := Stage.after s.stage r }
  | stopped : Stepped cfg s .stop { s with stage := .down, runtime := .new }

theorem Panel.step_inv {x : Panel.Label} (step : (panel cfg).step s x = some s') : Panel.Stepped cfg s x s' := by
  cases x with
  | plane e =>
    obtain ⟨p, moved, committed⟩ := Option.bind_eq_some_iff.1 step
    cases e with
    | tick n =>
      cases committed
      exact .background _ p moved trivial
    | start vlessId vmessId =>
      simp only [Panel.commit] at committed
      split_ifs at committed
      split at committed
      · rename_i err failed
        cases committed
        exact .background _ p moved ⟨err, failed⟩
      · cases committed
        exact .booted vlessId vmessId p
    | admin name op =>
      simp only [Panel.commit] at committed
      split at committed
      · split at committed
        · rename_i err failed
          cases committed
          exact .background _ p moved (.inl ⟨err, failed⟩)
        · cases committed
          cases loads : op.reconciles with
          | true => exact .committed name op p loads
          | false => exact .background _ p moved (.inr loads)
      · cases committed
    | authorize newId q | heartbeat q | close q =>
      simp only [Panel.commit] at committed
      split_ifs at committed
      cases committed
      exact .background _ p moved trivial
  | load =>
    simp only [panel, Panel.step] at step
    split_ifs at step
    cases step
    exact .loaded
  | runtime x =>
    obtain ⟨r, moved, rfl⟩ := Option.map_eq_some_iff.1 step
    exact .moved x r moved
  | stop =>
    simp only [panel, Panel.step] at step
    split_ifs at step
    cases step
    exact .stopped

/-! ## The panel's invariant -/

/-- The runtime is sound, and the newest call is current unless a request has committed and
not yet loaded. -/
structure Panel.Inv (cfg : Settings) (s : Panel) : Prop where
  sound : s.runtime.Sound cfg
  proxy : ∀ c ∈ s.runtime.clients, c.protocol.isProxy
  current : s.loading = 0 → ∀ snap, s.runtime.lock.newest = some snap → snap.Current s.plane

theorem inv_initial : (Panel.initial p).Inv cfg :=
  ⟨XrayRuntime.sound_new, by simp [Panel.initial, XrayRuntime.new],
    by simp [Panel.initial, XrayRuntime.new, FifoLock.free, FifoLock.newest, FifoLock.calls]⟩

/-- **The step lemma.** -/
theorem inv_step {x : Panel.Label} (inv : s.Inv cfg) (step : (panel cfg).step s x = some s') :
    s'.Inv cfg := by
  cases Panel.step_inv step with
  | background e p moved quiet =>
    exact ⟨inv.sound, inv.proxy,
      fun none_loads snap newest => (inv.current none_loads snap newest).step moved quiet⟩
  | booted vlessId vmessId p =>
    refine ⟨XrayRuntime.sound_boot, by simp [XrayRuntime.boot], fun _ snap newest => ?_⟩
    obtain rfl : ⟨p.db, p.now⟩ = snap := by
      simpa [XrayRuntime.boot, FifoLock.newest, FifoLock.calls] using newest
    exact current_now
  | committed name op p loads =>
    exact ⟨inv.sound, inv.proxy, fun none_loads => absurd none_loads (Nat.succ_ne_zero _)⟩
  | loaded =>
    refine ⟨inv.sound.call, inv.proxy, fun _ snap newest => ?_⟩
    obtain rfl : s.snapshot = snap := by
      simpa [XrayRuntime.call] using newest
    exact current_now
  | moved x r stepped =>
    refine ⟨inv.sound.step stepped, XrayRuntime.clients_step stepped inv.proxy,
      fun none_loads snap newest => ?_⟩
    have same := XrayRuntime.newest_step stepped
    exact inv.current none_loads snap (same ▸ newest)
  | stopped =>
    refine ⟨XrayRuntime.sound_new, by simp [XrayRuntime.new], fun _ snap newest => ?_⟩
    simp [XrayRuntime.new, FifoLock.free, FifoLock.newest, FifoLock.calls] at newest

/-- As long as no Xray exits on its own, none has exited. -/
theorem exited_step {x : Panel.Label} (up : s.runtime.process ≠ .exited) (other : x ≠ .runtime .exited)
    (step : (panel cfg).step s x = some s') : s'.runtime.process ≠ .exited := by
  cases Panel.step_inv step with
  | background => exact up
  | booted => simp [XrayRuntime.boot]
  | committed => exact up
  | loaded => exact up
  | moved x r stepped => exact XrayRuntime.exited_step stepped (fun same => other (same ▸ rfl)) up
  | stopped => simp [XrayRuntime.new]

/-- **The run lemma.** -/
theorem inv_run {es : List Panel.Label} (run : (panel cfg).run (.initial p) es = some s) :
    s.Inv cfg :=
  Machine.run_invariant inv_step inv_initial ⟨es, run⟩

theorem exited_run {es : List Panel.Label} (run : (panel cfg).run (.initial p) es = some s)
    (other : .runtime .exited ∉ es) : s.runtime.process ≠ .exited := by
  have none_exits : ∀ x ∈ es, x ≠ Panel.Label.runtime .exited := by
    rintro x hx rfl
    exact other hx
  have along : (panel cfg).Along (fun _ x => x ≠ .runtime .exited) (.initial p) es :=
    Machine.along_of_mem none_exits _
  have fresh : (Panel.initial p).runtime.process ≠ .exited := by
    simp [Panel.initial, XrayRuntime.new]
  exact Machine.along_invariant (I := fun s => s.runtime.process ≠ .exited) exited_step fresh along run

/-! ## After the latest call returned -/

/-- When nothing is in progress and the latest call returned, its snapshot is current and
Xray, if it runs, has the users that the snapshot asks for. -/
theorem Panel.Inv.returned (inv : s.Inv cfg) (quiet : s.Quiet)
    (latest : s.runtime.lock.latest = some (snap, .returned)) :
    snap.Current s.plane ∧ s.runtime.process.Serves cfg snap.desired := by
  obtain ⟨loaded, idle⟩ := quiet
  have newest : s.runtime.lock.newest = some snap := by
    rw [FifoLock.newest_of_idle idle, latest]
    rfl
  have clients := (inv.sound.returned idle.1 snap latest).2
  exact ⟨inv.current loaded snap newest, clients ▸ inv.sound.idle idle.1⟩

/-- It does run, unless it exited on its own. -/
theorem isRunning_of_returned {es : List Panel.Label}
    (run : (panel cfg).run (.initial p) es = some s) (quiet : s.Quiet)
    (latest : s.runtime.lock.latest = some (snap, .returned)) (stays : .runtime .exited ∉ es) :
    s.runtime.process.isRunning := by
  have started := ((inv_run run).sound.returned quiet.2.1 snap latest).1
  have up := exited_run run stays
  cases hp : s.runtime.process with
  | none => exact absurd hp started
  | exited => exact absurd hp up
  | running users => rfl

end Arena.Model
