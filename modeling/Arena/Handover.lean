import Arena.Lib.Simulation
import Arena.Supervision
import Arena.Model.Workspace

/-!
# What Xray is handed

The texts on the disk and the arguments of the commands mean to Xray what the supervisor meant: the
workspace refines the supervisor, from any disk, whatever a failed write left there, and does every run
of it. Credentials must not look like flags, as identifiers never do.
-/

namespace Arena.Handover

open Arena.Lib Arena.Model Supervisor Workspace

variable {xray : Xray} {cfg : Settings} {dir : String} {s s' : Supervisor} {w w' : Workspace}
  {x : Supervisor.Label} {c : Call} {a : Await} {snap : Snapshot}

/-! ## Credentials -/

/-- The commands that the holder of the lock still has to run. -/
def commands : Await → List Command
  | .syncing todo => todo
  | .job (.command cmd todo) | .jobKilled (.command cmd todo) => cmd :: todo
  | _ => []

variable {Known : Call → Prop}

/-- The calls of the lock are known, and no credential that a command names looks like a flag. -/
structure Tidy (Known : Call → Prop) (s : Supervisor) : Prop where
  clients : ∀ c ∈ s.clients, c.Plain
  waiting : ∀ c ∈ s.lock.waiting, Known c
  held : ∀ c a, s.lock.holder = some (c, a) → Known c ∧ ∀ cmd ∈ commands a, cmd.Proper

/-- The calls that a step brings are known. -/
def KnownLabel (Known : Call → Prop) : Supervisor.Label → Prop
  | .called c => Known c
  | _ => True

theorem Tidy.of_move {a' : Await} {servers : List Server} {process : Option ℕ} {clients : List XrayClient}
    (tidy : Tidy Known s) (held : s.lock.holder = some (c, a)) (fewer : ∀ cmd ∈ commands a', cmd ∈ commands a)
    (same : ∀ c ∈ clients, c ∈ s.clients) : Tidy Known ⟨s.lock.move a', servers, process, clients⟩ := by
  refine ⟨fun c mem => tidy.clients c (same c mem), tidy.waiting, fun c' w' held' => ?_⟩
  cases (FifoLock.holder_move held).symm.trans held'
  obtain ⟨known, proper⟩ := tidy.held c a held
  exact ⟨known, fun cmd mem => proper cmd (fewer cmd mem)⟩

theorem waiting_release {o : Outcome} : (s.lock.release o).waiting = s.lock.waiting := by
  cases held : s.lock.holder <;> simp [FifoLock.release, held]

theorem Tidy.of_release {o : Outcome} {servers : List Server} {process : Option ℕ} {clients : List XrayClient}
    (tidy : Tidy Known s) (plain : ∀ c ∈ clients, c.Plain) :
    Tidy Known ⟨s.lock.release o, servers, process, clients⟩ := by
  refine ⟨plain, fun c mem => tidy.waiting c (waiting_release ▸ mem), fun c' w' held' => ?_⟩
  cases FifoLock.holder_release.symm.trans held'

theorem tidy_finishStop {next : AfterStop} (tidy : Tidy Known s) (held : s.lock.holder = some (c, a)) :
    Tidy Known (s.finishStop next) := by
  cases next with
  | restart => exact tidy.of_move held nofun nofun
  | reraise | done => exact tidy.of_release nofun

theorem tidy_stopLocked {next : AfterStop} (tidy : Tidy Known s) (held : s.lock.holder = some (c, a)) :
    Tidy Known (s.stopLocked next) := by
  have stopping := @stopLocked_cases s next
  generalize s.stopLocked next = t at stopping
  cases stopping with
  | signalled i own alive => exact tidy.of_move held nofun fun _ mem => mem
  | nothing down =>
    have tidy' : Tidy Known { s with process := none } := ⟨tidy.clients, tidy.waiting, tidy.held⟩
    exact tidy_finishStop tidy' held

theorem Tidy.acquire {rest : List Call} (tidy : Tidy Known s) (waits : s.lock.waiting = c :: rest)
    (proper : ∀ cmd ∈ commands a, cmd.Proper) : Tidy Known { s with lock := s.lock.acquire a } := by
  have all : ∀ c' ∈ c :: rest, Known c' := waits ▸ tidy.waiting
  have later : (s.lock.acquire a).waiting = rest := by simp [FifoLock.acquire, waits]
  refine ⟨tidy.clients, fun c' mem => ?_, fun c' a' held' => ?_⟩
  · exact all c' (List.mem_cons_of_mem c (later ▸ mem))
  · cases (FifoLock.holder_acquire waits).symm.trans held'
    exact ⟨all c List.mem_cons_self, proper⟩

theorem tidy_enter {rest : List Call} (tidy : Tidy Known s) (waits : s.lock.waiting = c :: rest) :
    Tidy Known (s.enter c) := by
  have writing : Tidy Known { s with lock := s.lock.acquire .writing } := tidy.acquire waits nofun
  cases c with
  | stop => exact tidy_stopLocked writing (FifoLock.holder_acquire waits)
  | sync snap =>
    rw [enter]
    split
    · exact tidy.acquire waits (syncCommands_proper tidy.clients)
    · exact tidy_stopLocked writing (FifoLock.holder_acquire waits)

/-- **The step lemma** of `Tidy`. -/
theorem tidy_step (plain : ∀ snap, Known (.sync snap) → snap.Plain) (tidy : Tidy Known s)
    (known : KnownLabel Known x) (h : s.step cfg x = some s') : Tidy Known s' := by
  cases step_inv h with
  | called c =>
    refine ⟨tidy.clients, fun c' mem => ?_, tidy.held⟩
    rcases List.mem_append.1 mem with old | new
    · exact tidy.waiting c' old
    · obtain rfl := List.mem_singleton.1 new
      exact known
  | entered c rest free waits => exact tidy_enter tidy waits
  | command c cmd todo held => exact tidy.of_move held (fun _ mem => mem) fun _ mem => mem
  | test c held => exact tidy.of_move held nofun fun _ mem => mem
  | noCommand c cmd todo held => exact tidy_stopLocked tidy held
  | noTest c held => exact tidy.of_release tidy.clients
  | passed c held => exact tidy.of_move held nofun fun _ mem => mem
  | refused c held => exact tidy.of_release tidy.clients
  | done c cmd todo held => exact tidy.of_move held (fun _ mem => List.mem_cons_of_mem _ mem) fun _ mem => mem
  | failed c part cmd todo held isPart =>
    exact tidy_stopLocked (s := s.apply part) ⟨tidy.clients, tidy.waiting, tidy.held⟩ held
  | timedOut c job held =>
    refine tidy.of_move held (fun cmd mem => ?_) fun _ mem => mem
    cases job <;> exact mem
  | testKilled c held => exact tidy.of_release tidy.clients
  | commandKilled c part cmd todo held isPart =>
    exact tidy_stopLocked (s := s.apply part) ⟨tidy.clients, tidy.waiting, tidy.held⟩ held
  | synced snap held => exact tidy.of_release (desired_plain (plain _ (tidy.held _ _ held).1))
  | launched snap held => exact tidy.of_move held nofun fun _ mem => mem
  | launchFailed c held => exact tidy.of_release tidy.clients
  | ready snap held => exact tidy.of_release (desired_plain (plain _ (tidy.held _ _ held).1))
  | unready c held => exact tidy_stopLocked tidy held
  | kill c i next held alive => exact tidy.of_move held nofun fun _ mem => mem
  | stopped c w i next held target gone => exact tidy_finishStop tidy held
  | exits i alive => exact ⟨tidy.clients, tidy.waiting, tidy.held⟩

/-! ## Files -/

theorem holder_move_inv {a' : Await} (held : (s.lock.move a').holder = some (c, a)) :
    a' = a ∧ ∃ a₀, s.lock.holder = some (c, a₀) := by
  obtain ⟨⟨c', a₀⟩, before, same⟩ := Option.map_eq_some_iff.1 held
  cases same
  exact ⟨rfl, a₀, before⟩

/-- No process reads a file: it is written first, or the process is stopped. -/
def Await.Calm (a : Await) : Prop := a.writes = true ∨ ∀ cfg dir c, a.file cfg dir c = none

theorem calm_finishStop {next : AfterStop} (held : (s.finishStop next).lock.holder = some (c, a)) :
    Await.Calm a := by
  cases next with
  | restart =>
    obtain ⟨rfl, -⟩ := holder_move_inv held
    exact .inl rfl
  | reraise | done => cases FifoLock.holder_release.symm.trans held

theorem calm_stopLocked {next : AfterStop} (held : (s.stopLocked next).lock.holder = some (c, a)) :
    Await.Calm a := by
  have stopping := @stopLocked_cases s next
  generalize s.stopLocked next = t at stopping held
  cases stopping with
  | signalled i own alive =>
    obtain ⟨rfl, -⟩ := holder_move_inv held
    exact .inr fun _ _ _ => rfl
  | nothing down => exact calm_finishStop held

theorem calm_enter {c' : Call} {rest : List Call} (waits : s.lock.waiting = c' :: rest)
    (held : (s.enter c').lock.holder = some (c, a)) : Await.Calm a := by
  cases c' with
  | stop => exact calm_stopLocked held
  | sync snap =>
    rw [enter] at held
    split at held
    · cases (FifoLock.holder_acquire waits).symm.trans held
      exact .inl rfl
    · exact calm_stopLocked held

/-- The file that a process reads was that of the same call one step before, or is written by now. -/
theorem keeps_file (h : s.step cfg x = some s') (held : s'.lock.holder = some (c, a)) (reads : a.writes = false)
    {f : String × List Char} (file : f ∈ a.file cfg dir c) :
    ∃ a₀, s.lock.holder = some (c, a₀) ∧ f ∈ a₀.file cfg dir c ∧ (a₀.writes = true → x = .created) := by
  have uncalm : ¬ Await.Calm a := by
    rintro (writes | none)
    · rw [writes] at reads
      cases reads
    · rw [none] at file
      cases file
  have released : ∀ {l : FifoLock Call Await Outcome} {o}, (l.release o).holder ≠ some (c, a) := by
    intro l o held
    cases FifoLock.holder_release.symm.trans held
  cases step_inv h with
  | called c' => exact ⟨a, held, file, fun writes => by rw [writes] at reads; cases reads⟩
  | entered c' rest free waits => exact absurd (calm_enter waits held) uncalm
  | command c' cmd todo before =>
    obtain ⟨rfl, a₀, there⟩ := holder_move_inv held
    cases before.symm.trans there
    exact ⟨_, before, file, fun _ => rfl⟩
  | test c' before =>
    obtain ⟨rfl, a₀, there⟩ := holder_move_inv held
    cases before.symm.trans there
    exact ⟨_, before, file, fun _ => rfl⟩
  | noCommand c' cmd todo before => exact absurd (calm_stopLocked held) uncalm
  | noTest c' before => exact absurd held released
  | passed c' before =>
    obtain ⟨rfl, a₀, there⟩ := holder_move_inv held
    cases before.symm.trans there
    exact ⟨_, before, file, nofun⟩
  | refused c' before => exact absurd held released
  | done c' cmd todo before =>
    obtain ⟨rfl, -⟩ := holder_move_inv held
    exact absurd (.inl rfl) uncalm
  | failed c' part cmd todo before isPart => exact absurd (calm_stopLocked held) uncalm
  | timedOut c' job before =>
    obtain ⟨rfl, a₀, there⟩ := holder_move_inv held
    cases before.symm.trans there
    refine ⟨_, before, ?_, nofun⟩
    cases job <;> exact file
  | testKilled c' before => exact absurd held released
  | commandKilled c' part cmd todo before isPart => exact absurd (calm_stopLocked held) uncalm
  | synced snap before => exact absurd held released
  | launched snap before =>
    obtain ⟨rfl, -⟩ := holder_move_inv held
    cases file
  | launchFailed c' before => exact absurd held released
  | ready snap before => exact absurd held released
  | unready c' before => exact absurd (calm_stopLocked held) uncalm
  | kill c' i next before alive =>
    obtain ⟨rfl, -⟩ := holder_move_inv held
    cases file
  | stopped c' w i next before target gone => exact absurd (calm_finishStop held) uncalm
  | exits i alive => exact ⟨a, held, file, fun writes => by rw [writes] at reads; cases reads⟩

/-- **What is on the disk** is what the control plane means the next process to read. -/
structure Handed (Known : Call → Prop) (cfg : Settings) (dir : String) (w : Workspace) : Prop where
  tidy : Tidy Known w.supervisor
  complete : w.writing = .complete → ∀ f ∈ w.pending cfg dir, w.disk (tempPath f.1) = some f.2
  renamed : w.writing = .renamed → ∀ f ∈ w.pending cfg dir, w.disk f.1 = some f.2
  ready : ∀ c a, w.supervisor.lock.holder = some (c, a) → a.writes = false →
    ∀ f ∈ a.file cfg dir c, w.disk f.1 = some f.2

/-- What the rest assumes: the binary, the directory and the calls. -/
structure Assumed (xray : Xray) (dir : String) (Known : Call → Prop) : Prop where
  documented : xray.Documented
  plainDir : PlainArgument dir
  plain : ∀ snap, Known (.sync snap) → snap.Plain

theorem Handed.read (assumed : Assumed xray dir Known) (handed : Handed Known cfg dir w) {cmd : Command}
    {todo : List Command} (held : w.supervisor.lock.holder = some (c, .job (.command cmd todo)) ∨
      w.supervisor.lock.holder = some (c, .jobKilled (.command cmd todo))) :
    w.read xray cfg dir cmd = some [cmd] := by
  have proper : cmd.Proper := by
    rcases held with held | held <;> exact (handed.tidy.held _ _ held).2 cmd List.mem_cons_self
  have written : ∀ f ∈ cmd.patch cfg dir, w.disk f.1 = some f.2 := by
    rcases held with held | held <;> exact handed.ready _ _ held rfl
  exact assumed.documented.commands _ _ _ (readCommands_args proper assumed.plainDir written)

theorem Handed.child (assumed : Assumed xray dir Known) (handed : Handed Known cfg dir w)
    (held : w.supervisor.lock.holder = some (.sync snap, .launching)) :
    w.child xray dir = ⟨configured cfg snap.desired, .running⟩ := by
  have file := handed.ready _ _ held rfl _ rfl
  rw [Workspace.child, file, Option.bind_some, assumed.documented.inbounds _ _ readInbounds_config]
  exact congrArg (fun users => (⟨users, .running⟩ : Server)) served_config

theorem Handed.failed (assumed : Assumed xray dir Known) (handed : Handed Known cfg dir w) {part cmd : Command}
    {todo : List Command} (held : w.supervisor.lock.holder = some (c, .job (.command cmd todo)) ∨
      w.supervisor.lock.holder = some (c, .jobKilled (.command cmd todo))) :
    w.failed xray cfg dir part cmd =
      if part.isPartOf cmd then some ((w.supervisor.apply part).stopLocked .restart) else none := by
  rw [Workspace.failed, handed.read assumed held]
  simp

/-- **The files change nothing** but when the process of a file is created. -/
theorem supervise_of_ne (assumed : Assumed xray dir Known) (handed : Handed Known cfg dir w)
    (ne : x ≠ .created) :
    w.supervise xray cfg dir x = w.supervisor.step cfg x := by
  unfold supervise
  split
  · exact absurd rfl ne
  · rename_i snap held
    simp only [Supervisor.step, held, handed.child assumed held]
  · rename_i cmd todo held
    simp only [Supervisor.step, held, handed.read assumed (.inl held), Option.map_some,
      List.foldl_cons, List.foldl_nil]
  · rename_i part c cmd todo held
    simp only [Supervisor.step, held, handed.failed assumed (.inl held)]
  · rename_i part c cmd todo held
    simp only [Supervisor.step, held, handed.failed assumed (.inr held)]
  · rfl

theorem supervise_created : w.supervise xray cfg dir .created =
    if (w.pending cfg dir).isSome ∧ w.writing ≠ .renamed then none else w.supervisor.step cfg .created := by
  unfold supervise
  cases pending : w.pending cfg dir with
  | none => simp
  | some f => cases writing : w.writing <;> simp

theorem supervise_inv (assumed : Assumed xray dir Known) (handed : Handed Known cfg dir w)
    (h : w.supervise xray cfg dir x = some s) :
    w.supervisor.step cfg x = some s ∧ (x = .created → ∀ f ∈ w.pending cfg dir, w.writing = .renamed) := by
  by_cases created : x = .created
  · subst created
    rw [supervise_created] at h
    split at h
    · cases h
    · rename_i unblocked
      refine ⟨h, fun _ f pending => ?_⟩
      by_contra other
      exact unblocked ⟨by rw [pending]; rfl, other⟩
  · rw [supervise_of_ne assumed handed created] at h
    exact ⟨h, fun same => absurd same created⟩

/-- The file of the holder at a point where it is written. -/
theorem pending_eq (held : w.supervisor.lock.holder = some (c, a)) (writes : a.writes = true) :
    w.pending cfg dir = a.file cfg dir c := by
  simp only [pending, held, writes, if_true]

theorem holder_of_pending {f : String × List Char} (pending : w.pending cfg dir = some f) :
    ∃ c a, w.supervisor.lock.holder = some (c, a) ∧ a.writes = true := by
  unfold Workspace.pending at pending
  split at pending
  · rename_i c a held
    split at pending
    · exact ⟨c, a, held, ‹_›⟩
    · cases pending
  · cases pending

/-- A step on a file: the holder is where it was. -/
theorem Handed.write {disk : String → Option (List Char)} {writing : Writing} {f : String × List Char}
    (handed : Handed Known cfg dir w) (pending : w.pending cfg dir = some f)
    (complete : writing = .complete → disk (tempPath f.1) = some f.2)
    (renamed : writing = .renamed → disk f.1 = some f.2) :
    Handed Known cfg dir ⟨w.supervisor, disk, writing⟩ := by
  obtain ⟨c, a, held, writes⟩ := holder_of_pending pending
  refine ⟨handed.tidy, fun here f' pending' => ?_, fun here f' pending' => ?_, fun c' a' held' reads => ?_⟩
  · cases pending.symm.trans pending'
    exact complete here
  · cases pending.symm.trans pending'
    exact renamed here
  · cases held.symm.trans held'
    rw [writes] at reads
    cases reads

theorem Handed.supervised (assumed : Assumed xray dir Known) (handed : Handed Known cfg dir w)
    (known : KnownLabel Known x) (h : w.supervise xray cfg dir x = some s) {writing : Writing}
    (stays : writing = .idle ∨ writing = w.writing ∧ s.lock.holder = w.supervisor.lock.holder) :
    Handed Known cfg dir ⟨s, w.disk, writing⟩ := by
  obtain ⟨step, created⟩ := supervise_inv assumed handed h
  have same : ∀ {state}, writing = state → state ≠ .idle →
      w.writing = state ∧ Workspace.pending cfg dir ⟨s, w.disk, writing⟩ = w.pending cfg dir := by
    intro state here busy
    rcases stays with idle | ⟨there, holder⟩
    · exact absurd (here.symm.trans idle) busy
    · refine ⟨there.symm.trans here, ?_⟩
      simp only [pending, holder]
  refine ⟨tidy_step assumed.plain handed.tidy known step, fun here f pending => ?_, fun here f pending => ?_,
    fun c a held reads f file => ?_⟩
  · obtain ⟨there, old⟩ := same here nofun
    exact handed.complete there f (old ▸ pending)
  · obtain ⟨there, old⟩ := same here nofun
    exact handed.renamed there f (old ▸ pending)
  · obtain ⟨a₀, before, file₀, writes⟩ := keeps_file step held reads file
    by_cases early : a₀.writes = true
    · -- the process of the file was created just now
      have pending : w.pending cfg dir = some f := (pending_eq before early).trans file₀
      exact handed.renamed (created (writes early) f pending) f pending
    · exact handed.ready c a₀ before (by simpa using early) f file₀

theorem tempPath_ne (path : String) : path ≠ tempPath path := by
  intro same
  have longer := congrArg (fun s : String => s.toList.length) same
  have suffix : ".tmp".toList.length = 4 := by decide +kernel
  simp only [tempPath, String.toList_append, List.length_append, suffix] at longer
  omega

/-- The steps of the workspace that do not concern its files. -/
def supervised : Workspace.Label → List Supervisor.Label
  | .supervised x => [x]
  | _ => []

/-- **The step lemma**: the supervisor does the same or nothing. -/
theorem handed_step {e : Workspace.Label} (assumed : Assumed xray dir Known) (handed : Handed Known cfg dir w)
    (known : ∀ x ∈ supervised e, KnownLabel Known x) (h : (workspace xray cfg dir).step w e = some w') :
    (supervisor cfg).run w.supervisor (supervised e) = some w'.supervisor ∧ Handed Known cfg dir w' := by
  cases e with
  | wrote n =>
    simp only [workspace, Workspace.step] at h
    split at h <;> cases h
    · exact ⟨rfl, handed.write ‹_› nofun nofun⟩
    · exact ⟨rfl, handed.write ‹_› nofun nofun⟩
  | wroteAll =>
    simp only [workspace, Workspace.step] at h
    split at h <;> cases h
    · exact ⟨rfl, handed.write ‹_› (fun _ => Function.update_self ..) nofun⟩
    · exact ⟨rfl, handed.write ‹_› (fun _ => Function.update_self ..) nofun⟩
  | renamed =>
    simp only [workspace, Workspace.step] at h
    split at h <;> cases h
    rename_i path text pending complete
    refine ⟨rfl, handed.write pending nofun fun _ => ?_⟩
    rw [Function.update_of_ne (tempPath_ne path), Function.update_self]
    exact handed.complete complete _ pending
  | supervised x =>
    obtain ⟨s, step, rfl⟩ := Option.map_eq_some_iff.1 h
    have ran := (supervise_inv assumed handed step).1
    have here : KnownLabel Known x := known x List.mem_cons_self
    split
    · refine ⟨Machine.run_cons.2 ⟨s, ran, rfl⟩, handed.supervised assumed here step (.inr ⟨rfl, ?_⟩)⟩
      cases ran
      rfl
    · refine ⟨Machine.run_cons.2 ⟨s, ran, rfl⟩, handed.supervised assumed here step (.inr ⟨rfl, ?_⟩)⟩
      cases step_inv ran
      rfl
    · exact ⟨Machine.run_cons.2 ⟨s, ran, rfl⟩, handed.supervised assumed here step (.inl rfl)⟩

/-! ## Whole files -/

theorem temp_filePath {name : String} : tempPath (filePath dir name) = filePath dir (name ++ ".tmp") := by
  simp only [tempPath, filePath, String.append_assoc]

theorem filePath_inj {name name' : String} (same : filePath dir name = filePath dir name') : name = name' := by
  have texts := congrArg String.toList same
  simp only [filePath, String.toList_append] at texts
  exact String.toList_inj.1 (List.append_cancel_left texts)

/-- What is written is the configuration, or a file of another name. -/
theorem pending_cases {f : String × List Char} (pending : w.pending cfg dir = some f) :
    (∃ snap, w.supervisor.lock.holder = some (.sync snap, .writing) ∧
        f = (configPath dir, fileText (buildConfig cfg snap.desired))) ∨
      ∃ name, f.1 = filePath dir name ∧ name ≠ "config.json" ∧ name ++ ".tmp" ≠ "config.json" := by
  obtain ⟨c, a, held, writes⟩ := holder_of_pending pending
  rw [pending_eq held writes] at pending
  cases a with
  | writing =>
    cases c with
    | stop => cases pending
    | sync snap => exact .inl ⟨snap, held, (Option.some.inj pending).symm⟩
  | syncing todo =>
    cases todo with
    | nil => cases pending
    | cons cmd todo =>
      cases cmd with
      | rmu tag emails => cases pending
      | adu tag users =>
        obtain ⟨protocol, found, rfl⟩ := Option.map_eq_some_iff.1 pending
        refine .inr ⟨_, rfl, ?_⟩
        cases protocol <;> decide +kernel
  | _ => cases writes

theorem config_ne_temp {f : String × List Char} (pending : w.pending cfg dir = some f) :
    configPath dir ≠ tempPath f.1 := by
  rcases pending_cases pending with ⟨snap, -, rfl⟩ | ⟨name, path, -, other⟩
  · exact tempPath_ne _
  · rw [path, temp_filePath]
    exact fun same => other (filePath_inj same).symm

/-- The configuration on the disk is the old one or a whole one. -/
def Whole (Known : Call → Prop) (cfg : Settings) (old file : Option (List Char)) : Prop :=
  file = old ∨ ∃ snap, Known (.sync snap) ∧ file = some (fileText (buildConfig cfg snap.desired))

theorem whole_step {e : Workspace.Label} {old : Option (List Char)} (handed : Handed Known cfg dir w)
    (whole : Whole Known cfg old (w.disk (configPath dir))) (h : (workspace xray cfg dir).step w e = some w') :
    Whole Known cfg old (w'.disk (configPath dir)) := by
  have kept : ∀ {file}, file = w.disk (configPath dir) → Whole Known cfg old file := fun same => same ▸ whole
  cases e with
  | wrote n =>
    simp only [workspace, Workspace.step] at h
    split at h <;> cases h
    · exact kept (Function.update_of_ne (config_ne_temp ‹_›) ..)
    · exact kept (Function.update_of_ne (config_ne_temp ‹_›) ..)
  | wroteAll =>
    simp only [workspace, Workspace.step] at h
    split at h <;> cases h
    · exact kept (Function.update_of_ne (config_ne_temp ‹_›) ..)
    · exact kept (Function.update_of_ne (config_ne_temp ‹_›) ..)
  | renamed =>
    simp only [workspace, Workspace.step] at h
    split at h <;> cases h
    rename_i path text pending complete
    have temp := config_ne_temp pending
    rcases pending_cases pending with ⟨snap, held, same⟩ | ⟨name, here, other, -⟩
    · cases same
      refine .inr ⟨snap, (handed.tidy.held _ _ held).1, (Function.update_of_ne temp ..).trans ?_⟩
      exact (Function.update_self ..).trans (handed.complete complete _ pending)
    · refine kept ?_
      have apart : configPath dir ≠ path := fun same => other (filePath_inj (same.trans here)).symm
      exact (Function.update_of_ne temp ..).trans (Function.update_of_ne apart ..)
  | supervised x =>
    obtain ⟨s, step, rfl⟩ := Option.map_eq_some_iff.1 h
    split <;> exact kept rfl

/-! ## Runs -/

theorem handed_boot {disk : String → Option (List Char)} (known : Known (.sync snap)) :
    Handed Known cfg dir (.boot snap disk) := by
  refine ⟨⟨nofun, nofun, fun c a held => ?_⟩, nofun, nofun, fun c a held reads => ?_⟩
  · cases held
    exact ⟨known, nofun⟩
  · cases held
    cases reads

/-- **The run lemma**: the supervisor does the same. -/
theorem handed_run (assumed : Assumed xray dir Known) {disk : String → Option (List Char)}
    (first : Known (.sync snap)) {es : List Workspace.Label}
    (known : ∀ e ∈ es, ∀ x ∈ supervised e, KnownLabel Known x)
    (run : (workspace xray cfg dir).run (.boot snap disk) es = some w) :
    (supervisor cfg).run (.boot snap) (es.flatMap supervised) = some w.supervisor ∧ Handed Known cfg dir w ∧
      Whole Known cfg (disk (configPath dir)) (w.disk (configPath dir)) := by
  have step : ∀ {w : Workspace} {s : Supervisor} {e w'},
      (w.supervisor = s ∧ Handed Known cfg dir w ∧
        Whole Known cfg (disk (configPath dir)) (w.disk (configPath dir))) →
      (∀ x ∈ supervised e, KnownLabel Known x) → (workspace xray cfg dir).step w e = some w' →
      ∃ s', (supervisor cfg).run s (supervised e) = some s' ∧
        (w'.supervisor = s' ∧ Handed Known cfg dir w' ∧
          Whole Known cfg (disk (configPath dir)) (w'.disk (configPath dir))) := by
    rintro w s e w' ⟨rfl, handed, whole⟩ known h
    obtain ⟨ran, handed'⟩ := handed_step assumed handed known h
    exact ⟨_, ran, rfl, handed', whole_step handed whole h⟩
  obtain ⟨s, ran, rfl, handed, whole⟩ := Machine.simulation step
    ⟨rfl, handed_boot first, .inl rfl⟩ (Machine.along_of_mem known _) run
  rw [Machine.image_flatMap run] at ran
  exact ⟨ran, handed, whole⟩

/-- The steps of the workspace for one of the supervisor: before a process is created, its file is
written. -/
def lifted (cfg : Settings) (dir : String) (s : Supervisor) : Supervisor.Label → List Workspace.Label
  | .created =>
    if (Workspace.pending cfg dir ⟨s, fun _ => none, .idle⟩).isSome then [.wroteAll, .renamed, .supervised .created]
    else [.supervised .created]
  | x => [.supervised x]

theorem lifted_back (x : Supervisor.Label) : (lifted cfg dir s x).flatMap supervised = [x] := by
  unfold lifted
  split
  · split <;> rfl
  · rfl

/-- `_write_json` to its end. -/
theorem writeJson_run {f : String × List Char} (pending : w.pending cfg dir = some f) (idle : w.writing = .idle) :
    ∃ disk, (workspace xray cfg dir).run w [.wroteAll, .renamed] = some ⟨w.supervisor, disk, .renamed⟩ := by
  obtain ⟨path, text⟩ := f
  obtain ⟨disk, diskIs⟩ : ∃ disk, disk = Function.update w.disk (tempPath path) (some text) := ⟨_, rfl⟩
  have wrote : (workspace xray cfg dir).step w .wroteAll = some ⟨w.supervisor, disk, .complete⟩ := by
    simp only [workspace, Workspace.step, pending, idle, diskIs]
  have still : Workspace.pending cfg dir ⟨w.supervisor, disk, .complete⟩ = some (path, text) := pending
  have renamed : (workspace xray cfg dir).step ⟨w.supervisor, disk, .complete⟩ .renamed = some ⟨w.supervisor,
      Function.update (Function.update disk path (disk (tempPath path))) (tempPath path) none, .renamed⟩ := by
    simp only [workspace, Workspace.step, still]
  exact ⟨_, Machine.run_cons.2 ⟨_, wrote, Machine.run_cons.2 ⟨_, renamed, rfl⟩⟩⟩

/-- A step of the supervisor that no file holds up. -/
theorem supervised_step (h : w.supervise xray cfg dir x = some s) (idle : w.writing = .idle ∨ x = .created) :
    (workspace xray cfg dir).step w (.supervised x) = some ⟨s, w.disk, .idle⟩ := by
  simp only [workspace, Workspace.step, h, Option.map_some]
  split
  · rcases idle with idle | other
    · rw [← idle]
    · cases other
  · rcases idle with idle | other
    · rw [← idle]
    · cases other
  · rfl

/-- **The step lemma** of the other direction. -/
theorem lifted_step (assumed : Assumed xray dir Known) (handed : Handed Known cfg dir w)
    (idle : w.writing = .idle) (h : w.supervisor.step cfg x = some s) :
    ∃ disk, (workspace xray cfg dir).run w (lifted cfg dir w.supervisor x) = some ⟨s, disk, .idle⟩ := by
  by_cases created : x = .created
  · subst created
    have same : Workspace.pending cfg dir ⟨w.supervisor, fun _ => none, .idle⟩ = w.pending cfg dir := rfl
    simp only [lifted, same]
    cases pending : w.pending cfg dir with
    | none =>
      have unblocked : w.supervise xray cfg dir .created = some s := by
        rw [supervise_created, if_neg (by simp [pending])]
        exact h
      exact ⟨_, Machine.run_cons.2 ⟨_, supervised_step unblocked (.inl idle), rfl⟩⟩
    | some f =>
      obtain ⟨disk, written⟩ := writeJson_run pending idle
      have unblocked : Workspace.supervise xray cfg dir ⟨w.supervisor, disk, .renamed⟩ .created = some s := by
        rw [supervise_created, if_neg (by simp)]
        exact h
      refine ⟨disk, ?_⟩
      exact (Machine.run_append written).trans (Machine.run_cons.2 ⟨_, supervised_step unblocked (.inr rfl), rfl⟩)
  · have unblocked := (supervise_of_ne assumed handed created).trans h
    have alone : lifted cfg dir w.supervisor x = [.supervised x] := by
      unfold lifted
      split
      · exact absurd rfl created
      · rfl
    rw [alone]
    exact ⟨_, Machine.run_cons.2 ⟨_, supervised_step unblocked (.inl idle), rfl⟩⟩

/-- **The run lemma** of the other direction. -/
theorem lifted_run (assumed : Assumed xray dir Known) {disk : String → Option (List Char)}
    (first : Known (.sync snap)) {xs : List Supervisor.Label}
    (known : ∀ x ∈ xs, KnownLabel Known x) (run : (supervisor cfg).run (.boot snap) xs = some s) :
    ∃ es w, (workspace xray cfg dir).run (.boot snap disk) es = some w ∧ w.supervisor = s ∧
      es.flatMap supervised = xs := by
  have step : ∀ {s : Supervisor} {w : Workspace} {x s'},
      (w.supervisor = s ∧ Handed Known cfg dir w ∧ w.writing = .idle) → KnownLabel Known x →
      (supervisor cfg).step s x = some s' → ∃ w', (workspace xray cfg dir).run w (lifted cfg dir s x) = some w' ∧
        (w'.supervisor = s' ∧ Handed Known cfg dir w' ∧ w'.writing = .idle) := by
    rintro s w x s' ⟨rfl, handed, idle⟩ known h
    obtain ⟨disk, ran⟩ := lifted_step assumed handed idle h
    refine ⟨_, ran, rfl, ?_, rfl⟩
    have labels : ∀ e ∈ lifted cfg dir w.supervisor x, ∀ y ∈ supervised e, KnownLabel Known y := by
      intro e mem y there
      have flat : (lifted cfg dir w.supervisor x).flatMap supervised = [x] := lifted_back x
      have back : y ∈ [x] := flat ▸ List.mem_flatMap.2 ⟨e, mem, there⟩
      exact List.mem_singleton.1 back ▸ known
    exact Machine.along_invariant (fun handed known step => (handed_step assumed handed known step).2)
      handed (Machine.along_of_mem labels _) ran
  obtain ⟨w, ran, same, -, -⟩ := Machine.simulation step
    ⟨rfl, handed_boot first, rfl⟩ (Machine.along_of_mem known _) run
  exact ⟨_, w, ran, same, Machine.flatMap_image (fun _ _ => lifted_back _) run⟩

theorem known_label {x : Supervisor.Label} (known : ∀ c, x = .called c → Known c) : KnownLabel Known x := by
  cases x with
  | called c => exact known c rfl
  | _ => trivial

/-- **Xray is handed what the supervisor means**, for any calls whose credentials do not look like
flags, and whatever is in the directory at the start. Every run with the files, however often a write
ends halfway, is a run of the supervisor: a child starts with the users of the call that starts it, a
command asks for what was decided, and the configuration on the disk is the old one or the whole one of
some call. And the files hold up no run of the supervisor. -/
theorem handover (xray : Xray) (cfg : Settings) (dir : String) (snap : Snapshot)
    (disk : String → Option (List Char)) (Known : Call → Prop) (documented : xray.Documented)
    (plainDir : PlainArgument dir) (first : Known (.sync snap))
    (plain : ∀ snap, Known (.sync snap) → snap.Plain) :
    (∀ es w, (∀ c, .supervised (.called c) ∈ es → Known c) →
      (workspace xray cfg dir).run (.boot snap disk) es = some w →
        (supervisor cfg).run (.boot snap) (es.flatMap supervised) = some w.supervisor ∧
          Whole Known cfg (disk (configPath dir)) (w.disk (configPath dir)) ∧
          (∀ last, w.supervisor.lock.holder = some (.sync last, .launching) →
            w.child xray dir = ⟨configured cfg last.desired, .running⟩) ∧
          ∀ c cmd todo, w.supervisor.lock.holder = some (c, .job (.command cmd todo)) →
            w.read xray cfg dir cmd = some [cmd]) ∧
      ∀ xs s, (∀ c, .called c ∈ xs → Known c) → (supervisor cfg).run (.boot snap) xs = some s →
        ∃ es w, (workspace xray cfg dir).run (.boot snap disk) es = some w ∧ w.supervisor = s ∧
          es.flatMap supervised = xs := by
  have assumed : Assumed xray dir Known := ⟨documented, plainDir, plain⟩
  refine ⟨fun es w known run => ?_, fun xs s known run => ?_⟩
  · have labels : ∀ e ∈ es, ∀ x ∈ supervised e, KnownLabel Known x := by
      intro e mem x there
      cases e with
      | supervised y =>
        obtain rfl := List.mem_singleton.1 there
        exact known_label fun c same => known c (same ▸ mem)
      | _ => cases there
    obtain ⟨ran, handed, whole⟩ := handed_run assumed first labels run
    exact ⟨ran, whole, fun last held => handed.child assumed held,
      fun c cmd todo held => handed.read assumed (.inl held)⟩
  · have labels : ∀ x ∈ xs, KnownLabel Known x := fun x mem => known_label fun c same => known c (same ▸ mem)
    exact lifted_run assumed first labels run

/-- The calls whose credentials do not look like flags. -/
def plainCalls : Call → Prop
  | .sync snap => snap.Plain
  | .stop => True

theorem restart_plain : ∃ p s, (plane {}).run (.initial 0) firstConnection = some p ∧
    (supervisor {}).run (boot ⟨.empty, 0⟩) (Supervision.restartRun ⟨p.db, p.now⟩) = some s ∧
    s.clients.length = 1 ∧ (⟨p.db, p.now⟩ : Snapshot).Plain := by
  obtain ⟨p, first, facts⟩ := (Option.any_eq_true _ _).1
    (by decide +kernel : ((plane {}).run (.initial 0) firstConnection).any fun p =>
      (((supervisor {}).run (boot ⟨.empty, 0⟩) (Supervision.restartRun ⟨p.db, p.now⟩)).any fun s =>
        s.clients.length = 1) && p.db.accessKeys.rows.all fun k => k.credential.toList.head? ≠ some '-')
  obtain ⟨ran, plain⟩ := Bool.and_eq_true_iff.1 facts
  obtain ⟨s, run, one⟩ := (Option.any_eq_true _ _).1 ran
  refine ⟨p, s, first, run, of_decide_eq_true one, fun k mem => ?_⟩
  exact of_decide_eq_true (List.all_eq_true.1 plain k mem)

/-- A restart in a directory full of garbage. -/
theorem handover_restart : ∃ (p : Plane) (es : List Workspace.Label) (w : Workspace),
    (workspace documentedXray {} "/tmp/arena-xray").run (.boot ⟨.empty, 0⟩ fun _ => some ['?']) es = some w ∧
      es.flatMap supervised = Supervision.restartRun ⟨p.db, p.now⟩ ∧ w.supervisor.clients.length = 1 ∧
      Whole plainCalls {} (some ['?']) (w.disk (configPath "/tmp/arena-xray")) := by
  obtain ⟨p, s, -, run, one, plain⟩ := restart_plain
  obtain ⟨same, files⟩ := handover documentedXray {} "/tmp/arena-xray" ⟨.empty, 0⟩ (fun _ => some ['?']) plainCalls
    documentedXray_documented (by decide +kernel) nofun fun _ known => known
  have known : ∀ c, .called c ∈ Supervision.restartRun ⟨p.db, p.now⟩ → plainCalls c := by
    intro c mem
    have here : c = .sync ⟨p.db, p.now⟩ := by simpa [Supervision.restartRun] using mem
    rw [here]
    exact plain
  obtain ⟨es, w, ran, rfl, labels⟩ := files _ s known run
  have calls : ∀ c, .supervised (.called c) ∈ es → plainCalls c := fun c mem =>
    known c (labels ▸ List.mem_flatMap.2 ⟨_, mem, List.mem_cons_self⟩)
  exact ⟨p, es, w, ran, labels, one, (same es w calls ran).2.1⟩

end Arena.Handover
